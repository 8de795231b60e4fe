import NesEmulator.Cartridge
import Mathlib.Logic.Basic
import Mathlib.Tactic.ByContra

/-!
What `load_cartridge` accepts, and what it then returns.

The loader takes the sizes from the header of the file. It accepts a file that has the magic,
announces at least one page of each ROM and holds all the pages it announces; every other
file gives the empty cartridge.
-/

namespace NesEmulator

/-! ### What the header announces -/

/-- The header of a file. -/
def headerOf (file : List U8) : Header := Header.ofBytes (file.take sizeofHeader)

namespace Header

def prgRomSize (header : Header) : ℕ := header.lenPrgRom.toNat * prgRomPageSize
def chrRomSize (header : Header) : ℕ := header.lenChrRom.toNat * chrRomPageSize
def startPrgRom (header : Header) : ℕ := sizeofHeader + (if F6.trainer header.f6 then 512 else 0)

def mapper (header : Header) : U8 := F6.lowerMapper header.f6 ||| (F7.upperMapper header.f7 <<< 4)

def mirroring (header : Header) : Mirroring :=
  if F6.fourScreen header.f6 then .fourScreen
  else if F6.mirroring header.f6 then .vertical
  else .horizontal

end Header

/-- The bytes of the file where the header says the PRG ROM lies. -/
def prgSlice (file : List U8) : List U8 :=
  (file.drop (headerOf file).startPrgRom).take (headerOf file).prgRomSize

/-- The bytes of the file where the header says the CHR ROM lies. -/
def chrSlice (file : List U8) : List U8 :=
  (file.drop ((headerOf file).startPrgRom + (headerOf file).prgRomSize)).take
    (headerOf file).chrRomSize

/-- The file has the magic, announces PRG ROM, and holds all it announces. -/
def Valid (file : List U8) : Prop :=
  (headerOf file).name = nesMagic ∧ 1 ≤ (headerOf file).lenPrgRom.toNat ∧
    (headerOf file).startPrgRom + (headerOf file).prgRomSize + (headerOf file).chrRomSize ≤
      file.length

/-- The cartridge has the sizes that the file announces, and the bytes that belong there. -/
def HoldsSlices (file : List U8) (cartridge : Cartridge) : Prop :=
  cartridge.prgRomSize = (headerOf file).prgRomSize ∧
    cartridge.chrRomSize = (headerOf file).chrRomSize ∧
    cartridge.prgRom = prgSlice file ∧ cartridge.chrRom = chrSlice file

/-- The loader accepts exactly the valid files, and gives the empty cartridge for every
other one. -/
def AllOrNothing (file : List U8) (cartridge : Cartridge) : Prop :=
  (HoldsSlices file cartridge ∧ cartridge ≠ emptyCartridge ↔ Valid file) ∧
    (¬ Valid file → cartridge = emptyCartridge)

/-! ### What the loader does -/

lemma fread_of_le {file : List U8} {pos size : ℕ} (h : 0 < size) (h' : pos + size ≤ file.length) :
    fread file pos size = some ((file.drop pos).take size) := if_pos ⟨h, h'⟩

lemma fread_bounds {file bytes : List U8} {pos size : ℕ} (h : fread file pos size = some bytes) :
    0 < size ∧ pos + size ≤ file.length := by
  unfold fread at h
  split at h
  · next hc => exact hc
  · cases h

lemma sizeofHeader_le_startPrgRom (header : Header) : sizeofHeader ≤ header.startPrgRom :=
  Nat.le_add_right _ _

/-- A file that announces CHR ROM too, and holds all it announces, is loaded. -/
lemma loadCartridge_of_valid {file : List U8} (h : Valid file)
    (hchr : 1 ≤ (headerOf file).lenChrRom.toNat) :
    ∃ hp hc, loadCartridge (some file) =
      { prgRomSize := (headerOf file).prgRomSize
        prgRom := prgSlice file
        chrRomSize := (headerOf file).chrRomSize
        chrRom := chrSlice file
        mirroring := (headerOf file).mirroring
        mapper := (headerOf file).mapper
        prgRom_length := hp
        chrRom_length := hc } := by
  obtain ⟨hname, hprg, hlen⟩ := h
  have hstart := sizeofHeader_le_startPrgRom (headerOf file)
  have hheader : fread file 0 sizeofHeader = some (file.take sizeofHeader) :=
    fread_of_le (by decide) (by omega)
  have hprgRead : fread file (headerOf file).startPrgRom (headerOf file).prgRomSize =
      some (prgSlice file) := fread_of_le (Nat.mul_pos hprg (by decide)) (by omega)
  have hchrRead : fread file ((headerOf file).startPrgRom + (headerOf file).prgRomSize)
      (headerOf file).chrRomSize = some (chrSlice file) :=
    fread_of_le (Nat.mul_pos hchr (by decide)) hlen
  refine ⟨fread_length hprgRead, fread_length hchrRead, ?_⟩
  unfold loadCartridge
  simp only [hheader]
  split
  · next hne => exact absurd hname hne
  · split
    · next hnone => exact absurd (hprgRead.symm.trans hnone) (by simp)
    · next prgRom hsome =>
      obtain rfl : prgSlice file = prgRom := Option.some.inj (hprgRead.symm.trans hsome)
      split
      · next hnone => exact absurd (hchrRead.symm.trans hnone) (by simp)
      · next chrRom hsome' =>
        obtain rfl : chrSlice file = chrRom := Option.some.inj (hchrRead.symm.trans hsome')
        rfl

/-- Every other file gives the empty cartridge. -/
lemma loadCartridge_of_not {file : List U8}
    (h : ¬ (Valid file ∧ 1 ≤ (headerOf file).lenChrRom.toNat)) :
    loadCartridge (some file) = emptyCartridge := by
  unfold loadCartridge
  dsimp only
  split
  · rfl
  · next bytes hbytes =>
    have hread : bytes = file.take sizeofHeader := by
      unfold fread at hbytes
      split at hbytes
      · exact (Option.some.inj hbytes).symm
      · cases hbytes
    subst hread
    split
    · rfl
    · next hname =>
      split
      · rfl
      · next prgRom hprg =>
        split
        · rfl
        · next chrRom hchr =>
          -- both reads have succeeded, so the file is one of those above
          have hp : 0 < (headerOf file).prgRomSize ∧ _ := fread_bounds hprg
          have hc : 0 < (headerOf file).chrRomSize ∧ (headerOf file).startPrgRom +
            (headerOf file).prgRomSize + (headerOf file).chrRomSize ≤ _ := fread_bounds hchr
          exact absurd ⟨⟨not_not.mp hname, Nat.pos_of_mul_pos_right hp.1, hc.2⟩,
            Nat.pos_of_mul_pos_right hc.1⟩ h

/-! ### Which files are accepted -/

lemma ne_empty_of_holds {file : List U8} {cartridge : Cartridge} (h : HoldsSlices file cartridge)
    (hprg : 1 ≤ (headerOf file).lenPrgRom.toNat) : cartridge ≠ emptyCartridge := by
  rintro rfl
  have hpos : 0 < (headerOf file).prgRomSize := Nat.mul_pos hprg (by decide)
  rw [← h.1] at hpos
  exact absurd hpos (by decide)

lemma loadCartridge_holds {file : List U8} (h : Valid file)
    (hchr : 1 ≤ (headerOf file).lenChrRom.toNat) :
    HoldsSlices file (loadCartridge (some file)) := by
  obtain ⟨hp, hc, hload⟩ := loadCartridge_of_valid h hchr
  rw [hload]
  exact ⟨rfl, rfl, rfl, rfl⟩

/-- **All or nothing.** The loader keeps this promise for a file exactly if the file announces
CHR ROM or is not valid in the first place: a valid image of a board with CHR RAM only, which
announces none, is turned away like a file that is too short. -/
theorem loadCartridge_all_or_nothing (file : List U8) :
    AllOrNothing file (loadCartridge (some file)) ↔
      (Valid file → 1 ≤ (headerOf file).lenChrRom.toNat) := by
  constructor
  · rintro ⟨hiff, -⟩ hvalid
    by_contra hchr
    have hempty : loadCartridge (some file) = emptyCartridge :=
      loadCartridge_of_not fun h => hchr h.2
    exact (hiff.mpr hvalid).2 hempty
  · intro hchr
    by_cases hvalid : Valid file
    · have hholds := loadCartridge_holds hvalid (hchr hvalid)
      have hne := ne_empty_of_holds hholds hvalid.2.1
      exact ⟨iff_of_true ⟨hholds, hne⟩ hvalid, fun h => absurd hvalid h⟩
    · have hempty : loadCartridge (some file) = emptyCartridge :=
        loadCartridge_of_not fun h => hvalid h.1
      exact ⟨iff_of_false (fun h => h.2 hempty) hvalid, fun _ => hempty⟩

/-- One page of PRG ROM and no CHR ROM. -/
def chrRamFile : List U8 :=
  nesMagic ++ [1, 0, 0, 0] ++ List.replicate 8 0 ++ List.replicate prgRomPageSize 0

lemma headerOf_chrRamFile : headerOf chrRamFile = ⟨nesMagic, 1, 0, 0, 0⟩ := rfl

lemma valid_chrRamFile : Valid chrRamFile := by
  have hlen : chrRamFile.length = sizeofHeader + prgRomPageSize := by
    rw [chrRamFile, List.length_append, List.length_append, List.length_replicate,
      List.length_replicate]
    rfl
  unfold Valid
  rw [headerOf_chrRamFile, hlen]
  decide

theorem loadCartridge_chrRamFile :
    ¬ ∀ file, AllOrNothing file (loadCartridge (some file)) := by
  intro h
  have hempty : loadCartridge (some chrRamFile) = emptyCartridge := by
    refine loadCartridge_of_not fun hc => ?_
    rw [headerOf_chrRamFile] at hc
    exact absurd hc.2 (by decide)
  exact ((h chrRamFile).1.mpr valid_chrRamFile).2 hempty

end NesEmulator
