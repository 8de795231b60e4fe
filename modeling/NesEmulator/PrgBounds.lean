import NesEmulator.Frames
import NesEmulator.Loader

/-!
Where `cart_read` indexes the PRG ROM.

Its mirror rule knows a ROM of one page and takes every other ROM to fill the window. That
is safe for a loaded cartridge, which has whole pages, and for none of the addresses it looks
at when the loader has failed: the empty cartridge is mapped like any other.
-/

namespace NesEmulator

/-- Should a read look into the ROM, it stays inside. -/
def InBounds (bus : Bus) (addr : U16) : Prop :=
  ∀ i, prgIndex bus addr = some i → i < bus.cartridge.prgRomSize

lemma inBounds_of_none {bus : Bus} {addr : U16} (h : prgIndex bus addr = none) :
    InBounds bus addr := by
  intro i hi
  rw [h] at hi
  cases hi

lemma inBounds_congr {b c : Bus} (h : c.cartridge = b.cartridge) (addr : U16) :
    InBounds c addr ↔ InBounds b addr := by
  unfold InBounds prgIndex
  rw [h]

/-- A ROM of whole pages, at least one of them, covers what is looked at. -/
lemma inBounds_of_pages {bus : Bus} {pages : ℕ} (hpos : 1 ≤ pages)
    (hsize : bus.cartridge.prgRomSize = pages * prgRomPageSize) (addr : U16) :
    InBounds bus addr := by
  have hlt := addr.isLt
  by_cases hin : 0x8000 < addr.toNat ∧ addr.toNat < 0xFFFF
  · intro i hi
    rw [prgIndex_eq_some hin.1 hin.2, hsize] at hi
    obtain rfl := Option.some.inj hi
    rw [hsize]
    unfold prgRomPageSize
    split
    · next hone =>
      rw [hone]
      exact Nat.mod_lt _ (by decide)
    · -- at least two pages, as many as the window has
      omega
  · exact inBounds_of_none (prgIndex_eq_none (by omega))

lemma inBounds_empty_iff {bus : Bus} (h : bus.cartridge = emptyCartridge) (addr : U16) :
    InBounds bus addr ↔ addr ≤ 0x8000 ∨ addr = 0xFFFF := by
  have hlt := addr.isLt
  constructor
  · intro hbounds
    by_contra hout
    rw [not_or, BitVec.le_def] at hout
    have hindex : prgIndex bus addr = some _ := prgIndex_eq_some (by bv_omega) (by bv_omega)
    have hlt := hbounds _ hindex
    rw [h] at hlt
    exact Nat.not_lt_zero _ hlt
  · intro hout
    exact inBounds_of_none (prgIndex_eq_none (by bv_omega))

/-- The loader gives something for the file. -/
def Accepted (file : Option (List U8)) : Prop :=
  ∃ bytes, file = some bytes ∧ Valid bytes ∧ 1 ≤ (headerOf bytes).lenChrRom.toNat

lemma loadCartridge_of_not_accepted {file : Option (List U8)} (h : ¬ Accepted file) :
    loadCartridge file = emptyCartridge := by
  cases file with
  | none => rfl
  | some bytes => exact loadCartridge_of_not fun hb => h ⟨bytes, rfl, hb⟩

/-- **Bounds of the PRG ROM.** Whatever is done to a bus that the loader's cartridge has been
attached to, a read keeps its bounds exactly if the file was a valid image or the address is
not one that is looked up; so all reads keep them exactly for the valid images. -/
theorem prg_reads_in_bounds (file : Option (List U8)) :
    (∀ bus events addr,
      InBounds ((busLoadCartridge bus (loadCartridge file)).after events) addr ↔
        Accepted file ∨ addr ≤ 0x8000 ∨ addr = 0xFFFF) ∧
    ((∀ bus events addr,
      InBounds ((busLoadCartridge bus (loadCartridge file)).after events) addr) ↔
        Accepted file) := by
  have hiff : ∀ bus events addr,
      InBounds ((busLoadCartridge bus (loadCartridge file)).after events) addr ↔
        Accepted file ∨ addr ≤ 0x8000 ∨ addr = 0xFFFF := by
    intro bus events addr
    rw [inBounds_congr (after_cartridge _ events)]
    by_cases haccepted : Accepted file
    · refine iff_of_true ?_ (Or.inl haccepted)
      obtain ⟨bytes, rfl, hvalid, hchr⟩ := haccepted
      have hsize := (loadCartridge_holds hvalid hchr).1
      exact inBounds_of_pages hvalid.2.1 hsize addr
    · have hempty := loadCartridge_of_not_accepted haccepted
      rw [inBounds_empty_iff hempty, or_iff_right haccepted]
  refine ⟨hiff, fun hall => ?_, fun haccepted bus events addr => ?_⟩
  · -- the reset vector tells
    have hvector := (hiff (freshBus emptyCartridge) [] 0xFFFC).mp (hall _ _ _)
    exact hvector.resolve_right (by decide)
  · exact (hiff bus events addr).mpr (Or.inl haccepted)

/-- A file that is not there. -/
theorem prg_reads_missing_file :
    ¬ ∀ file bus events addr,
      InBounds ((busLoadCartridge bus (loadCartridge file)).after events) addr := by
  intro h
  have hvector := h none (freshBus emptyCartridge) [] 0xFFFC
  rw [inBounds_empty_iff rfl] at hvector
  exact absurd hvector (by decide)

end NesEmulator
