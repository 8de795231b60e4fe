import NesEmulator.Loader
import NesEmulator.Lib.Blocks

/-!
The iNES format, and what the loader makes of an image of it.

An image lists the flag bits of byte 6 from bit 0 up, with the low half of the mapper number
above them, and keeps the high half of the mapper number at the top of byte 7. The loader's
`F6` and `F7` declare their fields from the top bit down, so in the place of the mapper
number it finds the flags, and in the place of the flags the mapper number.
-/

namespace NesEmulator

open Lib.Blocks

/-- What an iNES image stores. -/
structure INesContents where
  mapper : U8
  mirroring : Mirroring
  battery : Bool
  trainer : Option (List U8)
  /-- The header bytes behind the flags. -/
  rest : List U8
  prgPages : ℕ
  prg : List U8
  chrPages : ℕ
  chr : List U8
  trainer_length : ∀ t ∈ trainer, t.length = 512
  rest_length : rest.length = 8
  prgPages_pos : 1 ≤ prgPages
  prgPages_le : prgPages ≤ 255
  prg_length : prg.length = prgPages * prgRomPageSize
  chrPages_pos : 1 ≤ chrPages
  chrPages_le : chrPages ≤ 255
  chr_length : chr.length = chrPages * chrRomPageSize

/-- The flag bits of byte 6, from bit 3 down to bit 0. -/
def flagBits (mirroring : Mirroring) (trainer battery : Bool) : BitVec 4 :=
  BitVec.ofBool (mirroring = .fourScreen) ++ BitVec.ofBool trainer ++ BitVec.ofBool battery ++
    BitVec.ofBool (mirroring = .vertical)

/-- The mapper number that the flags of a horizontal image look like. -/
def flagMapper (trainer battery : Bool) : U8 :=
  (if trainer then 4 else 0) + (if battery then 2 else 0)

lemma flagBits_horizontal (trainer battery : Bool) :
    (flagBits .horizontal trainer battery).setWidth 8 = flagMapper trainer battery := by
  cases trainer <;> cases battery <;> rfl

/-- A page count fits its byte. -/
lemma toNat_pages {pages : ℕ} (h : pages ≤ 255) : (BitVec.ofNat 8 pages).toNat = pages := by
  rw [BitVec.toNat_ofNat, Nat.mod_eq_of_lt (by omega)]

namespace INesContents

variable (c : INesContents)

/-- The bits of byte 6 that are not the mapper number. -/
def flags : BitVec 4 := flagBits c.mirroring c.trainer.isSome c.battery

def flags6 : U8 := c.mapper.extractLsb' 0 4 ++ c.flags
def flags7 : U8 := c.mapper.extractLsb' 4 4 ++ (0 : BitVec 4)

def headerBytes : List U8 :=
  nesMagic ++ [BitVec.ofNat 8 c.prgPages, BitVec.ofNat 8 c.chrPages, c.flags6, c.flags7] ++ c.rest

/-- The bytes behind the header. -/
def payload : List U8 := c.trainer.getD [] ++ (c.prg ++ c.chr)

def image : List U8 := c.headerBytes ++ c.payload

/-- Loading the image gives back what it stores. -/
def Loaded : Prop :=
  (loadCartridge (some c.image)).mapper = c.mapper ∧
    (loadCartridge (some c.image)).mirroring = c.mirroring ∧
    (loadCartridge (some c.image)).prgRom = c.prg ∧ (loadCartridge (some c.image)).chrRom = c.chr

/-! ### The header that the loader sees -/

lemma headerOf_image : headerOf c.image =
    ⟨nesMagic, BitVec.ofNat 8 c.prgPages, BitVec.ofNat 8 c.chrPages, c.flags6, c.flags7⟩ := rfl

lemma headerOf_prgRomSize : (headerOf c.image).prgRomSize = c.prg.length := by
  rw [c.prg_length, headerOf_image, Header.prgRomSize, toNat_pages c.prgPages_le]

lemma headerOf_chrRomSize : (headerOf c.image).chrRomSize = c.chr.length := by
  rw [c.chr_length, headerOf_image, Header.chrRomSize, toNat_pages c.chrPages_le]

/-- The flags are taken for the mapper number. -/
lemma headerOf_mapper : (headerOf c.image).mapper = c.flags.setWidth 8 := by
  have h6 : F6.lowerMapper c.flags6 = c.flags.setWidth 8 := by
    rw [F6.lowerMapper, flags6, BitVec.extractLsb'_append_eq_right]
  have h7 : F7.upperMapper c.flags7 = 0 := by
    rw [F7.upperMapper, flags7, BitVec.extractLsb'_append_eq_right]
    rfl
  rw [headerOf_image, Header.mapper, h6, h7]
  simp

lemma flags6_getLsbD (i : ℕ) (h : i < 4) : c.flags6.getLsbD (i + 4) = c.mapper.getLsbD i := by
  rw [flags6, BitVec.getLsbD_append]
  simp [h]

/-- The mapper number is taken for the flags. -/
lemma headerOf_mirroring : (headerOf c.image).mirroring =
    if c.mapper.getLsbD 0 then .fourScreen
    else if c.mapper.getLsbD 3 then .vertical else .horizontal := by
  simp only [headerOf_image, Header.mirroring, F6.fourScreen, F6.mirroring,
    c.flags6_getLsbD 0 (by decide), c.flags6_getLsbD 3 (by decide)]

lemma headerOf_startPrgRom : (headerOf c.image).startPrgRom =
    if c.mapper.getLsbD 1 then sizeofHeader + 512 else sizeofHeader := by
  rw [headerOf_image, Header.startPrgRom, F6.trainer, c.flags6_getLsbD 1 (by decide)]
  split <;> rfl

/-- The loader sees the right mapper number and the right mirroring. -/
def Seen : Prop :=
  (headerOf c.image).mapper = c.mapper ∧ (headerOf c.image).mirroring = c.mirroring

lemma seen_iff : c.Seen ↔
    c.mirroring = .horizontal ∧ c.mapper = flagMapper c.trainer.isSome c.battery := by
  unfold Seen
  rw [headerOf_mapper, headerOf_mirroring]
  constructor
  · rintro ⟨hmapper, hmirroring⟩
    have hhorizontal : c.mirroring = .horizontal := by
      -- bits 0 and 3 of the flags are the mirroring
      rw [← hmapper, flags] at hmirroring
      revert hmirroring
      cases c.mirroring <;> cases c.trainer.isSome <;> cases c.battery <;> decide
    refine ⟨hhorizontal, ?_⟩
    rw [← hmapper, flags, hhorizontal, flagBits_horizontal]
  · rintro ⟨hmirroring, hmapper⟩
    rw [hmapper, flags, hmirroring, flagBits_horizontal]
    refine ⟨rfl, ?_⟩
    cases c.trainer.isSome <;> cases c.battery <;> rfl

/-! ### Where the loader looks for the data -/

lemma headerBytes_length : c.headerBytes.length = sizeofHeader := by
  rw [headerBytes, List.length_append, c.rest_length]
  rfl

lemma drop_image (n : ℕ) : c.image.drop (sizeofHeader + n) = c.payload.drop n := by
  rw [image, ← c.headerBytes_length, List.drop_length_add_append]

/-- The bytes of the image from where the loader looks for the PRG ROM. -/
def found : List U8 := c.image.drop (headerOf c.image).startPrgRom

/-- The data lie where the loader looks for them. -/
def Placed : Prop :=
  (c.prg ++ c.chr).length ≤ c.found.length ∧ c.found.take (c.prg ++ c.chr).length = c.prg ++ c.chr

lemma slices_append :
    prgSlice c.image ++ chrSlice c.image = c.found.take (c.prg ++ c.chr).length := by
  rw [prgSlice, chrSlice, headerOf_prgRomSize, headerOf_chrRomSize, List.length_append,
    List.take_add, found, List.drop_drop]

lemma found_eq : c.found = if c.mapper.getLsbD 1 then c.payload.drop 512 else c.payload := by
  rw [found, headerOf_startPrgRom]
  split
  · rw [drop_image]
  · exact c.drop_image 0

lemma data_pos : 0 < (c.prg ++ c.chr).length := by
  rw [List.length_append, c.prg_length]
  exact Nat.add_pos_left (Nat.mul_pos c.prgPages_pos (by decide)) _

lemma valid_image_iff : Valid c.image ↔ (c.prg ++ c.chr).length ≤ c.found.length := by
  have hpos := c.data_pos
  have hprg : 1 ≤ (BitVec.ofNat 8 c.prgPages).toNat := by
    rw [toNat_pages c.prgPages_le]
    exact c.prgPages_pos
  unfold Valid
  rw [headerOf_prgRomSize, headerOf_chrRomSize, found, List.length_drop, List.length_append] at *
  constructor
  · rintro ⟨-, -, hlen⟩
    omega
  · intro hlen
    exact ⟨rfl, hprg, by omega⟩

lemma slices_iff (h : Valid c.image) : prgSlice c.image = c.prg ∧ chrSlice c.image = c.chr ↔
    c.found.take (c.prg ++ c.chr).length = c.prg ++ c.chr := by
  rw [← slices_append]
  constructor
  · rintro ⟨hprg, hchr⟩
    rw [hprg, hchr]
  · intro happend
    have hlen : (prgSlice c.image).length = c.prg.length := by
      have := h.2.2
      rw [headerOf_prgRomSize] at this
      rw [prgSlice, headerOf_prgRomSize, List.length_take, List.length_drop]
      omega
    exact List.append_inj happend hlen

lemma loaded_iff_seen_placed : c.Loaded ↔ c.Seen ∧ c.Placed := by
  have hchr : 1 ≤ (BitVec.ofNat 8 c.chrPages).toNat := by
    rw [toNat_pages c.chrPages_le]
    exact c.chrPages_pos
  unfold Loaded Placed
  rw [← valid_image_iff]
  by_cases hvalid : Valid c.image
  · obtain ⟨hp, hc, hload⟩ := loadCartridge_of_valid hvalid hchr
    rw [hload, ← c.slices_iff hvalid]
    exact ⟨fun ⟨hm, hr, hdata⟩ => ⟨⟨hm, hr⟩, hvalid, hdata⟩,
      fun ⟨⟨hm, hr⟩, _, hdata⟩ => ⟨hm, hr, hdata⟩⟩
  · have hload : loadCartridge (some c.image) = emptyCartridge :=
      loadCartridge_of_not fun h => hvalid h.1
    rw [hload]
    refine iff_of_false ?_ fun h => hvalid h.2.1
    rintro ⟨-, -, hprg, hdata⟩
    have hpos := c.data_pos
    rw [← hprg, ← hdata] at hpos
    exact absurd hpos (by decide)

lemma placed_iff (h : c.mapper = flagMapper c.trainer.isSome c.battery) : c.Placed ↔
    match c.trainer with
    | none => c.battery = false
    | some t => c.battery = true ∨ Repeats t (c.prg ++ c.chr) := by
  have hpos := c.data_pos
  have hfound : c.found = if c.battery then c.payload.drop 512 else c.payload := by
    have hbit : (flagMapper c.trainer.isSome c.battery).getLsbD 1 = c.battery := by
      cases c.trainer.isSome <;> cases c.battery <;> rfl
    rw [found_eq, h, hbit]
  unfold Placed
  rw [hfound, payload]
  cases ht : c.trainer with
  | none =>
    cases hb : c.battery with
    | false =>
      simp only [Option.getD_none, List.nil_append, Bool.false_eq_true, if_false, iff_true]
      exact ⟨Nat.le_refl _, List.take_length⟩
    | true =>
      -- the loader skips data for a trainer that is not there
      simp only [Option.getD_none, List.nil_append, if_true, List.length_drop]
      exact iff_of_false (fun hc => by omega) (by decide)
  | some t =>
    have hlen : t.length = 512 := c.trainer_length t ht
    cases hb : c.battery with
    | false =>
      -- the loader takes the trainer for the first data
      simp only [Option.getD_some, Bool.false_eq_true, if_false, false_or]
      rw [take_append_eq_iff (by omega)]
      exact ⟨And.right, fun hr => ⟨(List.sublist_append_right t _).length_le, hr⟩⟩
    | true =>
      simp only [Option.getD_some, if_true, true_or, iff_true]
      rw [← hlen, List.drop_left]
      exact ⟨Nat.le_refl _, List.take_length⟩

/-- The images that the loader reads back: horizontal ones whose mapper number is the flag bits
of the trainer and the battery, so that the two can stand for each other. The battery bit then
makes the loader skip a trainer, which must be there; a trainer that is not skipped is taken
for the first data, and the data must go on like it. -/
def Readable : Prop :=
  c.mirroring = .horizontal ∧ c.mapper = flagMapper c.trainer.isSome c.battery ∧
    match c.trainer with
    | none => c.battery = false
    | some t => c.battery = true ∨ Repeats t (c.prg ++ c.chr)

/-- **Loading undoes encoding** exactly for the images whose mapper number and flags say the
same when they are exchanged: horizontal images of mapper 0 with neither battery nor trainer, of
mapper 6 with both, and of mapper 4 with a trainer only, if the data repeat the trainer. -/
theorem loaded_iff_readable (c : INesContents) : c.Loaded ↔ c.Readable := by
  rw [loaded_iff_seen_placed, seen_iff, Readable, and_assoc]
  refine and_congr_right fun _ => and_congr_right fun hmapper => ?_
  exact c.placed_iff hmapper

/-- A plain vertical image: one page of each ROM, all zeros. -/
def verticalPage : INesContents where
  mapper := 0
  mirroring := .vertical
  battery := false
  trainer := none
  rest := List.replicate 8 0
  prgPages := 1
  prg := List.replicate prgRomPageSize 0
  chrPages := 1
  chr := List.replicate chrRomPageSize 0
  trainer_length := by rintro t ⟨⟩
  rest_length := rfl
  prgPages_pos := by decide
  prgPages_le := by decide
  prg_length := by rw [List.length_replicate, Nat.one_mul]
  chrPages_pos := by decide
  chrPages_le := by decide
  chr_length := by rw [List.length_replicate, Nat.one_mul]

theorem verticalPage_not_loaded : ¬ ∀ c : INesContents, c.Loaded := by
  intro h
  obtain ⟨⟨-, hmirroring⟩, -⟩ := verticalPage.loaded_iff_seen_placed.mp (h verticalPage)
  rw [headerOf_mirroring] at hmirroring
  exact absurd hmirroring (by decide)

end INesContents

end NesEmulator
