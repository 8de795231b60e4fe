import NesEmulator.Arithmetic

/-!
The unofficial read-modify-write instructions.

Each is one official instruction after another. The first one hands its result to the second
one through memory, so the second one sees it where a store takes effect, and elsewhere sees
the byte that was there before.
-/

namespace NesEmulator

open Lib.LittleEndian

/-! ### What is wanted of them -/

/-- Zero and negative flag tell about a byte. -/
def FlagsFollow (bus : Bus) (result : U8) : Prop :=
  bus.cpu.flag .zeroFlag = (result == 0) ∧ bus.cpu.flag .negativeFlag = result.msb

/-- A byte has been stored, if the address is one that takes stores. -/
def Stored (bus : Bus) (a : U16) (value : U8) : Prop :=
  a.toNat < 0x2000 → bus.cpuRam (ramCell a) = value

/-- The signed sum of two bytes and a bit is not a byte. -/
def SignedOverflow (v w : U8) (c : Bool) : Prop :=
  ¬ (-128 ≤ v.toInt + w.toInt + c.toNat ∧ v.toInt + w.toInt + c.toNat < 128)

section Wanted

variable (bus : Bus) (a : U16)

/-- A byte rotated right through the carry. -/
def rotatedRight (cpu : CPU) (m : U8) : U8 := (m >>> 1) ||| (cpu.carry <<< 7)

def SloAsWanted : Prop :=
  let m := readMem bus a
  let m' := 2 * m
  let result := bus.cpu.accumulator ||| m'
  (sloFn bus a).cpu.accumulator = result ∧ (sloFn bus a).cpu.flag .carryFlag = m.getLsbD 7 ∧
    FlagsFollow (sloFn bus a) result ∧ Stored (sloFn bus a) a m'

def RlaAsWanted : Prop :=
  let m' := 2 * readMem bus a + bus.cpu.carry
  let result := bus.cpu.accumulator &&& m'
  (rlaFn bus a).cpu.accumulator = result ∧ FlagsFollow (rlaFn bus a) result ∧
    Stored (rlaFn bus a) a m'

def SreAsWanted : Prop :=
  let m' := readMem bus a >>> 1
  let result := bus.cpu.accumulator ^^^ m'
  (sreFn bus a).cpu.accumulator = result ∧ FlagsFollow (sreFn bus a) result ∧
    Stored (sreFn bus a) a m'

def RraAsWanted : Prop :=
  let m := readMem bus a
  let m' := rotatedRight bus.cpu m
  let c' := m.getLsbD 0
  let A := bus.cpu.accumulator
  let result := A + m' + BitVec.ofNat 8 c'.toNat
  (rraFn bus a).cpu.accumulator = result ∧
    ((rraFn bus a).cpu.flag .carryFlag = true ↔ 256 ≤ A.toNat + m'.toNat + c'.toNat) ∧
    ((rraFn bus a).cpu.flag .overflowFlag = true ↔ SignedOverflow A m' c') ∧
    FlagsFollow (rraFn bus a) result ∧ Stored (rraFn bus a) a m'

def DcpAsWanted : Prop :=
  let m' := readMem bus a - 1
  let A := bus.cpu.accumulator
  ((dcpFn bus a).cpu.flag .carryFlag = true ↔ m'.toNat ≤ A.toNat) ∧
    FlagsFollow (dcpFn bus a) (A - m') ∧ Stored (dcpFn bus a) a m'

def IsbAsWanted : Prop :=
  let m' := readMem bus a + 1
  let result := bus.cpu.accumulator - m' - (1 - bus.cpu.carry)
  (isbFn bus a).cpu.accumulator = result ∧ FlagsFollow (isbFn bus a) result ∧
    Stored (isbFn bus a) a m'

/-- The six instructions use the byte that they have made. -/
structure CombinedAsWanted : Prop where
  slo : SloAsWanted bus a
  rla : RlaAsWanted bus a
  sre : SreAsWanted bus a
  rra : RraAsWanted bus a
  dcp : DcpAsWanted bus a
  isb : IsbAsWanted bus a

end Wanted

/-! ### The second read -/

/-- What a read finds where `v` has just been written. -/
def reread (bus : Bus) (a : U16) (v : U8) : U8 := if a.toNat < 0x2000 then v else readMem bus a

lemma readMem_writeMem (bus : Bus) (a : U16) (v : U8) :
    readMem (writeMem bus a v) a = reread bus a v := by
  unfold reread
  split
  · next h =>
    rw [writeMem_of_lt v h, readMem_of_le (by omega)]
    exact Function.update_self ..
  · next h => rw [writeMem_of_ge v (by omega)]

lemma stored_writeMem (bus : Bus) (a : U16) (v : U8) : Stored (writeMem bus a v) a v := by
  intro h
  rw [writeMem_of_lt v h]
  exact Function.update_self ..

/-- The first half of a combined instruction: a byte has been made and written, and the
accumulator is still the old one. -/
structure Handed (bus : Bus) (a : U16) (v : U8) (carry : Bool) (b : Bus) : Prop where
  accumulator : b.cpu.accumulator = bus.cpu.accumulator
  carryFlag : b.cpu.flag .carryFlag = carry
  read : readMem b a = reread bus a v
  stored : Stored b a v

lemma handed_putShifted (bus : Bus) (a : U16) (v : U8) (c : Bool) :
    Handed bus a v c (putShifted bus a v c) := by
  refine ⟨?_, by simp, ?_, ?_⟩
  · simp [putShifted, updateZeroAndNegativeFlags, setFlag_eq_putFlag, CPU.putFlag]
  · rw [← readMem_writeMem]
    exact readMem_congr (by simp [putShifted]) (putShifted_cpuRam bus a v c) a
  · rw [Stored, putShifted_cpuRam]
    exact stored_writeMem bus a v

/-- INC and DEC leave the carry alone. -/
lemma handed_incFn (bus : Bus) (a : U16) :
    Handed bus a (readMem bus a + 1) (bus.cpu.flag .carryFlag) (incFn bus a) := by
  refine ⟨?_, by simp [incFn], ?_, stored_writeMem bus a _⟩
  · simp [incFn, updateZeroAndNegativeFlags, CPU.putFlag]
  · rw [← readMem_writeMem]
    exact readMem_congr rfl rfl a

lemma handed_decFn (bus : Bus) (a : U16) :
    Handed bus a (readMem bus a - 1) (bus.cpu.flag .carryFlag) (decFn bus a) := by
  have hwrite := readMem_writeMem
    (bus.onCpu fun cpu => updateZeroAndNegativeFlags cpu (readMem bus a - 1)) a (readMem bus a - 1)
  refine ⟨?_, by simp [decFn], hwrite.trans ?_, stored_writeMem _ a _⟩
  · simp [decFn, updateZeroAndNegativeFlags, CPU.putFlag]
  · unfold reread
    rw [readMem_congr (onCpu_cartridge bus _) (onCpu_cpuRam bus _)]

/-! ### The second half -/

section SecondHalf

variable {bus b : Bus} {a : U16} {v : U8} {c : Bool}

lemma Handed.putAccumulator (h : Handed bus a v c b) (r : U8) :
    (putAccumulator b r).cpu.accumulator = r ∧ (putAccumulator b r).cpu.flag .carryFlag = c ∧
      FlagsFollow (putAccumulator b r) r ∧ Stored (putAccumulator b r) a v := by
  refine ⟨rfl, ?_, ⟨by simp, by simp⟩, h.stored⟩
  rw [← h.carryFlag]
  simp

/-- A byte made by an operation on the accumulator and the byte that is read again. -/
lemma Handed.combine (h : Handed bus a v c b) (ha : a.toNat < 0x2000) (op : U8 → U8 → U8) :
    let r := op bus.cpu.accumulator v
    let after := NesEmulator.putAccumulator b (op b.cpu.accumulator (readMem b a))
    after.cpu.accumulator = r ∧ after.cpu.flag .carryFlag = c ∧ FlagsFollow after r ∧
      Stored after a v := by
  have hread : readMem b a = v := h.read.trans (if_pos ha)
  dsimp only
  rw [h.accumulator, hread]
  exact h.putAccumulator _

/-- An addition of a byte to the accumulator and the carry. -/
lemma Handed.addWithCarry (h : Handed bus a v c b) (m : U8) :
    let r := bus.cpu.accumulator + m + (BitVec.ofBool c).setWidth 8
    let after := NesEmulator.addWithCarry b (m.setWidth 16)
    after.cpu.accumulator = r ∧
      after.cpu.flag .carryFlag = BitVec.carry 8 bus.cpu.accumulator m c ∧
      after.cpu.flag .overflowFlag = overflows bus.cpu.accumulator.msb m.msb r.msb ∧
      FlagsFollow after r ∧ Stored after a v := by
  have hsum : sumByte b.cpu m = bus.cpu.accumulator + m + (BitVec.ofBool c).setWidth 8 := by
    rw [sumByte, CPU.carry, h.accumulator, h.carryFlag]
  dsimp only
  rw [← hsum]
  refine ⟨by simp, ?_, ?_, ⟨by simp, by simp⟩, h.stored⟩
  · rw [addWithCarry_carry, h.accumulator, h.carryFlag]
  · rw [addWithCarry_overflow, h.accumulator]

end SecondHalf

lemma overflows_iff (x y : U8) (c : Bool) :
    overflows x.msb y.msb (x + y + (BitVec.ofBool c).setWidth 8).msb = true ↔
      SignedOverflow x y c := by
  have hadd := overflows_add (show 0 < 8 by decide) c (show [(x, y)] ≠ [] by simp)
  have hsigned : ∀ z : U8, signed [z] = z.toInt := by
    intro z
    rw [BitVec.toInt_eq_msb_cond, signed, sign]
    simp [bound]
  simp only [List.map_cons, List.map_nil, hsigned, Fits, List.length_singleton] at hadd
  refine hadd.trans (not_congr ?_)
  simp only [bound]
  omega

lemma not_eq_sub (m : U8) : ~~~m = -m - 1 := by
  rw [BitVec.neg_eq_not_add]
  exact (BitVec.add_sub_cancel _ _).symm

/-- What ISB leaves, in terms of the byte that it reads again. -/
lemma isbFn_accumulator (bus : Bus) (a : U16) : (isbFn bus a).cpu.accumulator =
    bus.cpu.accumulator - reread bus a (readMem bus a + 1) - (1 - bus.cpu.carry) := by
  have hring : ∀ x m k : U8, x + (-m - 1) + k = x - m - (1 - k) := by grind
  have h := handed_incFn bus a
  rw [isbFn, sbcFn_eq, h.read, (h.addWithCarry _).1, not_eq_sub, hring]
  rfl

section Writable

variable {bus : Bus} {a : U16} (ha : a.toNat < 0x2000)
include ha

lemma slo_asWanted : SloAsWanted bus a := by
  have hdouble : ∀ m : U8, m <<< 1 = 2 * m := by decide
  have h := (handed_putShifted bus a (readMem bus a <<< 1) (readMem bus a &&& 0x80 != 0)).combine
    ha (· ||| ·)
  unfold SloAsWanted
  dsimp only
  rw [← hdouble, ← and_0x80_bne_getLsbD]
  exact h

lemma rla_asWanted : RlaAsWanted bus a := by
  have hdouble : ∀ (m : U8) (c : Bool), (m <<< 1) ||| (BitVec.ofBool c).setWidth 8 =
      2 * m + (BitVec.ofBool c).setWidth 8 := by decide
  have h := (handed_putShifted bus a ((readMem bus a <<< 1) ||| bus.cpu.carry)
    (readMem bus a &&& 0x80 != 0)).combine ha (· &&& ·)
  unfold RlaAsWanted
  dsimp only
  rw [CPU.carry, ← hdouble]
  exact ⟨h.1, h.2.2⟩

lemma sre_asWanted : SreAsWanted bus a := by
  have h := (handed_putShifted bus a (readMem bus a >>> 1) (readMem bus a &&& 0x01 != 0)).combine
    ha (· ^^^ ·)
  exact ⟨h.1, h.2.2⟩

lemma rra_asWanted : RraAsWanted bus a := by
  have hbit : ∀ c : Bool, BitVec.ofNat 8 c.toNat = (BitVec.ofBool c).setWidth 8 := by decide
  have h : Handed bus a (rotatedRight bus.cpu (readMem bus a)) (readMem bus a &&& 0x01 != 0)
      (rorFn bus a) := handed_putShifted ..
  have hread := h.read.trans (if_pos ha)
  obtain ⟨hacc, hcarry, hoverflow, hrest⟩ := h.addWithCarry (rotatedRight bus.cpu (readMem bus a))
  have hafter : rraFn bus a = addWithCarry (rorFn bus a)
      ((rotatedRight bus.cpu (readMem bus a)).setWidth 16) := by
    rw [rraFn, adcFn, hread]
  unfold RraAsWanted
  dsimp only
  rw [hafter, hbit, ← and_0x01_bne]
  refine ⟨hacc, ?_, ?_, hrest⟩
  · rw [hcarry, BitVec.carry_width, decide_eq_true_iff]
    rfl
  · rw [hoverflow, overflows_iff]
    rfl

lemma dcp_asWanted : DcpAsWanted bus a := by
  have h := handed_decFn bus a
  have hread := h.read.trans (if_pos ha)
  have hafter : dcpFn bus a = compare (decFn bus a) bus.cpu.accumulator (readMem bus a - 1) := by
    rw [dcpFn, cmpFn, h.accumulator, hread]
  unfold DcpAsWanted
  dsimp only
  rw [hafter]
  refine ⟨?_, ⟨by simp, by simp⟩, h.stored⟩
  rw [compare_carry, ← ge_eq_carry, decide_eq_true_iff, ge_iff_le, BitVec.le_def]

lemma isb_asWanted : IsbAsWanted bus a := by
  have hacc := isbFn_accumulator bus a
  have h := handed_incFn bus a
  obtain ⟨hsum, -, -, hrest⟩ := h.addWithCarry (~~~(readMem (incFn bus a) a))
  rw [← sbcFn_eq] at hsum hrest
  have hresult := hsum.symm.trans hacc
  rw [hresult] at hrest
  rw [reread, if_pos ha] at hacc hrest
  exact ⟨hacc, hrest⟩

end Writable

/-- **The combined instructions** use the byte that they have made exactly where a store takes
effect. -/
theorem combined_as_wanted_iff (bus : Bus) (a : U16) :
    CombinedAsWanted bus a ↔ a.toNat < 0x2000 := by
  constructor
  · intro h
    by_contra ha
    -- elsewhere ISB subtracts the byte that it has not incremented
    have hisb := h.isb.1
    rw [isbFn_accumulator, reread, if_neg ha] at hisb
    have hring : ∀ x m k : U8, x - m - k = x - (m + 1) - k → False := by
      intro x m k heq
      have : (1 : U8) = 0 := by grind
      exact absurd this (by decide)
    exact hring _ _ _ hisb
  · intro ha
    exact ⟨slo_asWanted ha, rla_asWanted ha, sre_asWanted ha, rra_asWanted ha, dcp_asWanted ha,
      isb_asWanted ha⟩

/-- SLO on a PPU register, with an empty accumulator: the byte read there is 0xFF, and it is used
unshifted. -/
theorem slo_ppu_not_wanted :
    (sloFn (freshBus (constantRom 0)) 0x2002).cpu.accumulator = 0xFF ∧
      (freshBus (constantRom 0)).cpu.accumulator ||| 2 * readMem (freshBus (constantRom 0)) 0x2002 =
        0xFE ∧
      ¬ CombinedAsWanted (freshBus (constantRom 0)) 0x2002 := by
  refine ⟨by decide, by decide, fun h => ?_⟩
  exact absurd h.slo.1 (by decide)

end NesEmulator
