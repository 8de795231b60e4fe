import NesEmulator.Frames
import NesEmulator.Lib.Shifts

/-!
What the arithmetic instructions compute.

The sums are taken in 16 bits and then cut into a byte and flags. Here they are said in the
terms of the byte that is kept: its carry, its sign, and the sign rule for the overflow.
-/

namespace NesEmulator

open Lib.Bits Lib.LittleEndian

lemma and_0x80_bne (v : U8) : (v &&& 0x80#8 != 0#8) = v.msb := by
  revert v
  decide

lemma and_0x80_bne_getLsbD (v : U8) : (v &&& 0x80#8 != 0#8) = v.getLsbD 7 := by
  rw [and_0x80_bne, BitVec.msb_eq_getLsbD_last]

lemma and_0x01_bne (v : U8) : (v &&& 0x01#8 != 0#8) = v.getLsbD 0 := by
  revert v
  decide

lemma carry_toNat (cpu : CPU) : cpu.carry.toNat = (cpu.flag .carryFlag).toNat :=
  toNat_bit (by decide) _

/-! ### Addition and subtraction -/

/-- The byte that `adc_fn` keeps of its sum. -/
def sumByte (cpu : CPU) (m : U8) : U8 := cpu.accumulator + m + cpu.carry

section Sum

variable (a m c : U8)

/-- The sum in 16 bits. -/
def wideSum : U16 := m.setWidth 16 + a.setWidth 16 + c.setWidth 16

lemma toNat_wideSum : (wideSum a m c).toNat = a.toNat + m.toNat + c.toNat := by
  have ha := a.isLt
  have hm := m.isLt
  have hc := c.isLt
  rw [wideSum, BitVec.toNat_add, BitVec.toNat_add, BitVec.toNat_setWidth, BitVec.toNat_setWidth,
    BitVec.toNat_setWidth]
  omega

lemma lowByte_wideSum : lowByte (wideSum a m c) = a + m + c := by
  apply BitVec.eq_of_toNat_eq
  rw [toNat_lowByte, toNat_wideSum, BitVec.toNat_add, BitVec.toNat_add, Nat.mod_add_mod]

lemma wideSum_carries : (wideSum a m c &&& 0xFF00 != 0) =
    decide (256 ≤ a.toNat + m.toNat + c.toNat) := by
  have hmask := toNat_and_pageMask (wideSum a m c)
  rw [page, toNat_wideSum] at hmask
  rw [Bool.eq_iff_iff, bne_iff_ne, decide_eq_true_iff, ne_eq, ← BitVec.toNat_inj, hmask]
  change ¬ _ = 0 ↔ _
  omega

/-- The bit at which the source looks for the sign. -/
lemma and_0x80 (v : U16) : v &&& 0x80 = if (lowByte v).msb then 0x80 else 0 := by
  have hmsb : (lowByte v).msb = v.getLsbD 7 := by
    simp [lowByte, BitVec.msb_eq_getLsbD_last]
  rw [hmsb]
  exact BitVec.and_twoPow v 7

lemma signs_overflow (u v r : U16) :
    (~~~((u &&& 0x80) ^^^ (v &&& 0x80)) &&& ((v &&& 0x80) ^^^ (r &&& 0x80)) != 0) =
      overflows (lowByte u).msb (lowByte v).msb (lowByte r).msb := by
  rw [and_0x80, and_0x80, and_0x80]
  cases (lowByte u).msb <;> cases (lowByte v).msb <;> cases (lowByte r).msb <;> decide

lemma lowByte_setWidth (v : U8) : lowByte (v.setWidth 16) = v := by
  apply BitVec.eq_of_toNat_eq
  have := v.isLt
  rw [toNat_lowByte, BitVec.toNat_setWidth]
  omega

end Sum

/-- **Addition.** What `adc_fn` and `sbc_fn` do, for the byte that is added. -/
theorem addWithCarry_eq (bus : Bus) (m : U8) : addWithCarry bus (m.setWidth 16) =
    bus.onCpu fun cpu =>
      setFlag
        (updateZeroAndNegativeFlags
          (setFlag { cpu with accumulator := sumByte cpu m } .carryFlag
            (BitVec.carry 8 cpu.accumulator m (cpu.flag .carryFlag)))
          (sumByte cpu m))
        .overflowFlag (overflows cpu.accumulator.msb m.msb (sumByte cpu m).msb) := by
  have hlow := lowByte_wideSum bus.cpu.accumulator m bus.cpu.carry
  have hcarry := wideSum_carries bus.cpu.accumulator m bus.cpu.carry
  have hsigns := signs_overflow (bus.cpu.accumulator.setWidth 16) (m.setWidth 16)
    (wideSum bus.cpu.accumulator m bus.cpu.carry)
  rw [lowByte_setWidth, lowByte_setWidth, hlow] at hsigns
  rw [lowByte, wideSum] at hlow
  rw [wideSum] at hcarry hsigns
  unfold addWithCarry Bus.onCpu
  dsimp only
  rw [hcarry, hsigns, hlow, BitVec.carry_width, ← carry_toNat]
  simp only [setFlag_eq_putFlag, CPU.putFlag, sumByte]

section AddWithCarry

variable (bus : Bus) (m : U8)

@[simp] lemma addWithCarry_accumulator :
    (addWithCarry bus (m.setWidth 16)).cpu.accumulator = sumByte bus.cpu m := by
  rw [addWithCarry_eq]
  simp only [onCpu_cpu, setFlag_eq_putFlag, CPU.putFlag, updateZeroAndNegativeFlags]

@[simp] lemma addWithCarry_carry : (addWithCarry bus (m.setWidth 16)).cpu.flag .carryFlag =
    BitVec.carry 8 bus.cpu.accumulator m (bus.cpu.flag .carryFlag) := by
  rw [addWithCarry_eq]
  simp

@[simp] lemma addWithCarry_zero : (addWithCarry bus (m.setWidth 16)).cpu.flag .zeroFlag =
    (sumByte bus.cpu m == 0) := by
  rw [addWithCarry_eq]
  simp

@[simp] lemma addWithCarry_negative :
    (addWithCarry bus (m.setWidth 16)).cpu.flag .negativeFlag = (sumByte bus.cpu m).msb := by
  rw [addWithCarry_eq]
  simp [and_0x80_bne]

@[simp] lemma addWithCarry_overflow :
    (addWithCarry bus (m.setWidth 16)).cpu.flag .overflowFlag =
      overflows bus.cpu.accumulator.msb m.msb (sumByte bus.cpu m).msb := by
  rw [addWithCarry_eq]
  simp

end AddWithCarry

/-- Subtraction adds the complement. -/
lemma sbcFn_eq (bus : Bus) (a : U16) :
    sbcFn bus a = addWithCarry bus ((~~~(readMem bus a)).setWidth 16) := by
  have hnot : ∀ m : U8, ~~~(m.setWidth 16 : U16) &&& 0x00FF = (~~~m).setWidth 16 := by decide
  rw [sbcFn, hnot]

/-- A comparison is the carry of a subtraction. -/
lemma ge_eq_carry (x y : U8) : decide (x ≥ y) = BitVec.carry 8 x (~~~y) true := by
  have hx := x.isLt
  have hy := y.isLt
  rw [BitVec.carry_width, BitVec.toNat_not, Bool.toNat_true]
  exact decide_eq_decide.mpr (by rw [ge_iff_le, BitVec.le_def]; omega)

section Compare

variable (bus : Bus) (r m : U8)

@[simp] lemma compare_carry :
    (compare bus r m).cpu.flag .carryFlag = BitVec.carry 8 r (~~~m) true := by
  simp [compare, ← ge_eq_carry]

@[simp] lemma compare_zero : (compare bus r m).cpu.flag .zeroFlag = (r - m == 0) := by
  simp [compare]

@[simp] lemma compare_negative : (compare bus r m).cpu.flag .negativeFlag = (r - m).msb := by
  simp [compare, and_0x80_bne]

end Compare

/-! ### Loads, and shifts in memory and in the accumulator -/

section Flags

variable (bus : Bus) (a : U16) (v : U8) (c : Bool)

lemma updated_flag (cpu : CPU) (f : StatusFlags) : (updateZeroAndNegativeFlags cpu v).flag f =
    if f = .negativeFlag then v.msb else if f = .zeroFlag then v == 0 else cpu.flag f := by
  rw [← and_0x80_bne]
  exact flag_updateZeroAndNegativeFlags ..

@[simp] lemma putAccumulator_flag (f : StatusFlags) : (putAccumulator bus v).cpu.flag f =
    if f = .negativeFlag then v.msb else if f = .zeroFlag then v == 0 else bus.cpu.flag f :=
  updated_flag v _ f

@[simp] lemma putX_flag (f : StatusFlags) : (putX bus v).cpu.flag f =
    if f = .negativeFlag then v.msb else if f = .zeroFlag then v == 0 else bus.cpu.flag f :=
  updated_flag v _ f

@[simp] lemma putY_flag (f : StatusFlags) : (putY bus v).cpu.flag f =
    if f = .negativeFlag then v.msb else if f = .zeroFlag then v == 0 else bus.cpu.flag f :=
  updated_flag v _ f

@[simp] lemma putShifted_flag (f : StatusFlags) : (putShifted bus a v c).cpu.flag f =
    if f = .negativeFlag then v.msb else if f = .zeroFlag then v == 0
    else if f = .carryFlag then c else bus.cpu.flag f := by
  simp [putShifted, and_0x80_bne]

@[simp] lemma putShifted_cpuRam : (putShifted bus a v c).cpuRam = (writeMem bus a v).cpuRam := by
  ext k
  simp [putShifted, writeMem_cpuRam]

@[simp] lemma putShiftedAcc_flag (f : StatusFlags) : (putShiftedAcc bus v c).cpu.flag f =
    if f = .negativeFlag then v.msb else if f = .zeroFlag then v == 0
    else if f = .carryFlag then c else bus.cpu.flag f := by
  rw [← and_0x80_bne]
  simp [putShiftedAcc]

@[simp] lemma putShiftedAcc_accumulator : (putShiftedAcc bus v c).cpu.accumulator = v := rfl

end Flags

end NesEmulator
