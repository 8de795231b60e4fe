import NesEmulator.Bus

/-!
The hardware stack: page one of RAM, with an 8-bit pointer to the next free byte.
-/

namespace NesEmulator

open Lib.Bits

abbrev stackStart : U16 := 0x0100

def popStack (bus : Bus) : U8 × Bus :=
  let bus := { bus with cpu := { bus.cpu with stackPointer := bus.cpu.stackPointer + 1 } }
  (readMem bus (stackStart + bus.cpu.stackPointer.setWidth 16), bus)

def pushStack (bus : Bus) (value : U8) : Bus :=
  let bus := writeMem bus (stackStart + bus.cpu.stackPointer.setWidth 16) value
  { bus with cpu := { bus.cpu with stackPointer := bus.cpu.stackPointer - 1 } }

/-- The two pops of `pop_stack(cpu) | (pop_stack(cpu) << 8)`, the left one first. -/
def popStackU16 (bus : Bus) : U16 × Bus :=
  let (lo, bus) := popStack bus
  let (hi, bus) := popStack bus
  (lo.setWidth 16 ||| (hi.setWidth 16 <<< 8), bus)

def pushStackU16 (bus : Bus) (value : U16) : Bus :=
  let bus := pushStack bus (highByte value)
  pushStack bus (lowByte value)

/-! ### Page one -/

/-- The RAM cell that a stack pointer names. -/
def stackCell (s : U8) : Fin 0x800 := ⟨0x100 + s.toNat, by have := s.isLt; omega⟩

@[simp] lemma stackCell_val (s : U8) : (stackCell s : ℕ) = 0x100 + s.toNat := rfl

lemma stackCell_injective {s t : U8} (h : stackCell s = stackCell t) : s = t := by
  have hval : 0x100 + s.toNat = 0x100 + t.toNat := congrArg Fin.val h
  exact BitVec.eq_of_toNat_eq (by omega)

@[simp] lemma stackCell_eq_iff {s t : U8} : stackCell s = stackCell t ↔ s = t :=
  ⟨stackCell_injective, fun h => h ▸ rfl⟩

lemma toNat_stackAddr (s : U8) : (stackStart + s.setWidth 16).toNat = 0x100 + s.toNat := by
  have := s.isLt
  rw [BitVec.toNat_add, BitVec.toNat_setWidth]
  change (0x100 + s.toNat % 2 ^ 16) % 2 ^ 16 = _
  omega

lemma ramCell_stackAddr (s : U8) : ramCell (stackStart + s.setWidth 16) = stackCell s := by
  have := s.isLt
  rw [Fin.ext_iff, ramCell_val, toNat_stackAddr, stackCell_val]
  omega

lemma popStack_eq (bus : Bus) :
    popStack bus = (bus.cpuRam (stackCell (bus.cpu.stackPointer + 1)),
      { bus with cpu := { bus.cpu with stackPointer := bus.cpu.stackPointer + 1 } }) := by
  have hlt := (bus.cpu.stackPointer + 1).isLt
  unfold popStack
  dsimp only
  rw [readMem_of_le (by rw [toNat_stackAddr]; omega), ramCell_stackAddr]

lemma pushStack_eq (bus : Bus) (value : U8) :
    pushStack bus value =
      { bus with
        cpuRam := Function.update bus.cpuRam (stackCell bus.cpu.stackPointer) value
        cpu := { bus.cpu with stackPointer := bus.cpu.stackPointer - 1 } } := by
  have hlt := bus.cpu.stackPointer.isLt
  unfold pushStack
  rw [writeMem_of_lt value (by rw [toNat_stackAddr]; omega), ramCell_stackAddr]

/-- The first byte that comes off the stack is the low one. -/
lemma popStackU16_fst (bus : Bus) :
    (popStackU16 bus).1 = (popStack (popStack bus).2).1 ++ (popStack bus).1 := by
  change (popStack bus).1.setWidth 16 ||| ((popStack (popStack bus).2).1.setWidth 16 <<< 8) = _
  rw [BitVec.or_comm, shiftLeft_or_eq_append]

@[simp] lemma popStack_stackPointer (bus : Bus) :
    (popStack bus).2.cpu.stackPointer = bus.cpu.stackPointer + 1 := rfl

@[simp] lemma pushStack_stackPointer (bus : Bus) (value : U8) :
    (pushStack bus value).cpu.stackPointer = bus.cpu.stackPointer - 1 := by
  rw [pushStack_eq]

@[simp] lemma popStackU16_stackPointer (bus : Bus) :
    (popStackU16 bus).2.cpu.stackPointer = bus.cpu.stackPointer + 2 := by
  change bus.cpu.stackPointer + 1 + 1 = _
  rw [BitVec.add_assoc]
  rfl

@[simp] lemma pushStackU16_stackPointer (bus : Bus) (value : U16) :
    (pushStackU16 bus value).cpu.stackPointer = bus.cpu.stackPointer - 2 := by
  unfold pushStackU16
  rw [pushStack_stackPointer, pushStack_stackPointer, BitVec.sub_sub]
  rfl

end NesEmulator
