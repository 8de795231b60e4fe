import NesEmulator.Cartridge
import NesEmulator.Lib.Bits

/-!
The registers of the CPU, its status byte, and the bus it sits on.

The status byte is written in two ways: through the masks of `StatusFlags` and through
bit-fields. Both set one bit and leave the others alone.
-/

namespace NesEmulator

open Lib.Bits

structure CPU where
  programCounter : U16
  stackPointer : U8
  accumulator : U8
  x : U8
  y : U8
  cycles : Usize := 0
  status : U8

/-- The bus, with the CPU on it. The pointer from the CPU back to its bus is not a field: it
is the bus the CPU is part of, once `bus_reset` has set it. -/
structure Bus where
  cpu : CPU
  cartridge : Cartridge
  cpuRam : Fin 0x800 → U8

/-! ### Status -/

inductive StatusFlags
  | carryFlag
  | zeroFlag
  | interruptDisable
  | decimalModeFlag
  | breakCommand
  | unusedFlag
  | overflowFlag
  | negativeFlag
  deriving DecidableEq

namespace StatusFlags

/-- The place of a flag in the status byte. -/
def bit : StatusFlags → ℕ
  | carryFlag => 0
  | zeroFlag => 1
  | interruptDisable => 2
  | decimalModeFlag => 3
  | breakCommand => 4
  | unusedFlag => 5
  | overflowFlag => 6
  | negativeFlag => 7

def mask (flag : StatusFlags) : U8 := 1 <<< flag.bit

lemma bit_lt (flag : StatusFlags) : flag.bit < 8 := by cases flag <;> decide

lemma bit_injective {f g : StatusFlags} (h : f.bit = g.bit) : f = g := by
  cases f <;> cases g <;> first | rfl | cases h

lemma mask_eq_twoPow (flag : StatusFlags) : flag.mask = BitVec.twoPow 8 flag.bit := by
  cases flag <;> decide

end StatusFlags

namespace CPU

/-- A flag of the status byte, as the bit-field of that place reads it. -/
def flag (cpu : CPU) (f : StatusFlags) : Bool := cpu.status.getLsbD f.bit

/-- A store to the bit-field of a flag. -/
def putFlag (cpu : CPU) (f : StatusFlags) (v : Bool) : CPU :=
  { cpu with status := putBit cpu.status f.bit v }

/-- The carry bit-field as an integer. -/
def carry (cpu : CPU) : U8 := (BitVec.ofBool (cpu.flag .carryFlag)).setWidth 8

end CPU

def setFlag (cpu : CPU) (flag : StatusFlags) (v : Bool) : CPU :=
  if v then { cpu with status := cpu.status ||| flag.mask }
  else { cpu with status := cpu.status &&& ~~~flag.mask }

def updateZeroAndNegativeFlags (cpu : CPU) (value : U8) : CPU :=
  let cpu := cpu.putFlag .zeroFlag (value == 0)
  cpu.putFlag .negativeFlag (value &&& 0x80 != 0)

def tick (cpu : CPU) (cycles : ℕ) : CPU :=
  { cpu with cycles := cpu.cycles + BitVec.ofNat 64 cycles }

/-- Through a mask or through a bit-field, a flag is set in the same way. -/
lemma setFlag_eq_putFlag (cpu : CPU) (f : StatusFlags) (v : Bool) :
    setFlag cpu f v = cpu.putFlag f v := by
  cases v <;> simp [setFlag, CPU.putFlag, putBit, f.mask_eq_twoPow]

@[simp] lemma flag_putFlag (cpu : CPU) (f g : StatusFlags) (v : Bool) :
    (cpu.putFlag f v).flag g = if g = f then v else cpu.flag g := by
  have h : g.bit = f.bit ↔ g = f := ⟨StatusFlags.bit_injective, fun e => e ▸ rfl⟩
  simp only [CPU.flag, CPU.putFlag, getLsbD_putBit _ _ _ _ f.bit_lt, h]

@[simp] lemma flag_setFlag (cpu : CPU) (f g : StatusFlags) (v : Bool) :
    (setFlag cpu f v).flag g = if g = f then v else cpu.flag g := by
  rw [setFlag_eq_putFlag, flag_putFlag]

@[simp] lemma flag_updateZeroAndNegativeFlags (cpu : CPU) (value : U8) (g : StatusFlags) :
    (updateZeroAndNegativeFlags cpu value).flag g =
      if g = .negativeFlag then value &&& 0x80 != 0
      else if g = .zeroFlag then value == 0 else cpu.flag g := by
  simp only [updateZeroAndNegativeFlags, flag_putFlag]

@[simp] lemma flag_tick (cpu : CPU) (cycles : ℕ) (f : StatusFlags) :
    (tick cpu cycles).flag f = cpu.flag f := rfl

/-! ### The registers beside the status -/

section Registers

variable (cpu : CPU) (f : StatusFlags) (v : Bool) (value : U8)

@[simp] lemma setFlag_programCounter : (setFlag cpu f v).programCounter = cpu.programCounter := by
  rw [setFlag_eq_putFlag]
  rfl

@[simp] lemma setFlag_stackPointer : (setFlag cpu f v).stackPointer = cpu.stackPointer := by
  rw [setFlag_eq_putFlag]
  rfl

@[simp] lemma setFlag_cycles : (setFlag cpu f v).cycles = cpu.cycles := by
  rw [setFlag_eq_putFlag]
  rfl

@[simp] lemma updateZeroAndNegativeFlags_programCounter :
    (updateZeroAndNegativeFlags cpu value).programCounter = cpu.programCounter := rfl

@[simp] lemma updateZeroAndNegativeFlags_cycles :
    (updateZeroAndNegativeFlags cpu value).cycles = cpu.cycles := rfl

@[simp] lemma putFlag_programCounter : (cpu.putFlag f v).programCounter = cpu.programCounter := rfl

@[simp] lemma putFlag_cycles : (cpu.putFlag f v).cycles = cpu.cycles := rfl

/-- The registers of a byte, without the status. -/
inductive Register
  | accumulator
  | x
  | y
  | stackPointer
  deriving DecidableEq

def CPU.register : Register → U8
  | .accumulator => cpu.accumulator
  | .x => cpu.x
  | .y => cpu.y
  | .stackPointer => cpu.stackPointer

variable (r : Register)

@[simp] lemma putFlag_register : (cpu.putFlag f v).register r = cpu.register r := by
  cases r <;> rfl

@[simp] lemma setFlag_register : (setFlag cpu f v).register r = cpu.register r := by
  rw [setFlag_eq_putFlag, putFlag_register]

@[simp] lemma updateZeroAndNegativeFlags_register :
    (updateZeroAndNegativeFlags cpu value).register r = cpu.register r := by
  cases r <;> rfl

@[simp] lemma tick_register (cycles : ℕ) : (tick cpu cycles).register r = cpu.register r := by
  cases r <;> rfl

end Registers

/-- Two status bytes with the same flags are the same. -/
lemma status_ext {c d : CPU} (h : ∀ f, c.flag f = d.flag f) : c.status = d.status := by
  apply BitVec.eq_of_getLsbD_eq
  intro i hi
  obtain ⟨f, rfl⟩ : ∃ f : StatusFlags, f.bit = i := by
    match i, hi with
    | 0, _ => exact ⟨.carryFlag, rfl⟩
    | 1, _ => exact ⟨.zeroFlag, rfl⟩
    | 2, _ => exact ⟨.interruptDisable, rfl⟩
    | 3, _ => exact ⟨.decimalModeFlag, rfl⟩
    | 4, _ => exact ⟨.breakCommand, rfl⟩
    | 5, _ => exact ⟨.unusedFlag, rfl⟩
    | 6, _ => exact ⟨.overflowFlag, rfl⟩
    | 7, _ => exact ⟨.negativeFlag, rfl⟩
  exact h f

end NesEmulator
