import NesEmulator.Stack

/-!
The functions behind the instructions.

Each takes the bus and the operand address, and returns the bus. Instructions that do the
same thing to different registers or with different operands share one body.
-/

namespace NesEmulator

open Lib.Bits

/-- An action on the CPU alone. -/
def Bus.onCpu (bus : Bus) (f : CPU → CPU) : Bus := { bus with cpu := f bus.cpu }

@[simp] lemma onCpu_cpu (bus : Bus) (f : CPU → CPU) : (bus.onCpu f).cpu = f bus.cpu := rfl
@[simp] lemma onCpu_cartridge (bus : Bus) (f : CPU → CPU) :
    (bus.onCpu f).cartridge = bus.cartridge := rfl
@[simp] lemma onCpu_cpuRam (bus : Bus) (f : CPU → CPU) : (bus.onCpu f).cpuRam = bus.cpuRam := rfl

def readMemU16 (bus : Bus) (addr : U16) : U16 :=
  let lo := (readMem bus addr).setWidth 16 &&& 0x00FF
  let hi := (readMem bus (addr + 1)).setWidth 16 &&& 0x00FF
  (hi <<< 8) ||| lo

/-! ### Shared bodies -/

def putAccumulator (bus : Bus) (value : U8) : Bus :=
  bus.onCpu fun cpu => updateZeroAndNegativeFlags { cpu with accumulator := value } value

def putX (bus : Bus) (value : U8) : Bus :=
  bus.onCpu fun cpu => updateZeroAndNegativeFlags { cpu with x := value } value

def putY (bus : Bus) (value : U8) : Bus :=
  bus.onCpu fun cpu => updateZeroAndNegativeFlags { cpu with y := value } value

def putFlagFn (flag : StatusFlags) (v : Bool) (bus : Bus) (_ : U16) : Bus :=
  bus.onCpu fun cpu => setFlag cpu flag v

/-- `A + M + C`, in 16 bits; `sbc_fn` differs from `adc_fn` in the `M` it adds only. -/
def addWithCarry (bus : Bus) (M : U16) : Bus :=
  bus.onCpu fun cpu =>
    let A := cpu.accumulator.setWidth 16
    let C := cpu.carry.setWidth 16
    let R := M + A + C
    let cpu := { cpu with accumulator := (R &&& 0x00FF).setWidth 8 }
    let cpu := setFlag cpu .carryFlag (R &&& 0xFF00 != 0)
    let cpu := updateZeroAndNegativeFlags cpu cpu.accumulator
    let M := M &&& 0x80
    let A := A &&& 0x80
    let R := R &&& 0x80
    setFlag cpu .overflowFlag (~~~(A ^^^ M) &&& (M ^^^ R) != 0)

def compare (bus : Bus) (register memory : U8) : Bus :=
  bus.onCpu fun cpu =>
    let cpu := setFlag cpu .carryFlag (register ≥ memory)
    updateZeroAndNegativeFlags cpu (register - memory)

/-- The end of a shift or rotate in memory: carry, store, flags. -/
def putShifted (bus : Bus) (operandAddress : U16) (value : U8) (carry : Bool) : Bus :=
  let bus := bus.onCpu fun cpu => setFlag cpu .carryFlag carry
  let bus := writeMem bus operandAddress value
  bus.onCpu fun cpu => updateZeroAndNegativeFlags cpu value

/-- The end of a shift or rotate of the accumulator. -/
def putShiftedAcc (bus : Bus) (value : U8) (carry : Bool) : Bus :=
  bus.onCpu fun cpu =>
    let cpu := setFlag cpu .carryFlag carry
    updateZeroAndNegativeFlags { cpu with accumulator := value } value

def branch (bus : Bus) (relativeAddress : U16) : Bus :=
  bus.onCpu fun cpu =>
    let cpu := tick cpu 1
    let newPc := cpu.programCounter + relativeAddress
    let cpu := if (cpu.programCounter + 1) &&& 0xFF00 != newPc &&& 0xFF00 then tick cpu 1 else cpu
    { cpu with programCounter := newPc }

def branchIf (condition : Bool) (bus : Bus) (relativeAddress : U16) : Bus :=
  if condition then branch bus relativeAddress else bus

/-- A pulled status byte never carries the break bit, and always the unused one. -/
def putPulledStatus (cpu : CPU) (value : U8) : CPU :=
  let cpu := { cpu with status := value }
  let cpu := cpu.putFlag .breakCommand false
  cpu.putFlag .unusedFlag true

/-- The body of the instructions that do nothing. -/
def noEffect (bus : Bus) (_ : U16) : Bus := bus

/-! ### Official instructions -/

def adcFn (bus : Bus) (operandAddress : U16) : Bus :=
  addWithCarry bus ((readMem bus operandAddress).setWidth 16)

def andFn (bus : Bus) (operandAddress : U16) : Bus :=
  putAccumulator bus (bus.cpu.accumulator &&& readMem bus operandAddress)

def aslFn (bus : Bus) (operandAddress : U16) : Bus :=
  let value := readMem bus operandAddress
  putShifted bus operandAddress (value <<< 1) (value &&& 0x80 != 0)

def aslAccFn (bus : Bus) (_ : U16) : Bus :=
  let value := bus.cpu.accumulator
  putShiftedAcc bus (value <<< 1) (value &&& 0x80 != 0)

def bccFn (bus : Bus) : U16 → Bus := branchIf (!bus.cpu.flag .carryFlag) bus
def bcsFn (bus : Bus) : U16 → Bus := branchIf (bus.cpu.flag .carryFlag) bus
def beqFn (bus : Bus) : U16 → Bus := branchIf (bus.cpu.flag .zeroFlag) bus

def bitFn (bus : Bus) (operandAddress : U16) : Bus :=
  let memory := readMem bus operandAddress
  bus.onCpu fun cpu =>
    let cpu := setFlag cpu .zeroFlag (cpu.accumulator &&& memory == 0)
    let cpu := setFlag cpu .overflowFlag (memory &&& (1 <<< 6) != 0)
    setFlag cpu .negativeFlag (memory &&& (1 <<< 7) != 0)

def bmiFn (bus : Bus) : U16 → Bus := branchIf (bus.cpu.flag .negativeFlag) bus
def bneFn (bus : Bus) : U16 → Bus := branchIf (!bus.cpu.flag .zeroFlag) bus
def bplFn (bus : Bus) : U16 → Bus := branchIf (!bus.cpu.flag .negativeFlag) bus

def brkFn (bus : Bus) (_ : U16) : Bus :=
  let bus := pushStackU16 bus (bus.cpu.programCounter + 1)
  let bus := bus.onCpu fun cpu => setFlag cpu .breakCommand true
  let bus := pushStack bus bus.cpu.status
  let vector := readMemU16 bus 0xFFFE
  bus.onCpu fun cpu => { cpu with programCounter := vector }

def bvcFn (bus : Bus) : U16 → Bus := branchIf (!bus.cpu.flag .overflowFlag) bus
def bvsFn (bus : Bus) : U16 → Bus := branchIf (bus.cpu.flag .overflowFlag) bus

def clcFn : Bus → U16 → Bus := putFlagFn .carryFlag false
def cldFn : Bus → U16 → Bus := putFlagFn .decimalModeFlag false
def cliFn : Bus → U16 → Bus := putFlagFn .interruptDisable false
def clvFn : Bus → U16 → Bus := putFlagFn .overflowFlag false

def cmpFn (bus : Bus) (operandAddress : U16) : Bus :=
  compare bus bus.cpu.accumulator (readMem bus operandAddress)
def cpxFn (bus : Bus) (operandAddress : U16) : Bus :=
  compare bus bus.cpu.x (readMem bus operandAddress)
def cpyFn (bus : Bus) (operandAddress : U16) : Bus :=
  compare bus bus.cpu.y (readMem bus operandAddress)

-- the flags first and the store second; `inc_fn` has it the other way round
def decFn (bus : Bus) (operandAddress : U16) : Bus :=
  let result := readMem bus operandAddress - 1
  let bus := bus.onCpu fun cpu => updateZeroAndNegativeFlags cpu result
  writeMem bus operandAddress result

def dexFn (bus : Bus) (_ : U16) : Bus := putX bus (bus.cpu.x - 1)
def deyFn (bus : Bus) (_ : U16) : Bus := putY bus (bus.cpu.y - 1)

def eorFn (bus : Bus) (operandAddress : U16) : Bus :=
  putAccumulator bus (bus.cpu.accumulator ^^^ readMem bus operandAddress)

def incFn (bus : Bus) (operandAddress : U16) : Bus :=
  let result := readMem bus operandAddress + 1
  let bus := writeMem bus operandAddress result
  bus.onCpu fun cpu => updateZeroAndNegativeFlags cpu result

def inxFn (bus : Bus) (_ : U16) : Bus := putX bus (bus.cpu.x + 1)
def inyFn (bus : Bus) (_ : U16) : Bus := putY bus (bus.cpu.y + 1)

def jmpFn (bus : Bus) (operandAddress : U16) : Bus :=
  bus.onCpu fun cpu => { cpu with programCounter := operandAddress }

def jsrFn (bus : Bus) (operandAddress : U16) : Bus :=
  let bus := pushStackU16 bus (bus.cpu.programCounter - 1)
  bus.onCpu fun cpu => { cpu with programCounter := operandAddress }

def ldaFn (bus : Bus) (operandAddress : U16) : Bus :=
  putAccumulator bus (readMem bus operandAddress)
def ldxFn (bus : Bus) (operandAddress : U16) : Bus := putX bus (readMem bus operandAddress)
def ldyFn (bus : Bus) (operandAddress : U16) : Bus := putY bus (readMem bus operandAddress)

def lsrFn (bus : Bus) (operandAddress : U16) : Bus :=
  let value := readMem bus operandAddress
  putShifted bus operandAddress (value >>> 1) (value &&& 0x01 != 0)

def lsrAccFn (bus : Bus) (_ : U16) : Bus :=
  let value := bus.cpu.accumulator
  putShiftedAcc bus (value >>> 1) (value &&& 0x01 != 0)

def nopFn : Bus → U16 → Bus := noEffect

def oraFn (bus : Bus) (operandAddress : U16) : Bus :=
  putAccumulator bus (bus.cpu.accumulator ||| readMem bus operandAddress)

def phaFn (bus : Bus) (_ : U16) : Bus := pushStack bus bus.cpu.accumulator

def phpFn (bus : Bus) (_ : U16) : Bus :=
  pushStack bus
    (bus.cpu.status ||| StatusFlags.unusedFlag.mask ||| StatusFlags.breakCommand.mask)

def plaFn (bus : Bus) (_ : U16) : Bus :=
  let (value, bus) := popStack bus
  putAccumulator bus value

def plpFn (bus : Bus) (_ : U16) : Bus :=
  let (value, bus) := popStack bus
  bus.onCpu fun cpu => putPulledStatus cpu value

def rolFn (bus : Bus) (operandAddress : U16) : Bus :=
  let value := readMem bus operandAddress
  putShifted bus operandAddress ((value <<< 1) ||| bus.cpu.carry) (value &&& 0x80 != 0)

def rolAccFn (bus : Bus) (_ : U16) : Bus :=
  let value := bus.cpu.accumulator
  putShiftedAcc bus ((value <<< 1) ||| bus.cpu.carry) (value &&& 0x80 != 0)

def rorFn (bus : Bus) (operandAddress : U16) : Bus :=
  let value := readMem bus operandAddress
  putShifted bus operandAddress ((value >>> 1) ||| (bus.cpu.carry <<< 7)) (value &&& 0x01 != 0)

def rorAccFn (bus : Bus) (_ : U16) : Bus :=
  let value := bus.cpu.accumulator
  putShiftedAcc bus ((value >>> 1) ||| (bus.cpu.carry <<< 7)) (value &&& 0x01 != 0)

def rtiFn (bus : Bus) (_ : U16) : Bus :=
  let (value, bus) := popStack bus
  let bus := bus.onCpu fun cpu => putPulledStatus cpu value
  let (pc, bus) := popStackU16 bus
  bus.onCpu fun cpu => { cpu with programCounter := pc }

def rtsFn (bus : Bus) (_ : U16) : Bus :=
  let (pc, bus) := popStackU16 bus
  bus.onCpu fun cpu => { cpu with programCounter := pc + 1 }

def sbcFn (bus : Bus) (operandAddress : U16) : Bus :=
  addWithCarry bus (~~~((readMem bus operandAddress).setWidth 16) &&& 0x00FF)

def secFn : Bus → U16 → Bus := putFlagFn .carryFlag true
def sedFn : Bus → U16 → Bus := putFlagFn .decimalModeFlag true
def seiFn : Bus → U16 → Bus := putFlagFn .interruptDisable true

def staFn (bus : Bus) (operandAddress : U16) : Bus :=
  writeMem bus operandAddress bus.cpu.accumulator
def stxFn (bus : Bus) (operandAddress : U16) : Bus := writeMem bus operandAddress bus.cpu.x
def styFn (bus : Bus) (operandAddress : U16) : Bus := writeMem bus operandAddress bus.cpu.y

def taxFn (bus : Bus) (_ : U16) : Bus := putX bus bus.cpu.accumulator
def tayFn (bus : Bus) (_ : U16) : Bus := putY bus bus.cpu.accumulator
def tsxFn (bus : Bus) (_ : U16) : Bus := putX bus bus.cpu.stackPointer
def txaFn (bus : Bus) (_ : U16) : Bus := putAccumulator bus bus.cpu.x
def txsFn (bus : Bus) (_ : U16) : Bus :=
  bus.onCpu fun cpu => { cpu with stackPointer := cpu.x }
def tyaFn (bus : Bus) (_ : U16) : Bus := putAccumulator bus bus.cpu.y

/-! ### Unofficial instructions -/

def jamFn : Bus → U16 → Bus := noEffect

def sloFn (bus : Bus) (operandAddress : U16) : Bus :=
  let bus := aslFn bus operandAddress
  oraFn bus operandAddress

def ancFn : Bus → U16 → Bus := noEffect

def rlaFn (bus : Bus) (operandAddress : U16) : Bus :=
  let bus := rolFn bus operandAddress
  andFn bus operandAddress

def sreFn (bus : Bus) (operandAddress : U16) : Bus :=
  let bus := lsrFn bus operandAddress
  eorFn bus operandAddress

def alrFn : Bus → U16 → Bus := noEffect

def rraFn (bus : Bus) (operandAddress : U16) : Bus :=
  let bus := rorFn bus operandAddress
  adcFn bus operandAddress

def arrFn : Bus → U16 → Bus := noEffect

def saxFn (bus : Bus) (operandAddress : U16) : Bus :=
  let result := bus.cpu.accumulator &&& bus.cpu.x
  writeMem bus operandAddress result

def aneFn : Bus → U16 → Bus := noEffect
def shaFn : Bus → U16 → Bus := noEffect
def tasFn : Bus → U16 → Bus := noEffect
def shyFn : Bus → U16 → Bus := noEffect
def shxFn : Bus → U16 → Bus := noEffect

def laxFn (bus : Bus) (operandAddress : U16) : Bus :=
  let bus := ldaFn bus operandAddress
  ldxFn bus operandAddress

def lxaFn : Bus → U16 → Bus := noEffect
def lasFn : Bus → U16 → Bus := noEffect

def dcpFn (bus : Bus) (operandAddress : U16) : Bus :=
  let bus := decFn bus operandAddress
  cmpFn bus operandAddress

def sbxFn : Bus → U16 → Bus := noEffect

def isbFn (bus : Bus) (operandAddress : U16) : Bus :=
  let bus := incFn bus operandAddress
  sbcFn bus operandAddress

end NesEmulator
