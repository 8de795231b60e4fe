import NesEmulator.Opcode
import NesEmulator.Lib.Runs

/-!
Reset, operand addresses and the fetch-decode-execute loop.

`run_cpu` loops until it has executed a BRK. One turn of its loop is `runCpuIteration`;
nothing the loop keeps outlives the turn, so a later call of `run_cpu` goes on with the next
iteration.
-/

namespace NesEmulator

open Lib.Runs

def cpuReset (bus : Bus) : Bus :=
  let bus := bus.onCpu fun cpu =>
    { cpu with
      accumulator := 0
      x := 0
      y := 0
      status := StatusFlags.unusedFlag.mask ||| StatusFlags.interruptDisable.mask
      stackPointer := 0xFD }
  let lo := (readMem bus 0xFFFC).setWidth 16
  let hi := (readMem bus (0xFFFC + 1)).setWidth 16
  let bus := bus.onCpu fun cpu => { cpu with programCounter := (hi <<< 8) ||| lo }
  bus.onCpu fun cpu => tick cpu 7

def busReset (bus : Bus) : Bus := cpuReset bus

/-- Step over the operand bytes of an instruction. -/
def Bus.skip (bus : Bus) (n : U16) : Bus :=
  bus.onCpu fun cpu => { cpu with programCounter := cpu.programCounter + n }

@[simp] lemma skip_cartridge (bus : Bus) (n : U16) : (bus.skip n).cartridge = bus.cartridge := rfl
@[simp] lemma skip_cpuRam (bus : Bus) (n : U16) : (bus.skip n).cpuRam = bus.cpuRam := rfl
@[simp] lemma skip_programCounter (bus : Bus) (n : U16) :
    (bus.skip n).cpu.programCounter = bus.cpu.programCounter + n := rfl

@[simp] lemma readMem_skip (bus : Bus) (n addr : U16) :
    readMem (bus.skip n) addr = readMem bus addr := readMem_congr rfl rfl addr

lemma skip_skip (bus : Bus) (m n : U16) : (bus.skip m).skip n = bus.skip (m + n) := by
  simp only [Bus.skip, Bus.onCpu, BitVec.add_assoc]

/-- What the source returns (1 if a page was crossed), the address it hands out, and the bus
with the program counter moved on. The address is 0 where the mode hands out none. -/
def getOperandAddress (bus : Bus) (opcode : OpCode) : ℕ × U16 × Bus :=
  match opcode.addressingMode with
  | .accumulator | .implied => (0, 0, bus)
  | .absolute => (0, opcode.word, bus.skip 2)
  | .absoluteX =>
    let outAddress := opcode.word + bus.cpu.x.setWidth 16
    let oldHi := opcode.word &&& 0xFF00
    let newHi := outAddress &&& 0xFF00
    (if oldHi = newHi then 0 else 1, outAddress, bus.skip 2)
  | .absoluteY =>
    let outAddress := opcode.word + bus.cpu.y.setWidth 16
    let oldHi := opcode.word &&& 0xFF00
    let newHi := outAddress &&& 0xFF00
    (if oldHi = newHi then 0 else 1, outAddress, bus.skip 2)
  | .immediate => (0, bus.cpu.programCounter, bus.skip 1)
  | .indirect =>
    if opcode.byte = 0xFF then
      let lo := (readMem bus opcode.word).setWidth 16
      let hi := (readMem bus (opcode.word &&& 0xFF00)).setWidth 16
      (0, (hi <<< 8) ||| lo, bus.skip 2)
    else
      let lo := (readMem bus opcode.word).setWidth 16
      let hi := (readMem bus (opcode.word + 1)).setWidth 16
      (0, (hi <<< 8) ||| lo, bus.skip 2)
  | .indirectX =>
    let base := opcode.byte.setWidth 16
    let ptr := (base + bus.cpu.x.setWidth 16) &&& 0x00FF
    let loByte := (readMem bus ptr).setWidth 16
    let hiByte := (readMem bus ((ptr + 1) &&& 0x00FF)).setWidth 16
    (0, (hiByte <<< 8) ||| loByte, bus.skip 1)
  | .indirectY =>
    let base := opcode.byte.setWidth 16
    let loByte := (readMem bus base).setWidth 16
    let hiByte := (readMem bus ((base + 1) &&& 0x00FF)).setWidth 16
    let outAddress := ((hiByte <<< 8) ||| loByte) + bus.cpu.y.setWidth 16
    let oldHi := hiByte <<< 8
    let newHi := outAddress &&& 0xFF00
    (if oldHi = newHi then 0 else 1, outAddress, bus.skip 1)
  | .relative =>
    let relativeAddress := opcode.byte.setWidth 16
    let relativeAddress :=
      if relativeAddress &&& 0x80 != 0 then relativeAddress ||| 0xFF00 else relativeAddress
    (0, relativeAddress, bus.skip 1)
  | .zeroPage => (0, opcode.byte.setWidth 16, bus.skip 1)
  | .zeroPageX => (0, (opcode.byte.setWidth 16 + bus.cpu.x.setWidth 16) &&& 0x00FF, bus.skip 1)
  | .zeroPageY => (0, (opcode.byte.setWidth 16 + bus.cpu.y.setWidth 16) &&& 0x00FF, bus.skip 1)

/-- The instruction at the program counter. -/
def fetched (bus : Bus) : OpCode := getNextOpcode bus bus.cpu.programCounter

/-- The operand of the instruction at the program counter, and the bus on which the
instruction then runs: the opcode byte and the operand bytes are stepped over. -/
def decoded (bus : Bus) : ℕ × U16 × Bus := getOperandAddress (bus.skip 1) (fetched bus)

/-- The operand address that the instruction at the program counter is handed. -/
def operandAddress (bus : Bus) : U16 := (decoded bus).2.1

/-- The bus that it is handed. -/
def steppedOver (bus : Bus) : Bus := (decoded bus).2.2

/-- One turn of the loop in `run_cpu`. The line that it begins with, about this bus and this
opcode, is the disassembler's. -/
def runCpuIteration (bus : Bus) : Bus :=
  let opcode := fetched bus
  let (additionalCycles, operandAddress, bus) := decoded bus
  let cycles :=
    if instructionHasAdditionalCycleOnPageCrossing opcode.instruction
    then opcode.cycles + additionalCycles else opcode.cycles
  let bus := opcode.instructionFn.call bus operandAddress
  bus.onCpu fun cpu => tick cpu cycles

/-- `run_cpu`, if it returns within `fuel` turns of its loop. -/
def runCpu : ℕ → Bus → Option Bus
  | 0, _ => none
  | fuel + 1, bus =>
    let bus' := runCpuIteration bus
    if (fetched bus).instruction = .brk then some bus' else runCpu fuel bus'

/-- What may happen to the bus from outside: a reset, a turn of the loop, a store. -/
inductive Event
  | reset
  | iteration
  | write (addr : U16) (value : U8)

def Bus.apply (bus : Bus) : Event → Bus
  | .reset => busReset bus
  | .iteration => runCpuIteration bus
  | .write addr value => writeMem bus addr value

/-- The bus after a run of events. -/
def Bus.after (bus : Bus) (events : List Event) : Bus := run Bus.apply bus events

end NesEmulator
