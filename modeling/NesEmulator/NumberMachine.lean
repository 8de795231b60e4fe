import NesEmulator.OpcodeGrid
import Mathlib.Data.Int.Notation

/-!
The processor in numbers.

A machine of registers, flags and a memory, of which it is only known in which loads a store
shows. What the source does with bits and masks is said with numbers: sums and differences,
signed and unsigned, and what does not fit.

It is the processor of this emulator, and where that is no 6502 it follows the emulator: the page
of a branch is told from the third byte behind the opcode; SLO, RLA, SRE, RRA, DCP and ISB load
their operand again behind the store; BRK leaves the break flag set and interrupts as they are;
JAM goes on; ANC, ALR, ARR, ANE, LXA, SBX, SHA, SHX, SHY, TAS and LAS do nothing; a reset clears
A, X, Y and all flags but two.
-/

namespace NesEmulator.NumberMachine

open Lib.Bits

/-! ### The machine -/

/-- In which loads a store shows: those of the second address show what is stored at the first
one. -/
abbrev MemoryMap := U16 → U16 → Bool

@[ext]
structure Machine (shows : MemoryMap) where
  programCounter : U16
  register : Register → U8
  flag : StatusFlags → Bool
  memory : U16 → U8

/-- Where an instruction finds its operand. -/
inductive Operand
  | accumulator
  | cell (a : U16)

/-- Nothing is at an address if the operand is in the accumulator. -/
def Operand.address : Operand → U16
  | .accumulator => 0
  | .cell a => a

namespace Machine

variable {shows : MemoryMap} (m : Machine shows)

def setRegister (r : Register) (v : U8) : Machine shows :=
  { m with register := Function.update m.register r v }

def setFlag (f : StatusFlags) (v : Bool) : Machine shows :=
  { m with flag := Function.update m.flag f v }

def jump (a : U16) : Machine shows := { m with programCounter := a }

def store (a : U16) (v : U8) : Machine shows :=
  { m with memory := fun b => if shows a b then v else m.memory b }

/-- Zero and negative flag tell about a byte. -/
def judge (v : U8) : Machine shows :=
  (m.setFlag .zeroFlag (v.toNat = 0)).setFlag .negativeFlag (128 ≤ v.toNat)

/-- A result goes to a register. -/
def put (r : Register) (v : U8) : Machine shows := (m.setRegister r v).judge v

def load : Operand → U8
  | .accumulator => m.register .accumulator
  | .cell a => m.memory a

/-- A result goes back to where the operand came from. -/
def keep (o : Operand) (v : U8) : Machine shows :=
  match o with
  | .accumulator => m.setRegister .accumulator v
  | .cell a => m.store a v

/-! ### Arithmetic -/

/-- The sum has nine bits; the overflow flag tells if the signed sum has more than eight. -/
def add (v : U8) : Machine shows :=
  let a := m.register .accumulator
  let sum := a.toNat + v.toNat + (m.flag .carryFlag).toNat
  let signed := a.toInt + v.toInt + (m.flag .carryFlag).toNat
  ((m.setFlag .carryFlag (256 ≤ sum)).setFlag .overflowFlag
    (signed < -128 ∨ 127 < signed)).put .accumulator (BitVec.ofNat 8 sum)

/-- A clear carry is a borrow. -/
def subtract (v : U8) : Machine shows :=
  let a := m.register .accumulator
  let borrow := (!m.flag .carryFlag).toNat
  let difference : ℤ := a.toNat - v.toNat - borrow
  let signed : ℤ := a.toInt - v.toInt - borrow
  ((m.setFlag .carryFlag (0 ≤ difference)).setFlag .overflowFlag
    (signed < -128 ∨ 127 < signed)).put .accumulator (BitVec.ofInt 8 difference)

def compareWith (r : Register) (v : U8) : Machine shows :=
  (m.setFlag .carryFlag (v.toNat ≤ (m.register r).toNat)).judge
    (BitVec.ofInt 8 ((m.register r).toNat - v.toNat))

def logic (op : U8 → U8 → U8) (v : U8) : Machine shows :=
  m.put .accumulator (op (m.register .accumulator) v)

def bitTest (v : U8) : Machine shows :=
  ((m.setFlag .zeroFlag ((m.register .accumulator &&& v).toNat = 0)).setFlag .overflowFlag
    (v.toNat / 64 % 2 = 1)).setFlag .negativeFlag (128 ≤ v.toNat)

inductive Shift
  | left | right | rotateLeft | rotateRight

/-- The shifted number, and the bit that is pushed out. -/
def Shift.apply (c : Bool) (v : U8) : Shift → ℕ × Bool
  | .left => (2 * v.toNat, 128 ≤ v.toNat)
  | .right => (v.toNat / 2, v.toNat % 2 = 1)
  | .rotateLeft => (2 * v.toNat + c.toNat, 128 ≤ v.toNat)
  | .rotateRight => ((v.toNat + 256 * c.toNat) / 2, v.toNat % 2 = 1)

def shift (s : Shift) (o : Operand) : Machine shows :=
  let (shifted, out) := s.apply (m.flag .carryFlag) (m.load o)
  ((m.setFlag .carryFlag out).keep o (BitVec.ofNat 8 shifted)).judge (BitVec.ofNat 8 shifted)

/-- A count of one, up or down. -/
def count (d : ℤ) (o : Operand) : Machine shows :=
  let counted := BitVec.ofInt 8 ((m.load o).toNat + d)
  (m.keep o counted).judge counted

def countRegister (d : ℤ) (r : Register) : Machine shows :=
  m.put r (BitVec.ofInt 8 ((m.register r).toNat + d))

/-! ### The stack -/

def stackAddress (s : U8) : U16 := (0x01 : U8) ++ s

def push (v : U8) : Machine shows :=
  (m.store (stackAddress (m.register .stackPointer)) v).setRegister .stackPointer
    (m.register .stackPointer - 1)

def pushWord (w : U16) : Machine shows := (m.push (highByte w)).push (lowByte w)

/-- The byte that is pulled next, and the machine without it. -/
def top : U8 := m.memory (stackAddress (m.register .stackPointer + 1))

def drop : Machine shows := m.setRegister .stackPointer (m.register .stackPointer + 1)

def topWord : U16 := m.drop.top ++ m.top

def dropWord : Machine shows := m.drop.drop

/-- The flags in one byte, from bit 0 on. -/
def statusByte : U8 :=
  BitVec.ofBoolListLE [m.flag .carryFlag, m.flag .zeroFlag, m.flag .interruptDisable,
    m.flag .decimalModeFlag, m.flag .breakCommand, m.flag .unusedFlag, m.flag .overflowFlag,
    m.flag .negativeFlag]

/-- All flags from one byte, but for the two that are no flags of the processor. -/
def setStatus (v : U8) : Machine shows :=
  ({ m with flag := fun f => v.getLsbD f.bit }.setFlag .breakCommand false).setFlag
    .unusedFlag true

/-! ### Branches -/

end Machine

/-- The flag that a branch asks for, and the value that it wants. -/
def condition : Instruction → Option (StatusFlags × Bool)
  | .bcc => some (.carryFlag, false)
  | .bcs => some (.carryFlag, true)
  | .bne => some (.zeroFlag, false)
  | .beq => some (.zeroFlag, true)
  | .bpl => some (.negativeFlag, false)
  | .bmi => some (.negativeFlag, true)
  | .bvc => some (.overflowFlag, false)
  | .bvs => some (.overflowFlag, true)
  | _ => none

namespace Machine

variable {shows : MemoryMap} (m : Machine shows)

def takes (i : Instruction) : Bool := (condition i).any fun c => m.flag c.1 == c.2

/-- The word at an address, low byte first. -/
def vector (a : U16) : U16 := m.memory (a + 1) ++ m.memory a

/-- What an instruction does, with its operand, once the program counter is behind it. -/
def execute (i : Instruction) (o : Operand) : Machine shows :=
  match i with
  | .lda => m.put .accumulator (m.load o)
  | .ldx => m.put .x (m.load o)
  | .ldy => m.put .y (m.load o)
  | .lax => (m.put .accumulator (m.load o)).put .x (m.load o)
  | .sta => m.store o.address (m.register .accumulator)
  | .stx => m.store o.address (m.register .x)
  | .sty => m.store o.address (m.register .y)
  | .sax => m.store o.address (m.register .accumulator &&& m.register .x)
  | .tax => m.put .x (m.register .accumulator)
  | .tay => m.put .y (m.register .accumulator)
  | .txa => m.put .accumulator (m.register .x)
  | .tya => m.put .accumulator (m.register .y)
  | .tsx => m.put .x (m.register .stackPointer)
  | .txs => m.setRegister .stackPointer (m.register .x)
  | .adc => m.add (m.load o)
  | .sbc => m.subtract (m.load o)
  | .and => m.logic (· &&& ·) (m.load o)
  | .ora => m.logic (· ||| ·) (m.load o)
  | .eor => m.logic (· ^^^ ·) (m.load o)
  | .cmp => m.compareWith .accumulator (m.load o)
  | .cpx => m.compareWith .x (m.load o)
  | .cpy => m.compareWith .y (m.load o)
  | .bit => m.bitTest (m.load o)
  | .asl => m.shift .left o
  | .lsr => m.shift .right o
  | .rol => m.shift .rotateLeft o
  | .ror => m.shift .rotateRight o
  | .inc => m.count 1 o
  | .dec => m.count (-1) o
  | .inx => m.countRegister 1 .x
  | .iny => m.countRegister 1 .y
  | .dex => m.countRegister (-1) .x
  | .dey => m.countRegister (-1) .y
  -- two steps, of which the second one loads again, as the source does
  | .slo => let m := m.shift .left o; m.logic (· ||| ·) (m.load o)
  | .rla => let m := m.shift .rotateLeft o; m.logic (· &&& ·) (m.load o)
  | .sre => let m := m.shift .right o; m.logic (· ^^^ ·) (m.load o)
  | .rra => let m := m.shift .rotateRight o; m.add (m.load o)
  | .dcp => let m := m.count (-1) o; m.compareWith .accumulator (m.load o)
  | .isb => let m := m.count 1 o; m.subtract (m.load o)
  | .clc => m.setFlag .carryFlag false
  | .cld => m.setFlag .decimalModeFlag false
  | .cli => m.setFlag .interruptDisable false
  | .clv => m.setFlag .overflowFlag false
  | .sec => m.setFlag .carryFlag true
  | .sed => m.setFlag .decimalModeFlag true
  | .sei => m.setFlag .interruptDisable true
  | .pha => m.push (m.register .accumulator)
  | .php => m.push ((m.setFlag .unusedFlag true).setFlag .breakCommand true).statusByte
  | .pla => m.drop.put .accumulator m.top
  | .plp => m.drop.setStatus m.top
  | .jmp => m.jump o.address
  | .jsr => (m.pushWord (m.programCounter - 1)).jump o.address
  | .rts => m.dropWord.jump (m.topWord + 1)
  -- the break flag stays set, and interrupts stay as they are
  | .brk =>
    let m := (m.pushWord (m.programCounter + 1)).setFlag .breakCommand true
    let m := m.push m.statusByte
    m.jump (m.vector 0xFFFE)
  | .rti =>
    let m := m.drop.setStatus m.top
    m.dropWord.jump m.topWord
  | .bcc | .bcs | .bne | .beq | .bpl | .bmi | .bvc | .bvs =>
    if m.takes i then m.jump (m.programCounter + o.address) else m
  -- what is not implemented does nothing
  | .nop | .jam | .anc | .alr | .arr | .ane | .lxa | .sbx | .sha | .shx | .shy | .tas | .las => m

/-! ### A step -/

/-- The instruction at the program counter. -/
def fetch : Instruction × AddressingMode := decode (m.memory m.programCounter)

def firstByte : ℕ := (m.memory (m.programCounter + 1)).toNat
def secondByte : ℕ := (m.memory (m.programCounter + 2)).toNat

/-- A byte of page zero. -/
def pageZero (a : ℕ) : ℕ := (m.memory (BitVec.ofNat 16 (a % 256))).toNat

/-- A pointer that lies in page zero, around its end if it has to. -/
def zeroPointer (a : ℕ) : ℕ := m.pageZero a + 256 * m.pageZero (a + 1)

/-- A pointer that lies in one page. -/
def pagePointer (w : U16) : ℕ :=
  (m.memory w).toNat + 256 * (m.memory ((w &&& 0xFF00) ||| ((w + 1) &&& 0x00FF))).toNat

/-- The operand address of a mode; an offset is a number of 16 bits with its sign. -/
def effectiveAddress : AddressingMode → ℕ
  | .accumulator | .implied => 0
  | .immediate => (m.programCounter.toNat + 1) % 65536
  | .zeroPage => m.firstByte
  | .zeroPageX => (m.firstByte + (m.register .x).toNat) % 256
  | .zeroPageY => (m.firstByte + (m.register .y).toNat) % 256
  | .absolute => m.firstByte + 256 * m.secondByte
  | .absoluteX => (m.firstByte + 256 * m.secondByte + (m.register .x).toNat) % 65536
  | .absoluteY => (m.firstByte + 256 * m.secondByte + (m.register .y).toNat) % 65536
  | .indirect => m.pagePointer (BitVec.ofNat 16 (m.firstByte + 256 * m.secondByte))
  | .indirectX => m.zeroPointer (m.firstByte + (m.register .x).toNat)
  | .indirectY => (m.zeroPointer m.firstByte + (m.register .y).toNat) % 65536
  | .relative => if m.firstByte < 128 then m.firstByte else 0xFF00 + m.firstByte

def operand (mode : AddressingMode) : Operand :=
  if mode = .accumulator then .accumulator else .cell (BitVec.ofNat 16 (m.effectiveAddress mode))

def step : Machine shows :=
  (m.jump (m.programCounter + BitVec.ofNat 16 (m.fetch.2.operandBytes + 1))).execute m.fetch.1
    (m.operand m.fetch.2)

/-- Whether the index of an indexed mode carries into the high byte. -/
def indexCarry : AddressingMode → ℕ
  | .absoluteX => if 256 ≤ m.firstByte + (m.register .x).toNat then 1 else 0
  | .absoluteY => if 256 ≤ m.firstByte + (m.register .y).toNat then 1 else 0
  | .indirectY => if 256 ≤ m.pageZero m.firstByte + (m.register .y).toNat then 1 else 0
  | _ => 0

/-- The cycles of a branch. To leave the page costs one, and in the source it is the third byte
behind the opcode whose page counts, not the second one. -/
def branchCycles (i : Instruction) : ℕ :=
  let target := m.programCounter + 2 + BitVec.ofNat 16 (m.effectiveAddress .relative)
  if m.takes i then if page (m.programCounter + 3) = page target then 3 else 4 else 2

/-- The cycles of a step. A JAM costs one, and goes on. -/
def duration : ℕ :=
  let (i, mode) := m.fetch
  if mode = .relative then m.branchCycles i
  else if i = .jam then 1
  else i.timing.cycles mode (m.indexCarry mode)

/-- What a reset leaves. -/
def reset : Machine shows :=
  { m with
    programCounter := m.vector 0xFFFC
    register := fun r => if r = .stackPointer then 0xFD else 0
    flag := fun f => f = .unusedFlag ∨ f = .interruptDisable }

def apply (m : Machine shows) : Event → Machine shows
  | .reset => m.reset
  | .iteration => m.step
  | .write a v => m.store a v

def cost (m : Machine shows) : Event → ℕ
  | .reset => 7
  | .iteration => m.duration
  | .write _ _ => 0

/-- Steps up to a BRK, if there is one within `fuel` steps. -/
def run : ℕ → Machine shows → Option (Machine shows)
  | 0, _ => none
  | fuel + 1, m => if m.fetch.1 = .brk then some m.step else run fuel m.step

end Machine

end NesEmulator.NumberMachine
