import NesEmulator.RunCpu

/-!
The execution trace.

Before each instruction `run_cpu` prints a line about it. The disassembler has its own
`get_operand_address`, which it calls while the program counter is still at the opcode. A
line is the list of the pieces that are printed, each a text or a number with its format.
-/

namespace NesEmulator.Disassembler

/-- A text, a number in `width` hexadecimal digits at least, or a number in decimal. -/
inductive Piece
  | text (s : String)
  | hex (width value : ℕ)
  | dec (value : ℕ)
  deriving DecidableEq

def illegalOpcodes : List U8 :=
  [0x02, 0x03, 0x04, 0x07, 0x0B, 0x0C, 0x0F, 0x12, 0x13, 0x14, 0x17, 0x1A, 0x1B, 0x1C, 0x1F,
    0x22, 0x23, 0x27, 0x2B, 0x2F, 0x32, 0x33, 0x34, 0x37, 0x3A, 0x3B, 0x3C, 0x3F, 0x42, 0x43,
    0x44, 0x47, 0x4B, 0x4F, 0x52, 0x53, 0x54, 0x57, 0x5A, 0x5B, 0x5C, 0x5F, 0x62, 0x63, 0x64,
    0x67, 0x6B, 0x6F, 0x72, 0x73, 0x74, 0x77, 0x7A, 0x7B, 0x7C, 0x7F, 0x80, 0x82, 0x83, 0x87,
    0x89, 0x8B, 0x8F, 0x92, 0x93, 0x97, 0x9B, 0x9C, 0x9E, 0x9F, 0xA3, 0xA7, 0xAB, 0xAF, 0xB2,
    0xB3, 0xB7, 0xBB, 0xBF, 0xC2, 0xC3, 0xC7, 0xCB, 0xCF, 0xD2, 0xD3, 0xD4, 0xD7, 0xDA, 0xDB,
    0xDC, 0xDF, 0xE2, 0xE3, 0xE7, 0xEB, 0xEF, 0xF2, 0xF3, 0xF4, 0xF7, 0xFA, 0xFB, 0xFC, 0xFF]

def opcodeIsIllegal (opcode : U8) : Bool := illegalOpcodes.contains opcode

def getOperandAddress (bus : Bus) (opcode : OpCode) : U16 :=
  match opcode.addressingMode with
  | .accumulator => 0
  | .implied => 0
  | .absolute => opcode.word
  | .absoluteX => opcode.word + bus.cpu.x.setWidth 16
  | .absoluteY => opcode.word + bus.cpu.y.setWidth 16
  | .immediate => bus.cpu.programCounter
  | .zeroPage => opcode.byte.setWidth 16
  | .zeroPageX => (opcode.byte.setWidth 16 + bus.cpu.x.setWidth 16) &&& 0x00FF
  | .zeroPageY => (opcode.byte.setWidth 16 + bus.cpu.y.setWidth 16) &&& 0x00FF
  | .indirect =>
    if opcode.byte = 0xFF then
      let lo := (readMem bus opcode.word).setWidth 16
      let hi := (readMem bus (opcode.word &&& 0xFF00)).setWidth 16
      (hi <<< 8) ||| lo
    else
      let lo := (readMem bus opcode.word).setWidth 16
      let hi := (readMem bus (opcode.word + 1)).setWidth 16
      (hi <<< 8) ||| lo
  | .indirectX =>
    let base := opcode.byte.setWidth 16
    let ptr := (base + bus.cpu.x.setWidth 16) &&& 0x00FF
    let loByte := (readMem bus ptr).setWidth 16
    let hiByte := (readMem bus ((ptr + 1) &&& 0x00FF)).setWidth 16
    (hiByte <<< 8) ||| loByte
  | .indirectY =>
    let base := opcode.byte.setWidth 16
    let loByte := (readMem bus base).setWidth 16
    let hiByte := (readMem bus ((base + 1) &&& 0x00FF)).setWidth 16
    ((hiByte <<< 8) ||| loByte) + bus.cpu.y.setWidth 16
  | .relative =>
    let relativeAddress := opcode.byte.setWidth 16
    if relativeAddress &&& 0x80 != 0 then relativeAddress ||| 0xFF00 else relativeAddress

/-! ### The columns of a line -/

def byteColumn (bus : Bus) (opcode : OpCode) : List Piece :=
  let pc := bus.cpu.programCounter
  match opcode.bytes with
  | 1 => [.hex 2 (readMem bus pc).toNat, .text "      "]
  | 2 =>
    [.hex 2 (readMem bus pc).toNat, .text " ", .hex 2 (readMem bus (pc + 1)).toNat, .text "   "]
  | 3 =>
    [.hex 2 (readMem bus pc).toNat, .text " ", .hex 2 (readMem bus (pc + 1)).toNat, .text " ",
      .hex 2 (readMem bus (pc + 2)).toNat]
  | _ => []

/-- The operand as it is printed, and the length that is counted for it. -/
def operandColumn (bus : Bus) (opcode : OpCode) (addr : U16) : List Piece × ℕ :=
  match opcode.addressingMode with
  | .accumulator => ([.text "A"], 1)
  | .absolute => ([.text "$", .hex 4 addr.toNat], 5)
  | .absoluteX => ([.text "$", .hex 4 opcode.word.toNat, .text ",X @ ", .hex 4 addr.toNat], 14)
  | .absoluteY => ([.text "$", .hex 4 opcode.word.toNat, .text ",Y @ ", .hex 4 addr.toNat], 14)
  | .immediate => ([.text "#$", .hex 2 opcode.byte.toNat], 4)
  | .implied => ([], 0)
  | .indirect => ([.text "($", .hex 4 opcode.word.toNat, .text ") = ", .hex 4 addr.toNat], 14)
  | .indirectX =>
    ([.text "($", .hex 2 opcode.byte.toNat, .text ",X) @ ",
      .hex 2 ((opcode.byte.toNat + bus.cpu.x.toNat) &&& 0xFF), .text " = ", .hex 4 addr.toNat], 19)
  | .indirectY =>
    let base := opcode.byte.setWidth 16
    let loByte := (readMem bus base).setWidth 16
    let hiByte := (readMem bus ((base + 1) &&& 0x00FF)).setWidth 16
    let baseAddr : U16 := loByte ||| (hiByte <<< 8)
    ([.text "($", .hex 2 opcode.byte.toNat, .text "),Y = ", .hex 4 baseAddr.toNat, .text " @ ",
      .hex 4 addr.toNat], 21)
  | .relative =>
    ([.text "$", .hex 4 ((bus.cpu.programCounter.toNat + 2 + addr.toNat) &&& 0xFFFF)], 5)
  | .zeroPage => ([.text "$", .hex 2 (addr &&& 0x00FF).toNat], 3)
  | .zeroPageX =>
    ([.text "$", .hex 2 opcode.byte.toNat, .text ",X @ ", .hex 2 (addr &&& 0x00FF).toNat], 10)
  | .zeroPageY =>
    ([.text "$", .hex 2 opcode.byte.toNat, .text ",Y @ ", .hex 2 (addr &&& 0x00FF).toNat], 10)

/-- The instructions for which the byte at the operand address is printed. -/
def showsMemory : Instruction → Bool
  | .stx | .sta | .bit | .ldx | .lda | .ora | .and | .eor | .adc | .cmp | .sbc | .ldy | .sty
  | .cpx | .cpy | .lsr | .asl | .ror | .rol | .inc | .dec
  -- Illegal
  | .nop | .lax | .sax | .dcp | .isb | .slo | .rla | .sre | .rra => true
  | _ => false

/-- The memory value at the end of the operand, and the length that is counted for it. -/
def memoryColumn (bus : Bus) (opcode : OpCode) (addr : U16) : List Piece × ℕ :=
  if opcode.addressingMode ≠ .immediate ∧ opcode.addressingMode ≠ .accumulator ∧
      opcode.addressingMode ≠ .implied then
    if showsMemory opcode.instruction then
      ([.text " = ", .hex 2 (readMem bus addr).toNat], 5)
    else ([], 0)
  else ([], 0)

def registerColumn (cpu : CPU) : List Piece :=
  [.text "A:", .hex 2 cpu.accumulator.toNat, .text " X:", .hex 2 cpu.x.toNat,
    .text " Y:", .hex 2 cpu.y.toNat, .text " P:", .hex 2 cpu.status.toNat,
    .text " SP:", .hex 2 cpu.stackPointer.toNat, .text " CYC:", .dec cpu.cycles.toNat]

/-- A line up to the operand. -/
def frontColumns (bus : Bus) (opcode : OpCode) : List Piece :=
  let pc := bus.cpu.programCounter
  [.hex 4 pc.toNat, .text "  "] ++ byteColumn bus opcode ++
    [.text " ", .text (if opcodeIsIllegal (readMem bus pc) then "*" else " ")] ++
    [.text (getInstructionMnemonic opcode.instruction), .text " "]

/-- The line that is printed for an instruction at the program counter. -/
def disassembleCpu (bus : Bus) (opcode : OpCode) : List Piece :=
  let addr := getOperandAddress bus opcode
  let (operand, operandLen) := operandColumn bus opcode addr
  let (memory, memoryLen) := memoryColumn bus opcode addr
  let len := operandLen + memoryLen
  frontColumns bus opcode ++ (operand ++ memory) ++
    (List.replicate (28 - len) (.text " ") ++ registerColumn bus.cpu ++ [.text "\n"])

end NesEmulator.Disassembler
