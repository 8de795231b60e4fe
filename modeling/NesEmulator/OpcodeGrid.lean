import NesEmulator.CycleCount
import NesEmulator.Disassembler

/-!
The bits of an opcode.

The table of the source has a row for each of the 256 opcodes, written by hand. The opcodes
themselves are built from a block, a row and a column, so the table can be computed: the
instruction and the mode from the bits, and everything else from these two.
-/

namespace NesEmulator.NumberMachine

/-! ### Rows and columns -/

/-- The columns of the two blocks that have the accumulator on one side. -/
def modeColumn : ℕ → AddressingMode
  | 0 => .indirectX
  | 1 => .zeroPage
  | 2 => .immediate
  | 3 => .absolute
  | 4 => .indirectY
  | 5 => .zeroPageX
  | 6 => .absoluteY
  | _ => .absoluteX

/-- X is no index for itself, and neither for what is stored together with it. -/
def indexedByY : AddressingMode → AddressingMode
  | .zeroPageX => .zeroPageY
  | .absoluteX => .absoluteY
  | mode => mode

def accumulatorRow : ℕ → Instruction
  | 0 => .ora | 1 => .and | 2 => .eor | 3 => .adc | 4 => .sta | 5 => .lda | 6 => .cmp | _ => .sbc

def shiftRow : ℕ → Instruction
  | 0 => .asl | 1 => .rol | 2 => .lsr | 3 => .ror | 4 => .stx | 5 => .ldx | 6 => .dec | _ => .inc

def combinedRow : ℕ → Instruction
  | 0 => .slo | 1 => .rla | 2 => .sre | 3 => .rra | 4 => .sax | 5 => .lax | 6 => .dcp | _ => .isb

def accumulatorBlock (row column : ℕ) : Instruction × AddressingMode :=
  if row = 4 ∧ column = 2 then (.nop, .immediate) else (accumulatorRow row, modeColumn column)

def shiftBlock (row column : ℕ) : Instruction × AddressingMode :=
  let regular := (shiftRow row, if row = 4 ∨ row = 5 then indexedByY (modeColumn column)
    else modeColumn column)
  match column, row with
  | 0, 5 => (.ldx, .immediate)
  | 0, row => if row < 4 then (.jam, .implied) else (.nop, .immediate)
  | 2, 4 => (.txa, .implied)
  | 2, 5 => (.tax, .implied)
  | 2, 6 => (.dex, .implied)
  | 2, 7 => (.nop, .implied)
  | 2, row => (shiftRow row, .accumulator)
  | 4, _ => (.jam, .implied)
  | 6, 4 => (.txs, .implied)
  | 6, 5 => (.tsx, .implied)
  | 6, _ => (.nop, .implied)
  | 7, 4 => (.shx, .absoluteY)
  | _, _ => regular

/-- The unofficial block does what its two neighbours do, one after the other. -/
def combinedBlock (row column : ℕ) : Instruction × AddressingMode :=
  let regular := (combinedRow row, if row = 4 ∨ row = 5 then indexedByY (modeColumn column)
    else modeColumn column)
  match column, row with
  | 2, 0 | 2, 1 => (.anc, .immediate)
  | 2, 2 => (.alr, .immediate)
  | 2, 3 => (.arr, .immediate)
  | 2, 4 => (.ane, .immediate)
  | 2, 5 => (.lxa, .immediate)
  | 2, 6 => (.sbx, .immediate)
  | 2, _ => (.sbc, .immediate)
  | 4, 4 => (.sha, .indirectY)
  | 6, 4 => (.tas, .absoluteY)
  | 6, 5 => (.las, .absoluteY)
  | 7, 4 => (.sha, .absoluteY)
  | _, _ => regular

/-- What is left: control, the stack, the flags and the index registers. -/
def controlBlock (row column : ℕ) : Instruction × AddressingMode :=
  match column, row with
  | 0, 0 => (.brk, .implied) | 0, 1 => (.jsr, .absolute)
  | 0, 2 => (.rti, .implied) | 0, 3 => (.rts, .implied)
  | 0, 5 => (.ldy, .immediate) | 0, 6 => (.cpy, .immediate) | 0, 7 => (.cpx, .immediate)
  | 2, 0 => (.php, .implied) | 2, 1 => (.plp, .implied)
  | 2, 2 => (.pha, .implied) | 2, 3 => (.pla, .implied)
  | 2, 4 => (.dey, .implied) | 2, 5 => (.tay, .implied)
  | 2, 6 => (.iny, .implied) | 2, _ => (.inx, .implied)
  | 4, 0 => (.bpl, .relative) | 4, 1 => (.bmi, .relative)
  | 4, 2 => (.bvc, .relative) | 4, 3 => (.bvs, .relative)
  | 4, 4 => (.bcc, .relative) | 4, 5 => (.bcs, .relative)
  | 4, 6 => (.bne, .relative) | 4, _ => (.beq, .relative)
  | 6, 0 => (.clc, .implied) | 6, 1 => (.sec, .implied)
  | 6, 2 => (.cli, .implied) | 6, 3 => (.sei, .implied)
  | 6, 4 => (.tya, .implied) | 6, 5 => (.clv, .implied)
  | 6, 6 => (.cld, .implied) | 6, _ => (.sed, .implied)
  | 3, 2 => (.jmp, .absolute) | 3, 3 => (.jmp, .indirect)
  | 1, 1 | 3, 1 => (.bit, modeColumn column)
  | 7, 4 => (.shy, .absoluteX)
  | 1, 4 | 3, 4 | 5, 4 => (.sty, modeColumn column)
  | 1, 5 | 3, 5 | 5, 5 | 7, 5 => (.ldy, modeColumn column)
  | 1, 6 | 3, 6 => (.cpy, modeColumn column)
  | 1, 7 | 3, 7 => (.cpx, modeColumn column)
  | 0, _ => (.nop, .immediate)
  | _, _ => (.nop, modeColumn column)

/-- Two bits for the block, three for the column, and three for the row. -/
def decode (opcode : U8) : Instruction × AddressingMode :=
  let row := opcode.toNat / 32
  let column := opcode.toNat / 4 % 8
  match opcode.toNat % 4 with
  | 0 => controlBlock row column
  | 1 => accumulatorBlock row column
  | 2 => shiftBlock row column
  | _ => combinedBlock row column

/-! ### The table -/

/-- The cycles of an instruction that crosses no page and takes no branch. -/
def baseCycles (i : Instruction) (mode : AddressingMode) : ℕ :=
  if mode = .relative then 2 else if i = .jam then 1 else i.timing.cycles mode 0

/-- The row of an opcode. -/
def gridRow (b : U8) : OpCode :=
  let (i, mode) := decode b
  row (i.fn mode) i (mode.operandBytes + 1) (baseCycles i mode) mode

set_option maxRecDepth 4000 in
lemma opcodes_toList :
    opcodes.toList = (List.range 0x100).map fun i => gridRow (BitVec.ofNat 8 i) := by
  decide +kernel

/-- **The table follows the bits** of the opcodes. -/
theorem opcodes_get (b : U8) : opcodes.get b.toFin = gridRow b := by
  have hlist : opcodes.toList[b.toNat]? = some (opcodes.get b.toFin) := by
    rw [Vector.getElem?_toList]
    exact Vector.getElem?_eq_getElem b.isLt
  rw [opcodes_toList, List.getElem?_map, List.getElem?_range b.isLt, Option.map_some,
    BitVec.ofNat_toNat, BitVec.setWidth_eq] at hlist
  exact (Option.some.inj hlist).symm

lemma decode_opcodes (b : U8) : decode b =
    ((opcodes.get b.toFin).instruction, (opcodes.get b.toFin).addressingMode) := by
  rw [opcodes_get]
  rfl

/-- The instructions that no official opcode has. -/
def unofficialInstructions : List Instruction :=
  [.alr, .anc, .ane, .arr, .dcp, .isb, .jam, .las, .lax, .lxa, .rla, .slo, .sre, .rra, .sax, .sbx,
    .sha, .shx, .shy, .tas]

/-- Unofficial are these, and the second opcodes of official instructions: the whole last block,
and every NOP but one. -/
def unofficial (b : U8) : Bool :=
  (decode b).1 ∈ unofficialInstructions ∨ b.toNat % 4 = 3 ∨ ((decode b).1 = .nop ∧ b ≠ 0xEA)

set_option maxRecDepth 4000 in
lemma illegalOpcodes_eq : Disassembler.illegalOpcodes =
    ((List.range 0x100).map (BitVec.ofNat 8)).filter unofficial := by
  decide +kernel

lemma opcodeIsIllegal_eq (b : U8) : Disassembler.opcodeIsIllegal b = unofficial b := by
  have hmem : b ∈ (List.range 0x100).map (BitVec.ofNat 8) :=
    List.mem_map.mpr ⟨b.toNat, List.mem_range.mpr b.isLt, by rw [BitVec.ofNat_toNat]; rfl⟩
  rw [Disassembler.opcodeIsIllegal, illegalOpcodes_eq, Bool.eq_iff_iff, List.contains_iff_mem,
    List.mem_filter]
  exact and_iff_right hmem

/-- **The opcode table can be computed.** The row of an opcode is the one of its bits; the trace
marks the unofficial opcodes; and where an index can leave the page, the instructions that
the source lists are those for which that costs a cycle. -/
theorem opcodes_computed (b : U8) : opcodes.get b.toFin = gridRow b ∧
    Disassembler.opcodeIsIllegal b = unofficial b ∧
    ((decode b).2.carries = true →
      (decode b).1.timing.cycles (decode b).2 1 = (decode b).1.timing.cycles (decode b).2 0 +
        (instructionHasAdditionalCycleOnPageCrossing (decode b).1).toNat) := by
  refine ⟨opcodes_get b, opcodeIsIllegal_eq b, ?_⟩
  revert b
  decide +kernel

end NesEmulator.NumberMachine
