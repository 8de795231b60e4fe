import NesEmulator.Decoding
import NesEmulator.Disassembler

/-!
The trace against the step it announces.

The two copies of the address decoder agree in every mode but the immediate one, where the
disassembler's copy runs a byte early. So the line tells where a branch or jump goes, and
which byte the instruction is about to read.
-/

namespace NesEmulator

open Disassembler

/-! ### What is printed -/

/-- The address that the disassembler computes for the instruction at the program counter. -/
def tracedAddress (bus : Bus) : U16 := Disassembler.getOperandAddress bus (fetched bus)

/-- The operand that is printed for it. -/
def tracedOperand (bus : Bus) : List Piece :=
  (operandColumn bus (fetched bus) (tracedAddress bus)).1

/-- The memory value that is printed behind the operand. -/
def tracedMemory (bus : Bus) : List Piece :=
  (memoryColumn bus (fetched bus) (tracedAddress bus)).1

/-- The last number of a column. -/
def lastHex : List Piece → Option ℕ
  | [] => none
  | .hex _ value :: pieces => (lastHex pieces).or (some value)
  | _ :: pieces => lastHex pieces

lemma disassembleCpu_columns (bus : Bus) : ∃ front back, disassembleCpu bus (fetched bus) =
    front ++ (tracedOperand bus ++ tracedMemory bus) ++ back :=
  ⟨_, _, rfl⟩

/-! ### The two decoders -/

lemma getOperandAddress_agree (bus : Bus) (n : U16) (opcode : OpCode)
    (h : opcode.addressingMode ≠ .immediate) :
    (NesEmulator.getOperandAddress (bus.skip n) opcode).2.1 =
      Disassembler.getOperandAddress bus opcode := by
  unfold NesEmulator.getOperandAddress Disassembler.getOperandAddress
  cases hmode : opcode.addressingMode <;> simp only [readMem_skip] <;> try rfl
  case immediate => exact absurd hmode h
  case indirect => split <;> rfl

lemma tracedAddress_eq {bus : Bus} (h : (fetched bus).addressingMode ≠ .immediate) :
    tracedAddress bus = operandAddress bus :=
  (getOperandAddress_agree bus 1 (fetched bus) h).symm

/-! ### Where the step goes -/

lemma branch_programCounter (bus : Bus) (a : U16) :
    (branch bus a).cpu.programCounter = bus.cpu.programCounter + a := by
  unfold branch
  simp only [onCpu_cpu]
  rfl

/-- A taken branch goes where the line says. -/
lemma trace_branch {bus : Bus} (hmode : (fetched bus).addressingMode = .relative)
    (htaken : (fetched bus).instruction.taken bus.cpu) :
    lastHex (tracedOperand bus) = some (runCpuIteration bus).cpu.programCounter.toNat := by
  have haddr : tracedAddress bus = operandAddress bus := tracedAddress_eq (by rw [hmode]; decide)
  have hpc : (runCpuIteration bus).cpu.programCounter =
      bus.cpu.programCounter + 2 + operandAddress bus := by
    have hsame : (fetched bus).instruction.taken (steppedOver bus).cpu =
        (fetched bus).instruction.taken bus.cpu := by
      rw [steppedOver_eq]
      rfl
    rw [runCpuIteration_programCounter, fetched_call hmode, relative_call (fetched_fits rfl hmode),
      hsame, branchIf, if_pos htaken, branch_programCounter, steppedOver_eq, skip_programCounter,
      fetched_bytes hmode]
    rfl
  unfold tracedOperand operandColumn
  rw [hmode, hpc, haddr]
  change some ((_ + 2 + _) &&& 2 ^ 16 - 1) = _
  rw [Nat.and_two_pow_sub_one_eq_mod, BitVec.toNat_add, BitVec.toNat_add]
  congr 1
  change _ = ((_ + 2) % 2 ^ 16 + _) % 2 ^ 16
  omega

/-- JMP and JSR go where the line says. -/
lemma trace_jump {bus : Bus}
    (hjump : (fetched bus).instruction = .jmp ∨ (fetched bus).instruction = .jsr) :
    lastHex (tracedOperand bus) = some (runCpuIteration bus).cpu.programCounter.toNat := by
  have hmode : (fetched bus).addressingMode = .absolute ∨
      (fetched bus).addressingMode = .indirect := by
    rcases hjump with h | h
    · exact of_decide_eq_true (fetched_fits h rfl)
    · exact Or.inl (of_decide_eq_true (fetched_fits h rfl))
  have haddr : tracedAddress bus = operandAddress bus := by
    refine tracedAddress_eq ?_
    rcases hmode with h | h <;> rw [h] <;> decide
  have hpc : (runCpuIteration bus).cpu.programCounter = operandAddress bus := by
    rw [runCpuIteration_programCounter, fetched_call rfl]
    rcases hjump with h | h <;> rw [h] <;> rfl
  unfold tracedOperand operandColumn
  rw [hpc, ← haddr]
  rcases hmode with h | h <;> rw [h] <;> rfl

/-! ### What the step reads -/

def aslByte (m : U8) (bus : Bus) (a : U16) : Bus := putShifted bus a (m <<< 1) (m &&& 0x80 != 0)
def lsrByte (m : U8) (bus : Bus) (a : U16) : Bus := putShifted bus a (m >>> 1) (m &&& 0x01 != 0)
def rolByte (m : U8) (bus : Bus) (a : U16) : Bus :=
  putShifted bus a ((m <<< 1) ||| bus.cpu.carry) (m &&& 0x80 != 0)
def rorByte (m : U8) (bus : Bus) (a : U16) : Bus :=
  putShifted bus a ((m >>> 1) ||| (bus.cpu.carry <<< 7)) (m &&& 0x01 != 0)

def incByte (m : U8) (bus : Bus) (a : U16) : Bus :=
  (writeMem bus a (m + 1)).onCpu fun cpu => updateZeroAndNegativeFlags cpu (m + 1)
def decByte (m : U8) (bus : Bus) (a : U16) : Bus :=
  writeMem (bus.onCpu fun cpu => updateZeroAndNegativeFlags cpu (m - 1)) a (m - 1)

def bitByte (m : U8) (bus : Bus) : Bus :=
  bus.onCpu fun cpu =>
    let cpu := setFlag cpu .zeroFlag (cpu.accumulator &&& m == 0)
    let cpu := setFlag cpu .overflowFlag (m &&& (1 <<< 6) != 0)
    setFlag cpu .negativeFlag (m &&& (1 <<< 7) != 0)

/-- What an instruction function that begins by reading its operand does with the byte. -/
def InstructionFn.onByte : InstructionFn → Option (U8 → Bus → U16 → Bus)
  | .adcFn => some fun m bus _ => addWithCarry bus (m.setWidth 16)
  | .sbcFn => some fun m bus _ => addWithCarry bus (~~~(m.setWidth 16) &&& 0x00FF)
  | .andFn => some fun m bus _ => putAccumulator bus (bus.cpu.accumulator &&& m)
  | .oraFn => some fun m bus _ => putAccumulator bus (bus.cpu.accumulator ||| m)
  | .eorFn => some fun m bus _ => putAccumulator bus (bus.cpu.accumulator ^^^ m)
  | .ldaFn => some fun m bus _ => putAccumulator bus m
  | .ldxFn => some fun m bus _ => putX bus m
  | .ldyFn => some fun m bus _ => putY bus m
  | .cmpFn => some fun m bus _ => compare bus bus.cpu.accumulator m
  | .cpxFn => some fun m bus _ => compare bus bus.cpu.x m
  | .cpyFn => some fun m bus _ => compare bus bus.cpu.y m
  | .bitFn => some fun m bus _ => bitByte m bus
  | .aslFn => some aslByte
  | .lsrFn => some lsrByte
  | .rolFn => some rolByte
  | .rorFn => some rorByte
  | .incFn => some incByte
  | .decFn => some decByte
  -- the second half of a combined instruction reads again, what the first half has left
  | .laxFn => some fun m bus a => NesEmulator.ldxFn (putAccumulator bus m) a
  | .sloFn => some fun m bus a => NesEmulator.oraFn (aslByte m bus a) a
  | .rlaFn => some fun m bus a => NesEmulator.andFn (rolByte m bus a) a
  | .sreFn => some fun m bus a => NesEmulator.eorFn (lsrByte m bus a) a
  | .rraFn => some fun m bus a => NesEmulator.adcFn (rorByte m bus a) a
  | .dcpFn => some fun m bus a => NesEmulator.cmpFn (decByte m bus a) a
  | .isbFn => some fun m bus a => NesEmulator.sbcFn (incByte m bus a) a
  | _ => none

/-- An instruction that begins by reading its operand depends on that byte through its body
only. -/
lemma call_onByte {fn : InstructionFn} {body : U8 → Bus → U16 → Bus} (h : fn.onByte = some body)
    (bus : Bus) (a : U16) : fn.call bus a = body (readMem bus a) bus a := by
  cases fn <;> first | (obtain rfl := Option.some.inj h; rfl) | cases h

/-- The loads, the arithmetic and logic, the compares, BIT, the shifts, INC, DEC and the
combined instructions. -/
def Instruction.readsOperand : Instruction → Bool
  | .lda | .ldx | .ldy | .lax | .adc | .sbc | .and | .ora | .eor | .cmp | .cpx | .cpy | .bit
  | .asl | .lsr | .rol | .ror | .inc | .dec | .slo | .rla | .sre | .rra | .dcp | .isb => true
  | _ => false

lemma onByte_isSome {i : Instruction} (h : i.readsOperand) {mode : AddressingMode}
    (hmode : mode ≠ .accumulator) : ((i.fn mode).onByte).isSome := by
  cases i <;> first | rfl | (cases mode <;> first | rfl | exact absurd rfl hmode) | cases h

/-- The instruction at the program counter begins by reading this byte through its operand
address. -/
def ReadsFirst (bus : Bus) (m : U8) : Prop :=
  readMem (steppedOver bus) (operandAddress bus) = m ∧
    ∃ body, (fetched bus).instructionFn.onByte = some body ∧
      (fetched bus).instructionFn.call (steppedOver bus) (operandAddress bus) =
        body m (steppedOver bus) (operandAddress bus)

lemma readsFirst {bus : Bus} (hreads : (fetched bus).instruction.readsOperand)
    (hmode : (fetched bus).addressingMode ≠ .accumulator) :
    ReadsFirst bus (readMem (steppedOver bus) (operandAddress bus)) := by
  obtain ⟨body, hbody⟩ := Option.isSome_iff_exists.mp (onByte_isSome hreads hmode)
  rw [← fetched_call rfl] at hbody
  exact ⟨rfl, body, hbody, call_onByte hbody _ _⟩

/-- An immediate operand lies behind the opcode. -/
lemma immediate_byte {bus : Bus} (hmode : (fetched bus).addressingMode = .immediate) :
    readMem (steppedOver bus) (operandAddress bus) = (fetched bus).byte := by
  have haddr : operandAddress bus = bus.cpu.programCounter + 1 := by
    unfold operandAddress decoded NesEmulator.getOperandAddress
    rw [hmode]
    rfl
  have hbytes := fetched_bytes hmode
  rw [readMem_steppedOver, haddr]
  rw [fetched, getNextOpcode_eq] at hbytes ⊢
  dsimp only at hbytes ⊢
  rw [if_pos (by rw [hbytes]; decide)]

lemma tracedMemory_eq {bus : Bus} {v : ℕ} (h : lastHex (tracedMemory bus) = some v) :
    (fetched bus).addressingMode ≠ .immediate ∧ (fetched bus).addressingMode ≠ .accumulator ∧
      v = (readMem (steppedOver bus) (operandAddress bus)).toNat := by
  unfold tracedMemory memoryColumn at h
  split at h
  · next hmode =>
    split at h
    · rw [tracedAddress_eq hmode.1] at h
      rw [readMem_steppedOver]
      exact ⟨hmode.1, hmode.2.1, (Option.some.inj h).symm⟩
    · cases h
  · cases h

/-- **The trace tells the truth** about the step that follows: the operand and memory value in
the line for the instruction at the program counter are those of the step. -/
theorem trace_tells_truth (bus : Bus) :
    (∃ front back, disassembleCpu bus (fetched bus) =
      front ++ (tracedOperand bus ++ tracedMemory bus) ++ back) ∧
    ((fetched bus).addressingMode ≠ .immediate → tracedAddress bus = operandAddress bus) ∧
    ((fetched bus).addressingMode = .immediate →
      lastHex (tracedOperand bus) = some (fetched bus).byte.toNat ∧
        readMem (steppedOver bus) (operandAddress bus) = (fetched bus).byte ∧
        ((fetched bus).instruction.readsOperand → ReadsFirst bus (fetched bus).byte)) ∧
    ((fetched bus).addressingMode = .relative → (fetched bus).instruction.taken bus.cpu →
      lastHex (tracedOperand bus) = some (runCpuIteration bus).cpu.programCounter.toNat) ∧
    ((fetched bus).instruction = .jmp ∨ (fetched bus).instruction = .jsr →
      lastHex (tracedOperand bus) = some (runCpuIteration bus).cpu.programCounter.toNat) ∧
    (∀ v, (fetched bus).instruction.readsOperand → lastHex (tracedMemory bus) = some v →
      ∃ m : U8, m.toNat = v ∧ ReadsFirst bus m) := by
  refine ⟨disassembleCpu_columns bus, tracedAddress_eq, fun hmode => ?_, trace_branch, trace_jump,
    fun v hreads hshown => ?_⟩
  · have hbyte := immediate_byte hmode
    refine ⟨?_, hbyte, fun hreads => ?_⟩
    · unfold tracedOperand operandColumn
      rw [hmode]
      rfl
    · rw [← hbyte]
      exact readsFirst hreads (by rw [hmode]; decide)
  · obtain ⟨-, hmode, hv⟩ := tracedMemory_eq hshown
    exact ⟨_, hv.symm, readsFirst hreads hmode⟩

end NesEmulator
