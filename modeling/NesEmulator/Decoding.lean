import NesEmulator.RunCpu

/-!
What the opcode table says, and what decoding does.

The rows of the table agree with each other: the function and the length follow from the
instruction and the mode, and the modes of branches and jumps are theirs alone. So a turn of
the loop can be taken apart without looking at the table again.
-/

namespace NesEmulator

/-! ### The table -/

/-- Each instruction has one function, and the shifts and rotates a second one for the
accumulator. -/
def Instruction.fn : Instruction → AddressingMode → InstructionFn
  | .asl, .accumulator => .aslAccFn
  | .lsr, .accumulator => .lsrAccFn
  | .rol, .accumulator => .rolAccFn
  | .ror, .accumulator => .rorAccFn
  | i, _ => match i with
    | .adc => .adcFn | .and => .andFn | .asl => .aslFn | .bcc => .bccFn | .bcs => .bcsFn
    | .beq => .beqFn | .bit => .bitFn | .bmi => .bmiFn | .bne => .bneFn | .bpl => .bplFn
    | .brk => .brkFn | .bvc => .bvcFn | .bvs => .bvsFn | .clc => .clcFn | .cld => .cldFn
    | .cli => .cliFn | .clv => .clvFn | .cmp => .cmpFn | .cpx => .cpxFn | .cpy => .cpyFn
    | .dec => .decFn | .dex => .dexFn | .dey => .deyFn | .eor => .eorFn | .inc => .incFn
    | .inx => .inxFn | .iny => .inyFn | .jmp => .jmpFn | .jsr => .jsrFn | .lda => .ldaFn
    | .ldx => .ldxFn | .ldy => .ldyFn | .lsr => .lsrFn | .nop => .nopFn | .ora => .oraFn
    | .pha => .phaFn | .php => .phpFn | .pla => .plaFn | .plp => .plpFn | .rol => .rolFn
    | .ror => .rorFn | .rti => .rtiFn | .rts => .rtsFn | .sbc => .sbcFn | .sec => .secFn
    | .sed => .sedFn | .sei => .seiFn | .sta => .staFn | .stx => .stxFn | .sty => .styFn
    | .tax => .taxFn | .tay => .tayFn | .tsx => .tsxFn | .txa => .txaFn | .txs => .txsFn
    | .tya => .tyaFn | .alr => .alrFn | .anc => .ancFn | .ane => .aneFn | .arr => .arrFn
    | .dcp => .dcpFn | .isb => .isbFn | .jam => .jamFn | .las => .lasFn | .lax => .laxFn
    | .lxa => .lxaFn | .rla => .rlaFn | .slo => .sloFn | .sre => .sreFn | .rra => .rraFn
    | .sax => .saxFn | .sbx => .sbxFn | .sha => .shaFn | .shx => .shxFn | .shy => .shyFn
    | .tas => .tasFn

/-- The operand bytes that a mode steps over. -/
def AddressingMode.operandBytes : AddressingMode → ℕ
  | .accumulator | .implied => 0
  | .absolute | .absoluteX | .absoluteY | .indirect => 2
  | .immediate | .indirectX | .indirectY | .relative | .zeroPage | .zeroPageX | .zeroPageY => 1

set_option maxRecDepth 4000 in
/-- **The rows agree**: the function is that of the instruction, and the length is that of
the mode. -/
theorem opcodes_rows : ∀ code ∈ opcodes.toList,
    code.instructionFn = code.instruction.fn code.addressingMode ∧
      code.bytes = code.addressingMode.operandBytes + 1 := by
  decide +kernel

/-- The modes of the instructions that set the program counter; no other instruction is
relative. -/
def Instruction.fits : Instruction → AddressingMode → Bool
  | .jsr, mode => mode = .absolute
  | .jmp, mode => mode = .absolute ∨ mode = .indirect
  | .brk, mode | .rti, mode | .rts, mode => mode = .implied
  | .bcc, mode | .bcs, mode | .beq, mode | .bmi, mode | .bne, mode | .bpl, mode | .bvc, mode
  | .bvs, mode => mode = .relative
  | _, mode => mode ≠ .relative

/-- The condition of a branch. -/
def Instruction.taken (cpu : CPU) : Instruction → Bool
  | .bcc => !cpu.flag .carryFlag
  | .bcs => cpu.flag .carryFlag
  | .bne => !cpu.flag .zeroFlag
  | .beq => cpu.flag .zeroFlag
  | .bpl => !cpu.flag .negativeFlag
  | .bmi => cpu.flag .negativeFlag
  | .bvc => !cpu.flag .overflowFlag
  | .bvs => cpu.flag .overflowFlag
  | _ => false

/-- The relative instructions are the branches. -/
lemma relative_call {i : Instruction} (h : i.fits .relative) (bus : Bus) (a : U16) :
    (i.fn .relative).call bus a = branchIf (i.taken bus.cpu) bus a := by
  cases i <;> first | rfl | simp [Instruction.fits] at h

set_option maxRecDepth 4000 in
lemma opcodes_fits : ∀ code ∈ opcodes.toList, code.instruction.fits code.addressingMode := by
  decide +kernel

lemma opcodes_get_mem (i : Fin 0x100) : opcodes.get i ∈ opcodes.toList := by
  rw [Vector.mem_toList_iff]
  exact Vector.getElem_mem i.isLt

lemma operandBytes_le (mode : AddressingMode) : mode.operandBytes ≤ 2 := by
  cases mode <;> decide

/-- A fetched instruction is its row of the table with the operand bytes that lie behind it
in memory. -/
lemma getNextOpcode_eq (bus : Bus) (pc : U16) :
    getNextOpcode bus pc =
      { opcodes.get (readMem bus pc).toFin with
        byte :=
          if 2 ≤ (opcodes.get (readMem bus pc).toFin).bytes then readMem bus (pc + 1)
          else (opcodes.get (readMem bus pc).toFin).byte
        ignored :=
          if 3 ≤ (opcodes.get (readMem bus pc).toFin).bytes then readMem bus (pc + 2)
          else (opcodes.get (readMem bus pc).toFin).ignored } := by
  unfold getNextOpcode
  dsimp only
  have hrow := (opcodes_rows _ (opcodes_get_mem (readMem bus pc).toFin)).2
  generalize opcodes.get (readMem bus pc).toFin = code at hrow ⊢
  have hle := operandBytes_le code.addressingMode
  obtain ⟨fn, i, bytes, cycles, mode, byte, ignored⟩ := code
  obtain h | h | h : bytes = 1 ∨ bytes = 2 ∨ bytes = 3 := by
    simp only at hrow hle
    omega
  all_goals subst h; rfl

section Fetched

variable (bus : Bus) (pc : U16)

/-- The row of the table behind a fetched instruction. -/
lemma getNextOpcode_row : ∃ code ∈ opcodes.toList,
    (getNextOpcode bus pc).instructionFn = code.instructionFn ∧
      (getNextOpcode bus pc).instruction = code.instruction ∧
      (getNextOpcode bus pc).bytes = code.bytes ∧
      (getNextOpcode bus pc).cycles = code.cycles ∧
      (getNextOpcode bus pc).addressingMode = code.addressingMode := by
  refine ⟨_, opcodes_get_mem (readMem bus pc).toFin, ?_⟩
  rw [getNextOpcode_eq]
  exact ⟨rfl, rfl, rfl, rfl, rfl⟩

lemma getNextOpcode_fn : (getNextOpcode bus pc).instructionFn =
    (getNextOpcode bus pc).instruction.fn (getNextOpcode bus pc).addressingMode := by
  obtain ⟨code, hmem, hfn, hi, -, -, hm⟩ := getNextOpcode_row bus pc
  rw [hfn, hi, hm]
  exact (opcodes_rows code hmem).1

lemma getNextOpcode_bytes :
    (getNextOpcode bus pc).bytes = (getNextOpcode bus pc).addressingMode.operandBytes + 1 := by
  obtain ⟨code, hmem, -, -, hb, -, hm⟩ := getNextOpcode_row bus pc
  rw [hb, hm]
  exact (opcodes_rows code hmem).2

/-- The first operand byte of a mode that has one. -/
lemma getNextOpcode_byte (h : 1 ≤ (getNextOpcode bus pc).addressingMode.operandBytes) :
    (getNextOpcode bus pc).byte = readMem bus (pc + 1) := by
  have hbytes := getNextOpcode_bytes bus pc
  rw [getNextOpcode_eq] at h hbytes ⊢
  exact if_pos (by dsimp only at h hbytes; omega)

/-- The second one. -/
lemma getNextOpcode_ignored (h : 2 ≤ (getNextOpcode bus pc).addressingMode.operandBytes) :
    (getNextOpcode bus pc).ignored = readMem bus (pc + 2) := by
  have hbytes := getNextOpcode_bytes bus pc
  rw [getNextOpcode_eq] at h hbytes ⊢
  exact if_pos (by dsimp only at h hbytes; omega)

lemma getNextOpcode_fits :
    (getNextOpcode bus pc).instruction.fits (getNextOpcode bus pc).addressingMode := by
  obtain ⟨code, hmem, -, hi, -, -, hm⟩ := getNextOpcode_row bus pc
  rw [hi, hm]
  exact opcodes_fits code hmem

end Fetched

/-- An instruction is the same on every bus that shows its bytes. -/
lemma getNextOpcode_congr {b c : Bus} {pc : U16}
    (h : ∀ i < (getNextOpcode c pc).bytes,
      readMem c (pc + BitVec.ofNat 16 i) = readMem b (pc + BitVec.ofNat 16 i)) :
    getNextOpcode b pc = getNextOpcode c pc := by
  have hpos : 0 < (getNextOpcode c pc).bytes := by
    rw [getNextOpcode_bytes]
    exact Nat.succ_pos _
  have hopcode : readMem c pc = readMem b pc := by simpa using h 0 hpos
  rw [getNextOpcode_eq] at h
  rw [getNextOpcode_eq, getNextOpcode_eq]
  rw [hopcode] at h ⊢
  generalize opcodes.get (readMem b pc).toFin = code at h ⊢
  dsimp only at h
  have hbyte : (if 2 ≤ code.bytes then readMem c (pc + 1) else code.byte) =
      if 2 ≤ code.bytes then readMem b (pc + 1) else code.byte :=
    ite_congr rfl (fun hlen => h 1 hlen) fun _ => rfl
  have hignored : (if 3 ≤ code.bytes then readMem c (pc + 2) else code.ignored) =
      if 3 ≤ code.bytes then readMem b (pc + 2) else code.ignored :=
    ite_congr rfl (fun hlen => h 2 hlen) fun _ => rfl
  rw [hbyte, hignored]

section Mode

variable {bus : Bus} {mode : AddressingMode}

lemma fetched_call (h : (fetched bus).addressingMode = mode) :
    (fetched bus).instructionFn = (fetched bus).instruction.fn mode := by
  rw [fetched, getNextOpcode_fn, ← fetched, h]

lemma fetched_fits {i : Instruction} (hi : (fetched bus).instruction = i)
    (hmode : (fetched bus).addressingMode = mode) : i.fits mode := by
  rw [← hi, ← hmode]
  exact getNextOpcode_fits bus bus.cpu.programCounter

lemma fetched_bytes (h : (fetched bus).addressingMode = mode) :
    (fetched bus).bytes = mode.operandBytes + 1 := by
  rw [fetched, getNextOpcode_bytes, ← fetched, h]

lemma fetched_byte (h : (fetched bus).addressingMode = mode) (hmode : 1 ≤ mode.operandBytes) :
    (fetched bus).byte = readMem bus (bus.cpu.programCounter + 1) :=
  getNextOpcode_byte _ _ (h ▸ hmode)

lemma fetched_ignored (h : (fetched bus).addressingMode = mode) (hmode : 2 ≤ mode.operandBytes) :
    (fetched bus).ignored = readMem bus (bus.cpu.programCounter + 2) :=
  getNextOpcode_ignored _ _ (h ▸ hmode)

end Mode

/-! ### Decoding only moves the program counter -/

lemma getOperandAddress_bus (bus : Bus) (opcode : OpCode) :
    (getOperandAddress bus opcode).2.2 =
      bus.skip (BitVec.ofNat 16 opcode.addressingMode.operandBytes) := by
  unfold getOperandAddress
  cases opcode.addressingMode <;> try rfl
  case accumulator => simp [AddressingMode.operandBytes, Bus.skip, Bus.onCpu]
  case implied => simp [AddressingMode.operandBytes, Bus.skip, Bus.onCpu]
  case indirect => dsimp only; split <;> rfl

/-- The bus on which the instruction runs is the old one with the program counter behind the
instruction. -/
lemma steppedOver_eq (bus : Bus) :
    steppedOver bus = bus.skip (BitVec.ofNat 16 (fetched bus).bytes) := by
  unfold steppedOver decoded
  rw [getOperandAddress_bus, skip_skip, fetched_bytes rfl, Nat.add_comm, BitVec.ofNat_add]
  rfl

lemma readMem_steppedOver (bus : Bus) (addr : U16) :
    readMem (steppedOver bus) addr = readMem bus addr := by
  rw [steppedOver_eq, readMem_skip]

/-- What the loop ticks for the instruction at the program counter. -/
def tickedCycles (bus : Bus) : ℕ :=
  if instructionHasAdditionalCycleOnPageCrossing (fetched bus).instruction
  then (fetched bus).cycles + (decoded bus).1 else (fetched bus).cycles

lemma runCpuIteration_tick (bus : Bus) : runCpuIteration bus =
    ((fetched bus).instructionFn.call (steppedOver bus) (operandAddress bus)).onCpu
      fun cpu => tick cpu (tickedCycles bus) :=
  rfl

/-- An iteration is the instruction, on the bus stepped over it, and some cycles. -/
lemma runCpuIteration_eq (bus : Bus) :
    ∃ cycles : ℕ, runCpuIteration bus =
      ((fetched bus).instructionFn.call (steppedOver bus) (operandAddress bus)).onCpu
        fun cpu => tick cpu cycles :=
  ⟨_, runCpuIteration_tick bus⟩

/-- The program counter after the step. -/
lemma runCpuIteration_programCounter (bus : Bus) : (runCpuIteration bus).cpu.programCounter =
    ((fetched bus).instructionFn.call (steppedOver bus) (operandAddress bus)).cpu.programCounter :=
  rfl

end NesEmulator
