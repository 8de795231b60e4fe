import NesEmulator.CombinedInstructions

/-!
Who changes which register and which flag.

Which function writes what is settled by cases on the functions. The table then says which
instructions have such a function, and every step of the loop is one row of it.
-/

namespace NesEmulator

/-! ### The lists -/

/-- The shifts and rotates, which have an accumulator mode. -/
def shiftInstructions : List Instruction := [.asl, .lsr, .rol, .ror]

/-- The instructions that may change a register in any mode. -/
def Register.changedBy : Register → List Instruction
  | .accumulator =>
    [.lda, .adc, .sbc, .and, .ora, .eor, .pla, .txa, .tya, .lax, .slo, .rla, .sre, .rra, .isb]
  | .x => [.ldx, .tax, .tsx, .inx, .dex, .lax]
  | .y => [.ldy, .tay, .iny, .dey]
  | .stackPointer => [.pha, .php, .pla, .plp, .jsr, .rts, .rti, .brk, .txs]

/-- An instruction is listed for a register, or is an accumulator shift. -/
def Register.ListedFor (r : Register) (i : Instruction) (mode : AddressingMode) : Prop :=
  i ∈ r.changedBy ∨ (r = .accumulator ∧ i ∈ shiftInstructions ∧ mode = .accumulator)

instance (r : Register) (i : Instruction) (mode : AddressingMode) :
    Decidable (r.ListedFor i mode) :=
  inferInstanceAs (Decidable (_ ∨ _))

/-- The instructions after which zero and negative flag tell about a byte. -/
def resultInstructions : List Instruction :=
  Register.accumulator.changedBy ++ Register.x.changedBy ++ Register.y.changedBy ++
    shiftInstructions ++ [.inc, .dec] ++ [.cmp, .cpx, .cpy, .dcp]

/-- The instructions that may change a flag. -/
def StatusFlags.changedBy : StatusFlags → List Instruction
  | .carryFlag =>
    [.adc, .sbc, .asl, .lsr, .rol, .ror, .cmp, .cpx, .cpy, .clc, .sec, .plp, .rti, .slo, .rla,
      .sre, .rra, .dcp, .isb]
  | .overflowFlag => [.adc, .sbc, .bit, .clv, .plp, .rti, .rra, .isb]
  | .interruptDisable => [.cli, .sei, .plp, .rti]
  | .decimalModeFlag => [.cld, .sed, .plp, .rti]
  | .breakCommand => [.brk, .plp, .rti]
  | .unusedFlag => [.plp, .rti]
  | .zeroFlag | .negativeFlag => resultInstructions ++ [.bit, .plp, .rti]

/-- The byte that an instruction makes of the byte at its operand address, and does not put into a
register: the shifted one, the counted one, or the difference. DCP compares with what it finds
where it has written. -/
def computedByte (bus : Bus) (a : U16) : Instruction → Option U8
  | .asl => some (readMem bus a <<< 1)
  | .lsr => some (readMem bus a >>> 1)
  | .rol => some ((readMem bus a <<< 1) ||| bus.cpu.carry)
  | .ror => some ((readMem bus a >>> 1) ||| (bus.cpu.carry <<< 7))
  | .inc => some (readMem bus a + 1)
  | .dec => some (readMem bus a - 1)
  | .cmp => some (bus.cpu.accumulator - readMem bus a)
  | .cpx => some (bus.cpu.x - readMem bus a)
  | .cpy => some (bus.cpu.y - readMem bus a)
  | .dcp => some (bus.cpu.accumulator - reread bus a (readMem bus a - 1))
  | _ => none

/-- What is wanted of a step: registers and flags change for the listed instructions only, and zero
and negative flag tell about the byte that has been put into a register or computed. -/
structure Disciplined (bus : Bus) : Prop where
  flag : ∀ f : StatusFlags, (runCpuIteration bus).cpu.flag f ≠ bus.cpu.flag f →
    (fetched bus).instruction ∈ f.changedBy
  register : ∀ r : Register, (runCpuIteration bus).cpu.register r ≠ bus.cpu.register r →
    r.ListedFor (fetched bus).instruction (fetched bus).addressingMode
  written : ∀ r : Register, r ≠ .stackPointer →
    r.ListedFor (fetched bus).instruction (fetched bus).addressingMode →
      FlagsFollow (runCpuIteration bus) ((runCpuIteration bus).cpu.register r)
  computed : (fetched bus).addressingMode ≠ .accumulator → ∀ v,
    computedByte bus (operandAddress bus) (fetched bus).instruction = some v →
      FlagsFollow (runCpuIteration bus) v

/-! ### Zero and negative flag -/

section Follow

variable (bus : Bus) (v : U8)

lemma updateZeroAndNegativeFlags_follows (f : CPU → CPU) :
    FlagsFollow (bus.onCpu fun cpu => updateZeroAndNegativeFlags (f cpu) v) v :=
  ⟨updated_flag v _ .zeroFlag, updated_flag v _ .negativeFlag⟩

lemma addWithCarry_follows (m : U8) :
    FlagsFollow (addWithCarry bus (m.setWidth 16)) (sumByte bus.cpu m) :=
  ⟨by simp, by simp⟩

lemma putShiftedAcc_follows (c : Bool) : FlagsFollow (putShiftedAcc bus v c) v :=
  ⟨by simp, by simp⟩

lemma putShifted_follows (a : U16) (c : Bool) : FlagsFollow (putShifted bus a v c) v :=
  ⟨by simp, by simp⟩

lemma compare_follows (r m : U8) : FlagsFollow (compare bus r m) (r - m) :=
  ⟨by simp, by simp⟩

end Follow

/-- An addition leaves its sum in the accumulator. -/
lemma addWithCarry_follows_accumulator (bus : Bus) (m : U8) :
    FlagsFollow (addWithCarry bus (m.setWidth 16))
      ((addWithCarry bus (m.setWidth 16)).cpu.register .accumulator) := by
  have hsum : (addWithCarry bus (m.setWidth 16)).cpu.register .accumulator = sumByte bus.cpu m :=
    addWithCarry_accumulator bus m
  rw [hsum]
  exact addWithCarry_follows bus m

/-- **A byte put into a register** is what zero and negative flag tell about. -/
theorem call_follows_register {fn : InstructionFn} {r : Register} (h : r ∈ fn.registers)
    (hr : r ≠ .stackPointer) (bus : Bus) (a : U16) :
    FlagsFollow (fn.call bus a) ((fn.call bus a).cpu.register r) := by
  cases fn
  all_goals simp [InstructionFn.registers, hr] at h
  all_goals try subst h
  case adcFn => exact addWithCarry_follows_accumulator ..
  case rraFn => exact addWithCarry_follows_accumulator ..
  case sbcFn =>
    have hsbc : InstructionFn.sbcFn.call bus a = sbcFn bus a := rfl
    rw [hsbc, sbcFn_eq]
    exact addWithCarry_follows_accumulator ..
  case isbFn =>
    have hisb : InstructionFn.isbFn.call bus a = sbcFn (incFn bus a) a := rfl
    rw [hisb, sbcFn_eq]
    exact addWithCarry_follows_accumulator ..
  case aslAccFn | lsrAccFn | rolAccFn | rorAccFn => exact putShiftedAcc_follows ..
  case laxFn =>
    -- both registers get the same byte, and the second read finds what the first one found
    have hread : readMem (ldaFn bus a) a = readMem bus a := readMem_congr rfl rfl a
    rcases h with rfl | rfl
    · have hfollow : FlagsFollow (laxFn bus a) (readMem (ldaFn bus a) a) :=
        updateZeroAndNegativeFlags_follows ..
      rw [hread] at hfollow
      exact hfollow
    · exact updateZeroAndNegativeFlags_follows ..
  all_goals exact updateZeroAndNegativeFlags_follows ..

/-- In any other mode a shift or rotate works on memory. -/
lemma shift_fn {mode : AddressingMode} (h : mode ≠ .accumulator) :
    Instruction.asl.fn mode = .aslFn ∧ Instruction.lsr.fn mode = .lsrFn ∧
      Instruction.rol.fn mode = .rolFn ∧ Instruction.ror.fn mode = .rorFn := by
  cases mode <;> first | exact absurd rfl h | exact ⟨rfl, rfl, rfl, rfl⟩

/-- **A byte computed** and not put into a register is what they tell about, too. -/
theorem call_follows_computed {i : Instruction} {mode : AddressingMode} {bus : Bus} {a : U16}
    {v : U8} (hmode : mode ≠ .accumulator) (h : computedByte bus a i = some v) :
    FlagsFollow ((i.fn mode).call bus a) v := by
  obtain ⟨hasl, hlsr, hrol, hror⟩ := shift_fn hmode
  cases i
  all_goals simp [computedByte] at h
  all_goals subst h
  case asl => rw [hasl]; exact putShifted_follows ..
  case lsr => rw [hlsr]; exact putShifted_follows ..
  case rol => rw [hrol]; exact putShifted_follows ..
  case ror => rw [hror]; exact putShifted_follows ..
  case inc => exact updateZeroAndNegativeFlags_follows _ _ id
  case dec =>
    have hfollow := updateZeroAndNegativeFlags_follows bus (readMem bus a - 1) id
    have hdec : (decFn bus a).cpu = updateZeroAndNegativeFlags bus.cpu (readMem bus a - 1) :=
      writeMem_cpu ..
    change FlagsFollow (decFn bus a) _
    unfold FlagsFollow at hfollow ⊢
    rw [hdec]
    exact hfollow
  case cmp => exact compare_follows ..
  case cpx => exact compare_follows ..
  case cpy => exact compare_follows ..
  case dcp =>
    have hfirst := handed_decFn bus a
    change FlagsFollow (compare (decFn bus a) _ _) _
    rw [hfirst.accumulator, hfirst.read]
    exact compare_follows ..

/-! ### The table -/

set_option maxRecDepth 4000 in
lemma opcodes_flags : ∀ code ∈ opcodes.toList, ∀ f ∈ code.instructionFn.flags,
    code.instruction ∈ f.changedBy := by
  decide +kernel

set_option maxRecDepth 4000 in
lemma opcodes_registers : ∀ code ∈ opcodes.toList,
    ∀ r ∈ [Register.accumulator, .x, .y, .stackPointer],
      r ∈ code.instructionFn.registers ↔ r.ListedFor code.instruction code.addressingMode := by
  decide +kernel

section Step

variable (bus : Bus)

lemma fetched_listed {f : StatusFlags} (h : f ∈ (fetched bus).instructionFn.flags) :
    (fetched bus).instruction ∈ f.changedBy := by
  obtain ⟨code, hmem, hfn, hi, -⟩ := getNextOpcode_row bus bus.cpu.programCounter
  rw [fetched, hfn] at h
  rw [fetched, hi]
  exact opcodes_flags code hmem f h

lemma mem_registers_iff (r : Register) : r ∈ (fetched bus).instructionFn.registers ↔
    r.ListedFor (fetched bus).instruction (fetched bus).addressingMode := by
  obtain ⟨code, hmem, hfn, hi, -, -, hmode⟩ := getNextOpcode_row bus bus.cpu.programCounter
  rw [fetched, hfn, hi, hmode]
  exact opcodes_registers code hmem r (by cases r <;> simp)

lemma computedByte_skip (n a : U16) (i : Instruction) :
    computedByte (bus.skip n) a i = computedByte bus a i := by
  have hcarry : (bus.skip n).cpu.carry = bus.cpu.carry := rfl
  cases i
  all_goals simp [computedByte, reread, hcarry]
  all_goals rfl

/-- The cycles that are ticked behind an instruction do not touch its flags. -/
lemma runCpuIteration_follows {v : U8}
    (h : FlagsFollow ((fetched bus).instructionFn.call (steppedOver bus) (operandAddress bus)) v) :
    FlagsFollow (runCpuIteration bus) v :=
  h

end Step

/-- **Register and flag discipline.** Every step, in every state. -/
theorem step_disciplined (bus : Bus) : Disciplined bus := by
  refine ⟨fun f hne => ?_, fun r hne => ?_, fun r hr hlisted => ?_, fun hmode v hv => ?_⟩
  · by_contra hnot
    exact hne (runCpuIteration_flag fun hmem => hnot (fetched_listed bus hmem))
  · rw [← mem_registers_iff]
    by_contra hnot
    exact hne (runCpuIteration_register hnot)
  · rw [← mem_registers_iff] at hlisted
    have hcall := call_follows_register hlisted hr (steppedOver bus) (operandAddress bus)
    have hsame : (runCpuIteration bus).cpu.register r =
        ((fetched bus).instructionFn.call (steppedOver bus) (operandAddress bus)).cpu.register r :=
      tick_register _ _ _
    rw [hsame]
    exact runCpuIteration_follows bus hcall
  · rw [← computedByte_skip bus (BitVec.ofNat 16 (fetched bus).bytes), ← steppedOver_eq] at hv
    refine runCpuIteration_follows bus ?_
    rw [fetched_call rfl]
    exact call_follows_computed hmode hv

end NesEmulator
