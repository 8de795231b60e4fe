import NesEmulator.Decoding

/-!
What the instructions leave alone.

No instruction touches the cartridge, and each writes a fixed set of registers and status flags.
The shared bodies are settled first, the instructions by cases on their function, and the loop
and the runs from there.
-/

namespace NesEmulator

open Lib.Runs

/-! ### Stack and branches -/

@[simp] lemma pushStack_cartridge (bus : Bus) (v : U8) :
    (pushStack bus v).cartridge = bus.cartridge := by
  rw [pushStack_eq]

@[simp] lemma popStack_cartridge (bus : Bus) : (popStack bus).2.cartridge = bus.cartridge := by
  rw [popStack_eq]

@[simp] lemma branchIf_cartridge (c : Bool) (bus : Bus) (rel : U16) :
    (branchIf c bus rel).cartridge = bus.cartridge := by
  cases c <;> rfl

@[simp] lemma pushStack_cpuRam (bus : Bus) (v : U8) (k : Fin 0x800) :
    (pushStack bus v).cpuRam k =
      if k = stackCell bus.cpu.stackPointer then v else bus.cpuRam k := by
  rw [pushStack_eq]
  exact Function.update_apply ..

@[simp] lemma popStack_cpuRam (bus : Bus) : (popStack bus).2.cpuRam = bus.cpuRam := by
  rw [popStack_eq]

@[simp] lemma branchIf_cpuRam (c : Bool) (bus : Bus) (rel : U16) :
    (branchIf c bus rel).cpuRam = bus.cpuRam := by
  cases c <;> rfl

@[simp] lemma pushStack_programCounter (bus : Bus) (v : U8) :
    (pushStack bus v).cpu.programCounter = bus.cpu.programCounter := by
  rw [pushStack_eq]

@[simp] lemma popStack_programCounter (bus : Bus) :
    (popStack bus).2.cpu.programCounter = bus.cpu.programCounter := by
  rw [popStack_eq]

@[simp] lemma pushStack_cycles (bus : Bus) (v : U8) :
    (pushStack bus v).cpu.cycles = bus.cpu.cycles := by
  rw [pushStack_eq]

@[simp] lemma popStack_cycles (bus : Bus) : (popStack bus).2.cpu.cycles = bus.cpu.cycles := by
  rw [popStack_eq]

@[simp] lemma pushStack_flag (bus : Bus) (v : U8) (f : StatusFlags) :
    (pushStack bus v).cpu.flag f = bus.cpu.flag f := by
  rw [pushStack_eq]
  rfl

@[simp] lemma popStack_flag (bus : Bus) (f : StatusFlags) :
    (popStack bus).2.cpu.flag f = bus.cpu.flag f := by
  rw [popStack_eq]
  rfl

@[simp] lemma branchIf_flag (c : Bool) (bus : Bus) (rel : U16) (f : StatusFlags) :
    (branchIf c bus rel).cpu.flag f = bus.cpu.flag f := by
  unfold branchIf branch
  cases c
  · rfl
  · simp only [if_true, onCpu_cpu]
    split <;> rfl

lemma flag_putPulledStatus (cpu : CPU) (value : U8) (f : StatusFlags) :
    (putPulledStatus cpu value).flag f =
      if f = .unusedFlag then true
      else if f = .breakCommand then false else value.getLsbD f.bit := by
  simp only [putPulledStatus, flag_putFlag]
  rfl

@[simp] lemma flag_mk (pc : U16) (s a x y : U8) (cycles : Usize) (status : U8) (f : StatusFlags) :
    (CPU.mk pc s a x y cycles status).flag f = status.getLsbD f.bit := rfl

@[simp] lemma status_getLsbD_bit (cpu : CPU) (f : StatusFlags) :
    cpu.status.getLsbD f.bit = cpu.flag f := rfl

/-! ### Registers -/

section Registers

variable (bus : Bus) (value : U8) (r : Register)

@[simp] lemma putPulledStatus_register (cpu : CPU) :
    (putPulledStatus cpu value).register r = cpu.register r := by
  cases r <;> rfl

@[simp] lemma branchIf_register (c : Bool) (rel : U16) :
    (branchIf c bus rel).cpu.register r = bus.cpu.register r := by
  unfold branchIf branch
  cases c
  · rfl
  · simp only [if_true, onCpu_cpu]
    split <;> cases r <;> rfl

/-- The end of an instruction that sets the program counter. -/
lemma transfer_register (pc : U16) :
    (bus.onCpu fun cpu => { cpu with programCounter := pc }).cpu.register r =
      bus.cpu.register r := by
  cases r <;> rfl

@[simp] lemma putShifted_register (a : U16) (c : Bool) :
    (putShifted bus a value c).cpu.register r = bus.cpu.register r := by
  simp [putShifted]

@[simp] lemma compare_register (v m : U8) :
    (compare bus v m).cpu.register r = bus.cpu.register r := by
  simp [compare]

variable {r}

lemma pushStack_register (h : r ≠ .stackPointer) :
    (pushStack bus value).cpu.register r = bus.cpu.register r := by
  rw [pushStack_eq]
  cases r <;> first | rfl | exact absurd rfl h

lemma popStack_register (h : r ≠ .stackPointer) :
    (popStack bus).2.cpu.register r = bus.cpu.register r := by
  rw [popStack_eq]
  cases r <;> first | rfl | exact absurd rfl h

lemma popStackU16_register (h : r ≠ .stackPointer) :
    (popStackU16 bus).2.cpu.register r = bus.cpu.register r :=
  (popStack_register _ h).trans (popStack_register bus h)

lemma putAccumulator_register (h : r ≠ .accumulator) :
    (putAccumulator bus value).cpu.register r = bus.cpu.register r := by
  cases r <;> first | rfl | exact absurd rfl h

lemma putX_register (h : r ≠ .x) : (putX bus value).cpu.register r = bus.cpu.register r := by
  cases r <;> first | rfl | exact absurd rfl h

lemma putY_register (h : r ≠ .y) : (putY bus value).cpu.register r = bus.cpu.register r := by
  cases r <;> first | rfl | exact absurd rfl h

lemma addWithCarry_register (M : U16) (h : r ≠ .accumulator) :
    (addWithCarry bus M).cpu.register r = bus.cpu.register r := by
  simp only [addWithCarry, onCpu_cpu, setFlag_register, updateZeroAndNegativeFlags_register]
  cases r <;> first | rfl | exact absurd rfl h

lemma putShiftedAcc_register (c : Bool) (h : r ≠ .accumulator) :
    (putShiftedAcc bus value c).cpu.register r = bus.cpu.register r := by
  have hflag := setFlag_register bus.cpu .carryFlag c r
  rw [putShiftedAcc, onCpu_cpu, updateZeroAndNegativeFlags_register, ← hflag]
  cases r <;> first | rfl | exact absurd rfl h

end Registers

/-! ### The instructions -/

/-- The registers that an instruction function may write. -/
def InstructionFn.registers : InstructionFn → List Register
  | .adcFn | .sbcFn | .andFn | .oraFn | .eorFn | .ldaFn | .txaFn | .tyaFn | .aslAccFn | .lsrAccFn
  | .rolAccFn | .rorAccFn | .sloFn | .rlaFn | .sreFn | .rraFn | .isbFn => [.accumulator]
  | .ldxFn | .taxFn | .tsxFn | .inxFn | .dexFn => [.x]
  | .ldyFn | .tayFn | .inyFn | .deyFn => [.y]
  | .laxFn => [.accumulator, .x]
  | .plaFn => [.accumulator, .stackPointer]
  | .phaFn | .phpFn | .plpFn | .jsrFn | .rtsFn | .rtiFn | .brkFn | .txsFn => [.stackPointer]
  | _ => []

/-- The status flags that an instruction function may write. -/
def InstructionFn.flags : InstructionFn → List StatusFlags
  | .adcFn | .sbcFn | .rraFn | .isbFn => [.carryFlag, .zeroFlag, .negativeFlag, .overflowFlag]
  | .aslFn | .lsrFn | .rolFn | .rorFn | .aslAccFn | .lsrAccFn | .rolAccFn | .rorAccFn
  | .cmpFn | .cpxFn | .cpyFn | .sloFn | .rlaFn | .sreFn | .dcpFn =>
    [.carryFlag, .zeroFlag, .negativeFlag]
  | .andFn | .oraFn | .eorFn | .ldaFn | .ldxFn | .ldyFn | .laxFn | .plaFn | .taxFn | .tayFn
  | .tsxFn | .txaFn | .tyaFn | .inxFn | .inyFn | .dexFn | .deyFn | .incFn | .decFn =>
    [.zeroFlag, .negativeFlag]
  | .bitFn => [.zeroFlag, .overflowFlag, .negativeFlag]
  | .clcFn | .secFn => [.carryFlag]
  | .cldFn | .sedFn => [.decimalModeFlag]
  | .cliFn | .seiFn => [.interruptDisable]
  | .clvFn => [.overflowFlag]
  | .brkFn => [.breakCommand]
  | .plpFn | .rtiFn =>
    [.carryFlag, .zeroFlag, .interruptDisable, .decimalModeFlag, .breakCommand, .unusedFlag,
      .overflowFlag, .negativeFlag]
  | _ => []

/-- The cells that an instruction function may write, called with an operand address `a` while
the stack pointer is `s`. -/
def InstructionFn.cells (fn : InstructionFn) (a : U16) (s : U8) : List (Fin 0x800) :=
  match fn with
  | .staFn | .stxFn | .styFn | .saxFn | .aslFn | .lsrFn | .rolFn | .rorFn | .incFn | .decFn
  | .sloFn | .rlaFn | .sreFn | .rraFn | .dcpFn | .isbFn => (writtenCell a).toList
  | .phaFn | .phpFn => [stackCell s]
  | .jsrFn => [stackCell s, stackCell (s - 1)]
  | .brkFn => [stackCell s, stackCell (s - 1), stackCell (s - 2)]
  | _ => []

/-- The functions that tick by themselves. -/
def InstructionFn.branches : InstructionFn → Bool
  | .bccFn | .bcsFn | .beqFn | .bmiFn | .bneFn | .bplFn | .bvcFn | .bvsFn => true
  | _ => false

/-- The functions that set the program counter. -/
def InstructionFn.transfers : InstructionFn → Bool
  | .jmpFn | .jsrFn | .rtsFn | .rtiFn | .brkFn => true
  | fn => fn.branches

section Unfolded

attribute [local simp] InstructionFn.call putFlagFn noEffect pushStackU16 popStackU16
  adcFn andFn aslFn bccFn bcsFn beqFn bitFn bmiFn bneFn bplFn brkFn bvcFn bvsFn clcFn cldFn cliFn
  clvFn cmpFn cpxFn cpyFn decFn dexFn deyFn eorFn incFn inxFn inyFn jmpFn jsrFn ldaFn ldxFn ldyFn
  lsrFn nopFn oraFn phaFn phpFn plaFn plpFn rolFn rorFn rtiFn rtsFn sbcFn secFn sedFn seiFn staFn
  stxFn styFn taxFn tayFn tsxFn txaFn txsFn tyaFn aslAccFn lsrAccFn rolAccFn rorAccFn jamFn sloFn
  ancFn rlaFn sreFn alrFn rraFn arrFn saxFn aneFn shaFn tasFn shyFn shxFn laxFn lxaFn lasFn dcpFn
  sbxFn isbFn

/-- **An instruction changes no register but its own.** -/
theorem call_register {fn : InstructionFn} {r : Register} (h : r ∉ fn.registers) (bus : Bus)
    (operandAddress : U16) :
    (fn.call bus operandAddress).cpu.register r = bus.cpu.register r := by
  cases fn
  all_goals simp [InstructionFn.registers] at h
  case jmpFn => exact transfer_register ..
  case jsrFn => exact (transfer_register ..).trans (by simp [h, pushStack_register])
  case brkFn => exact (transfer_register ..).trans (by simp [h, pushStack_register])
  case rtsFn => exact (transfer_register ..).trans (popStackU16_register bus h)
  case rtiFn =>
    exact (transfer_register ..).trans ((popStackU16_register _ h).trans
      ((putPulledStatus_register ..).trans (popStack_register bus h)))
  case txsFn => cases r <;> first | rfl | exact absurd rfl h
  all_goals simp [h, pushStack_register, popStack_register, putAccumulator_register,
    putX_register, putY_register, addWithCarry_register, putShiftedAcc_register]

-- from here on the shared bodies are unfolded, too
attribute [local simp] putAccumulator putX putY addWithCarry compare putShifted putShiftedAcc
  flag_putPulledStatus

/-- **No instruction touches the cartridge.** -/
theorem call_cartridge (fn : InstructionFn) (bus : Bus) (operandAddress : U16) :
    (fn.call bus operandAddress).cartridge = bus.cartridge := by
  cases fn <;> simp

/-- **An instruction changes no flag but its own.** -/
theorem call_flag {fn : InstructionFn} {f : StatusFlags} (h : f ∉ fn.flags) (bus : Bus)
    (operandAddress : U16) : (fn.call bus operandAddress).cpu.flag f = bus.cpu.flag f := by
  cases fn
  -- a pulled status byte brings a value for every flag
  case plpFn => cases f <;> simp [InstructionFn.flags] at h
  case rtiFn => cases f <;> simp [InstructionFn.flags] at h
  all_goals simp [InstructionFn.flags] at h ⊢ <;> simp [h]

/-- **An instruction changes no cell but its own.** -/
theorem call_cpuRam {fn : InstructionFn} {bus : Bus} {a : U16} {k : Fin 0x800}
    (h : k ∉ fn.cells a bus.cpu.stackPointer) : (fn.call bus a).cpuRam k = bus.cpuRam k := by
  cases fn
  -- the three bytes that BRK pushes, one below the other
  case brkFn =>
    simp [InstructionFn.cells] at h
    simp [BitVec.sub_sub, h]
  all_goals simp [InstructionFn.cells, writeMem_cpuRam] at h ⊢ <;> simp [h]

/-- An instruction that does not jump leaves the program counter behind itself. -/
theorem call_programCounter {fn : InstructionFn} (h : fn.transfers = false) (bus : Bus)
    (a : U16) : (fn.call bus a).cpu.programCounter = bus.cpu.programCounter := by
  cases fn
  all_goals simp [InstructionFn.transfers, InstructionFn.branches] at h ⊢
  case plpFn => rfl

/-- Only a branch ticks by itself. -/
theorem call_cycles {fn : InstructionFn} (h : fn.branches = false) (bus : Bus) (a : U16) :
    (fn.call bus a).cpu.cycles = bus.cpu.cycles := by
  cases fn
  all_goals simp [InstructionFn.branches] at h ⊢
  case plpFn => rfl
  case rtiFn => rfl

end Unfolded

/-! ### Iterations and runs -/

@[simp] lemma runCpuIteration_cartridge (bus : Bus) :
    (runCpuIteration bus).cartridge = bus.cartridge := by
  obtain ⟨cycles, h⟩ := runCpuIteration_eq bus
  rw [h, onCpu_cartridge, call_cartridge, steppedOver_eq, skip_cartridge]

lemma iterate_cartridge (bus : Bus) (i : ℕ) :
    (runCpuIteration^[i] bus).cartridge = bus.cartridge := by
  induction i with
  | zero => rfl
  | succ i ih => rw [Function.iterate_succ_apply', runCpuIteration_cartridge, ih]

lemma apply_cartridge (bus : Bus) (e : Event) : (bus.apply e).cartridge = bus.cartridge := by
  cases e with
  | reset => rfl
  | iteration => exact runCpuIteration_cartridge bus
  | write addr value => exact writeMem_cartridge bus addr value

/-- **No run touches the cartridge.** -/
theorem after_cartridge (bus : Bus) (events : List Event) :
    (bus.after events).cartridge = bus.cartridge :=
  run_frame Bus.apply Bus.cartridge events (fun e _ b => apply_cartridge b e) bus

/-- Above RAM a read sees the cartridge only, so no run changes it. -/
theorem readMem_after (bus : Bus) (events : List Event) {addr : U16} (h : 0x2000 < addr.toNat) :
    readMem (bus.after events) addr = readMem bus addr :=
  readMem_above (after_cartridge bus events) h

/-- An iteration changes no flag but those of the instruction it executes. -/
theorem runCpuIteration_flag {bus : Bus} {f : StatusFlags}
    (h : f ∉ (fetched bus).instructionFn.flags) :
    (runCpuIteration bus).cpu.flag f = bus.cpu.flag f := by
  obtain ⟨cycles, heq⟩ := runCpuIteration_eq bus
  rw [heq, onCpu_cpu, flag_tick, call_flag h, steppedOver_eq]
  rfl

/-- An iteration changes no cell but those of the instruction it executes. -/
theorem runCpuIteration_cpuRam {bus : Bus} {k : Fin 0x800}
    (h : k ∉ (fetched bus).instructionFn.cells (operandAddress bus) bus.cpu.stackPointer) :
    (runCpuIteration bus).cpuRam k = bus.cpuRam k := by
  obtain ⟨cycles, heq⟩ := runCpuIteration_eq bus
  have hptr : (steppedOver bus).cpu.stackPointer = bus.cpu.stackPointer := by
    rw [steppedOver_eq]
    rfl
  rw [← hptr] at h
  rw [heq, onCpu_cpuRam, call_cpuRam h, steppedOver_eq, skip_cpuRam]

/-- An iteration changes no register but those of the instruction it executes. -/
theorem runCpuIteration_register {bus : Bus} {r : Register}
    (h : r ∉ (fetched bus).instructionFn.registers) :
    (runCpuIteration bus).cpu.register r = bus.cpu.register r := by
  obtain ⟨cycles, heq⟩ := runCpuIteration_eq bus
  rw [heq, onCpu_cpu, tick_register, call_register h, steppedOver_eq]
  cases r <;> rfl

end NesEmulator
