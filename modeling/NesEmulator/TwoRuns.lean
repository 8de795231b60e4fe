import NesEmulator.Alike
import NesEmulator.StatusInvariant

/-!
Two runs side by side.

No instruction but PHP and BRK reads the decimal mode bit, and none reads the cycle counter.
So decimal mode makes no difference to a run without those two, and of what was before a
reset only the difference between two cycle counters is left.
-/

namespace NesEmulator

open Lib.Runs

/-! ### What an instruction reads -/

/-- The status flags that an instruction function reads. -/
def InstructionFn.reads : InstructionFn → StatusFlags → Prop
  | .adcFn, f | .sbcFn, f | .rolFn, f | .rorFn, f | .rolAccFn, f | .rorAccFn, f | .rlaFn, f
  | .rraFn, f | .isbFn, f | .bccFn, f | .bcsFn, f => f = .carryFlag
  | .beqFn, f | .bneFn, f => f = .zeroFlag
  | .bmiFn, f | .bplFn, f => f = .negativeFlag
  | .bvcFn, f | .bvsFn, f => f = .overflowFlag
  | .phpFn, _ | .brkFn, _ => True
  | _, _ => False

variable {seen : StatusFlags → Prop} {lag : Usize} {b c : Bus}

/-- **Instructions** take like to like, if they read seen flags only. -/
theorem call_alike {fn : InstructionFn} (h : Alike seen lag b c)
    (hreads : ∀ f, fn.reads f → seen f) (a : U16) :
    Alike seen lag (fn.call b a) (fn.call c a) := by
  cases fn
  case adcFn => exact h.adcFn a (hreads _ rfl)
  case sbcFn => exact h.sbcFn a (hreads _ rfl)
  case andFn => exact h.putAccumulator (by rw [h.readMem, h.cpu.accumulator])
  case oraFn => exact h.putAccumulator (by rw [h.readMem, h.cpu.accumulator])
  case eorFn => exact h.putAccumulator (by rw [h.readMem, h.cpu.accumulator])
  case ldaFn => exact h.ldaFn a
  case ldxFn => exact h.putX (h.readMem a)
  case ldyFn => exact h.putY (h.readMem a)
  case laxFn => exact (h.ldaFn a).putX ((h.ldaFn a).readMem a)
  case bitFn => exact h.bitFn a
  case cmpFn => exact h.compare h.cpu.accumulator (h.readMem a)
  case cpxFn => exact h.compare h.cpu.x (h.readMem a)
  case cpyFn => exact h.compare h.cpu.y (h.readMem a)
  -- shifts and counts
  case aslFn => exact h.aslFn a
  case lsrFn => exact h.lsrFn a
  case rolFn => exact h.rolFn a (hreads _ rfl)
  case rorFn => exact h.rorFn a (hreads _ rfl)
  case aslAccFn => exact h.putShiftedAcc (by rw [h.cpu.accumulator]) (by rw [h.cpu.accumulator])
  case lsrAccFn => exact h.putShiftedAcc (by rw [h.cpu.accumulator]) (by rw [h.cpu.accumulator])
  case rolAccFn =>
    exact h.putShiftedAcc (by rw [h.cpu.accumulator, h.cpu.carry (hreads _ rfl)])
      (by rw [h.cpu.accumulator])
  case rorAccFn =>
    exact h.putShiftedAcc (by rw [h.cpu.accumulator, h.cpu.carry (hreads _ rfl)])
      (by rw [h.cpu.accumulator])
  case incFn => exact h.incFn a
  case decFn => exact h.decFn a
  case inxFn => exact h.putX (by rw [h.cpu.x])
  case dexFn => exact h.putX (by rw [h.cpu.x])
  case inyFn => exact h.putY (by rw [h.cpu.y])
  case deyFn => exact h.putY (by rw [h.cpu.y])
  -- two official instructions, one after the other
  case sloFn =>
    have h' := h.aslFn a
    exact h'.putAccumulator (by rw [h'.readMem, h'.cpu.accumulator])
  case rlaFn =>
    have h' := h.rolFn a (hreads _ rfl)
    exact h'.putAccumulator (by rw [h'.readMem, h'.cpu.accumulator])
  case sreFn =>
    have h' := h.lsrFn a
    exact h'.putAccumulator (by rw [h'.readMem, h'.cpu.accumulator])
  case rraFn => exact (h.rorFn a (hreads _ rfl)).adcFn a (hreads _ rfl)
  case dcpFn =>
    have h' := h.decFn a
    exact h'.compare h'.cpu.accumulator (h'.readMem a)
  case isbFn => exact (h.incFn a).sbcFn a (hreads _ rfl)
  -- stores and transfers
  case staFn => exact h.writeMem a h.cpu.accumulator
  case stxFn => exact h.writeMem a h.cpu.x
  case styFn => exact h.writeMem a h.cpu.y
  case saxFn => exact h.writeMem a (by rw [h.cpu.accumulator, h.cpu.x])
  case taxFn => exact h.putX h.cpu.accumulator
  case tayFn => exact h.putY h.cpu.accumulator
  case tsxFn => exact h.putX h.cpu.stackPointer
  case txaFn => exact h.putAccumulator h.cpu.x
  case tyaFn => exact h.putAccumulator h.cpu.y
  case txsFn => exact h.txsFn a
  -- the stack
  case phaFn => exact h.pushStack h.cpu.accumulator
  case phpFn => exact h.pushStack (by rw [h.cpu.status fun f => hreads f trivial])
  case plaFn => exact h.popStack_snd.putAccumulator h.popStack_fst
  case plpFn => exact h.plpFn a
  case jsrFn => exact h.jsrFn a
  case rtsFn => exact h.rtsFn a
  case rtiFn => exact h.rtiFn a
  case brkFn => exact h.brkFn (fun f => hreads f trivial) a
  -- control
  case jmpFn => exact h.jmpFn a
  case bccFn => exact h.branchIf (by rw [h.cpu.flag _ (hreads _ rfl)]) a
  case bcsFn => exact h.branchIf (h.cpu.flag _ (hreads _ rfl)) a
  case beqFn => exact h.branchIf (h.cpu.flag _ (hreads _ rfl)) a
  case bneFn => exact h.branchIf (by rw [h.cpu.flag _ (hreads _ rfl)]) a
  case bmiFn => exact h.branchIf (h.cpu.flag _ (hreads _ rfl)) a
  case bplFn => exact h.branchIf (by rw [h.cpu.flag _ (hreads _ rfl)]) a
  case bvcFn => exact h.branchIf (by rw [h.cpu.flag _ (hreads _ rfl)]) a
  case bvsFn => exact h.branchIf (h.cpu.flag _ (hreads _ rfl)) a
  case clcFn => exact h.putFlagFn _ _ a
  case cldFn => exact h.putFlagFn _ _ a
  case cliFn => exact h.putFlagFn _ _ a
  case clvFn => exact h.putFlagFn _ _ a
  case secFn => exact h.putFlagFn _ _ a
  case sedFn => exact h.putFlagFn _ _ a
  case seiFn => exact h.putFlagFn _ _ a
  -- the others do nothing
  all_goals exact h

/-! ### One turn of the loop -/

lemma Alike.fetched (h : Alike seen lag b c) : fetched c = fetched b := by
  unfold NesEmulator.fetched
  rw [getNextOpcode_eq, getNextOpcode_eq, h.cpu.programCounter]
  simp only [h.readMem]

lemma Alike.getOperandAddress (h : Alike seen lag b c) (opcode : OpCode) :
    (getOperandAddress c opcode).1 = (getOperandAddress b opcode).1 ∧
      (getOperandAddress c opcode).2.1 = (getOperandAddress b opcode).2.1 := by
  unfold NesEmulator.getOperandAddress
  cases opcode.addressingMode <;>
    simp only [h.readMem, h.cpu.x, h.cpu.y, h.cpu.programCounter, and_self]
  split <;> exact ⟨rfl, rfl⟩

lemma Alike.decoded (h : Alike seen lag b c) : (decoded c).1 = (decoded b).1 ∧
    operandAddress c = operandAddress b ∧ Alike seen lag (steppedOver b) (steppedOver c) := by
  have hskip := (h.skip 1).getOperandAddress (NesEmulator.fetched b)
  refine ⟨?_, ?_, ?_⟩
  · rw [NesEmulator.decoded, h.fetched]
    exact hskip.1
  · rw [operandAddress, NesEmulator.decoded, h.fetched]
    exact hskip.2
  · rw [steppedOver_eq, steppedOver_eq, h.fetched]
    exact h.skip _

/-- **Steps** take like to like. -/
theorem runCpuIteration_alike (h : Alike seen lag b c)
    (hreads : ∀ f, (fetched b).instructionFn.reads f → seen f) :
    Alike seen lag (runCpuIteration b) (runCpuIteration c) := by
  obtain ⟨hcycles, haddr, hbus⟩ := h.decoded
  have hticked : tickedCycles c = tickedCycles b := by
    rw [tickedCycles, tickedCycles, h.fetched, hcycles]
  have hcall := call_alike hbus hreads (operandAddress b)
  rw [runCpuIteration_tick, runCpuIteration_tick, hticked, h.fetched, haddr]
  exact hcall.onCpu (hcall.cpu.tick _)

/-! ### Decimal mode -/

/-- The states differ in the decimal mode bit at most. -/
def SameButDecimal (b c : Bus) : Prop := Alike (· ≠ .decimalModeFlag) 0 b c

lemma reads_decimalModeFlag {i : Instruction} {mode : AddressingMode}
    (h : (i.fn mode).reads .decimalModeFlag) : i = .php ∨ i = .brk := by
  cases i
  case php => exact Or.inl rfl
  case brk => exact Or.inr rfl
  case asl | lsr | rol | ror => cases mode <;> simp [Instruction.fn, InstructionFn.reads] at h
  all_goals simp [Instruction.fn, InstructionFn.reads] at h

lemma SameButDecimal.step {b c : Bus} (h : SameButDecimal b c)
    (hi : (fetched b).instruction ≠ .php ∧ (fetched b).instruction ≠ .brk) :
    SameButDecimal (runCpuIteration b) (runCpuIteration c) := by
  refine runCpuIteration_alike h fun f hf => ?_
  rintro rfl
  rw [fetched_call rfl] at hf
  rcases reads_decimalModeFlag hf with heq | heq
  · exact hi.1 heq
  · exact hi.2 heq

/-- **Decimal mode is inert.** Started from two states that differ in the decimal mode bit at
most, iterations that execute neither PHP nor BRK execute the same instructions at the same
addresses, and lead to two such states. -/
theorem decimal_mode_inert {b c : Bus} (h : SameButDecimal b c) {n : ℕ}
    (hno : ∀ i < n, (fetched (runCpuIteration^[i] b)).instruction ≠ .php ∧
      (fetched (runCpuIteration^[i] b)).instruction ≠ .brk) :
    (∀ i < n, (runCpuIteration^[i] c).cpu.programCounter =
        (runCpuIteration^[i] b).cpu.programCounter ∧
      fetched (runCpuIteration^[i] c) = fetched (runCpuIteration^[i] b)) ∧
    SameButDecimal (runCpuIteration^[n] b) (runCpuIteration^[n] c) := by
  have hrun : ∀ m ≤ n, SameButDecimal (runCpuIteration^[m] b) (runCpuIteration^[m] c) :=
    fun m hm => iterate_related (fun _ _ => SameButDecimal.step) h fun i hi => hno i (by omega)
  refine ⟨fun i hi => ⟨?_, ?_⟩, hrun n (Nat.le_refl n)⟩
  · exact (hrun i (by omega)).cpu.programCounter
  · exact (hrun i (by omega)).fetched

/-- The bus with the decimal mode bit set. -/
def inDecimalMode (bus : Bus) : Bus := bus.onCpu fun cpu => cpu.putFlag .decimalModeFlag true

lemma sameButDecimal_inDecimalMode (bus : Bus) : SameButDecimal bus (inDecimalMode bus) := by
  refine ⟨⟨rfl, rfl, rfl, rfl, rfl, (BitVec.add_zero _).symm, fun f hf => ?_⟩, rfl, rfl⟩
  exact (flag_putFlag bus.cpu .decimalModeFlag f true).trans (if_neg hf)

/-- A bus whose RAM is full of ADC with an immediate operand. -/
def allAdc : Bus := { freshBus (constantRom 0) with cpuRam := fun _ => 0x69 }

theorem allAdc_inert :
    (∀ i < 3, (runCpuIteration^[i] (inDecimalMode allAdc)).cpu.programCounter =
        (runCpuIteration^[i] allAdc).cpu.programCounter ∧
      fetched (runCpuIteration^[i] (inDecimalMode allAdc)) =
        fetched (runCpuIteration^[i] allAdc)) ∧
    SameButDecimal (runCpuIteration^[3] allAdc) (runCpuIteration^[3] (inDecimalMode allAdc)) :=
  decimal_mode_inert (sameButDecimal_inDecimalMode allAdc) (by decide)

/-! ### Reset -/

/-- A reset overwrites all that an instruction reads. -/
lemma busReset_alike (bus : Bus) (cpu : CPU) :
    Alike (fun _ => True) (cpu.cycles - bus.cpu.cycles) (busReset bus)
      (busReset { bus with cpu }) := by
  have hcycles : ∀ p q r : Usize, p + r = q + r + (p - q) := by grind
  exact ⟨⟨rfl, rfl, rfl, rfl, rfl, hcycles _ _ _, fun _ _ => rfl⟩, rfl, rfl⟩

/-- An observer of all flags sees all but the lag. -/
lemma Alike.eq_onCpu {b c : Bus} (h : Alike (fun _ => True) lag b c) :
    c = b.onCpu fun cpu => { cpu with cycles := cpu.cycles + lag } := by
  have hstatus := h.cpu.status fun _ => trivial
  obtain ⟨⟨hpc, hs, ha, hx, hy, hcycles, -⟩, hcart, hram⟩ := h
  obtain ⟨cpu, cart, ram⟩ := c
  obtain ⟨pc, s, a, x, y, cycles, status⟩ := cpu
  dsimp only at hpc hs ha hx hy hcycles hstatus hcart hram
  subst hpc hs ha hx hy hcycles hstatus hcart hram
  rfl

/-- **Reset erases the past.** Whatever the CPU was doing before, after the reset and any number
of iterations the states are the same but for the cycle counters, which differ as they did
before. -/
theorem reset_erases_past (bus : Bus) (cpu : CPU) (n : ℕ) :
    afterReset { bus with cpu } n =
      (afterReset bus n).onCpu fun c =>
        { c with cycles := c.cycles + (cpu.cycles - bus.cpu.cycles) } := by
  have hstep : ∀ b c, Alike (fun _ => True) (cpu.cycles - bus.cpu.cycles) b c → True →
      Alike (fun _ => True) (cpu.cycles - bus.cpu.cycles) (runCpuIteration b)
        (runCpuIteration c) :=
    fun b c h _ => runCpuIteration_alike h fun _ _ => trivial
  exact (iterate_related hstep (busReset_alike bus cpu) fun _ _ => trivial).eq_onCpu

end NesEmulator
