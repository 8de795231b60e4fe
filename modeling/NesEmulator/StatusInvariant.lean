import NesEmulator.InterruptLinkage

/-!
The unused and break bits along a run.

BRK sets the break bit of the live status, PLP and RTI clear it whatever they pull, and no
other instruction touches it; the unused bit is set by reset and never cleared.
-/

namespace NesEmulator

open Lib.Runs

/-! ### Who writes the two bits -/

lemma unusedFlag_mem_flags {fn : InstructionFn} (h : .unusedFlag ∈ fn.flags) :
    fn = .plpFn ∨ fn = .rtiFn := by
  cases fn <;> simp [InstructionFn.flags] at h ⊢

lemma breakCommand_mem_flags {fn : InstructionFn} (h : .breakCommand ∈ fn.flags) :
    fn = .brkFn ∨ fn = .plpFn ∨ fn = .rtiFn := by
  cases fn <;> simp [InstructionFn.flags] at h ⊢

lemma brkFn_break (bus : Bus) (a : U16) : (brkFn bus a).cpu.flag .breakCommand = true := by
  obtain ⟨vector, heq⟩ := brkFn_eq bus a
  rw [heq]
  simp

/-- Whatever PLP and RTI pull. -/
lemma pulled_flag {fn : InstructionFn} (h : fn = .plpFn ∨ fn = .rtiFn) (bus : Bus) (a : U16) :
    (fn.call bus a).cpu.flag .unusedFlag = true ∧
      (fn.call bus a).cpu.flag .breakCommand = false := by
  have hpulled : ∀ f, (fn.call bus a).cpu.flag f =
      (putPulledStatus bus.cpu (popStack bus).1).flag f := by
    intro f
    rcases h with rfl | rfl <;> rfl
  rw [hpulled, hpulled, flag_putPulledStatus, flag_putPulledStatus]
  exact ⟨rfl, rfl⟩

set_option maxRecDepth 4000 in
lemma opcodes_status : ∀ code ∈ opcodes.toList,
    (code.instructionFn = .brkFn ↔ code.instruction = .brk) ∧
      (code.instructionFn = .plpFn ↔ code.instruction = .plp) ∧
      (code.instructionFn = .rtiFn ↔ code.instruction = .rti) := by
  decide +kernel

/-! ### One iteration -/

/-- The iteration executes a BRK. -/
def ExecutesBrk (bus : Bus) : Prop := (fetched bus).instruction = .brk

/-- The iteration executes a PLP or an RTI. -/
def Pulls (bus : Bus) : Prop :=
  (fetched bus).instruction = .plp ∨ (fetched bus).instruction = .rti

lemma executesBrk_iff (bus : Bus) : ExecutesBrk bus ↔ (fetched bus).instructionFn = .brkFn := by
  obtain ⟨code, hmem, hfn, hi, -⟩ := getNextOpcode_row bus bus.cpu.programCounter
  rw [ExecutesBrk, fetched, hfn, hi, (opcodes_status code hmem).1]

lemma pulls_iff (bus : Bus) : Pulls bus ↔
    (fetched bus).instructionFn = .plpFn ∨ (fetched bus).instructionFn = .rtiFn := by
  obtain ⟨code, hmem, hfn, hi, -⟩ := getNextOpcode_row bus bus.cpu.programCounter
  rw [Pulls, fetched, hfn, hi, (opcodes_status code hmem).2.1, (opcodes_status code hmem).2.2]

lemma runCpuIteration_of_brk {bus : Bus} (h : ExecutesBrk bus) :
    (runCpuIteration bus).cpu.flag .breakCommand = true := by
  obtain ⟨a, cycles, heq⟩ := runCpuIteration_brk h
  rw [heq, onCpu_cpu, flag_tick, brkFn_break]

lemma runCpuIteration_of_pulls {bus : Bus} (h : Pulls bus) :
    (runCpuIteration bus).cpu.flag .unusedFlag = true ∧
      (runCpuIteration bus).cpu.flag .breakCommand = false := by
  obtain ⟨cycles, heq⟩ := runCpuIteration_eq bus
  rw [heq, onCpu_cpu, flag_tick, flag_tick]
  exact pulled_flag ((pulls_iff bus).mp h) _ _

lemma runCpuIteration_break {bus : Bus} (hbrk : ¬ ExecutesBrk bus) (hpulls : ¬ Pulls bus) :
    (runCpuIteration bus).cpu.flag .breakCommand = bus.cpu.flag .breakCommand := by
  rw [executesBrk_iff] at hbrk
  rw [pulls_iff] at hpulls
  refine runCpuIteration_flag fun hmem => ?_
  rcases breakCommand_mem_flags hmem with h | h
  · exact hbrk h
  · exact hpulls h

/-- The unused bit stays set. -/
lemma runCpuIteration_unused {bus : Bus} (h : bus.cpu.flag .unusedFlag = true) :
    (runCpuIteration bus).cpu.flag .unusedFlag = true := by
  by_cases hpulls : Pulls bus
  · exact (runCpuIteration_of_pulls hpulls).1
  · rw [pulls_iff] at hpulls
    rw [runCpuIteration_flag fun hmem => hpulls (unusedFlag_mem_flags hmem), h]

/-! ### Runs from reset -/

/-- The bus after a reset and so many turns of the loop, be it in one call of `run_cpu` or in
several. -/
def afterReset (bus : Bus) (n : ℕ) : Bus := runCpuIteration^[n] (busReset bus)

lemma afterReset_succ (bus : Bus) (n : ℕ) :
    afterReset bus (n + 1) = runCpuIteration (afterReset bus n) :=
  Function.iterate_succ_apply' _ _ _

/-- Where a call of `run_cpu` returns, the run goes on. -/
lemma runCpu_afterReset {fuel : ℕ} {bus bus' : Bus} {n : ℕ}
    (h : runCpu fuel (afterReset bus n) = some bus') : ∃ m, n < m ∧ bus' = afterReset bus m := by
  induction fuel generalizing n with
  | zero => cases h
  | succ fuel ih =>
    unfold runCpu at h
    dsimp only at h
    rw [← afterReset_succ] at h
    split at h
    · exact ⟨n + 1, by omega, (Option.some.inj h).symm⟩
    · obtain ⟨m, hm, heq⟩ := ih h
      exact ⟨m, by omega, heq⟩

lemma busReset_status (bus : Bus) : (busReset bus).cpu.status = 0x24 := rfl

lemma busReset_flag (bus : Bus) : (busReset bus).cpu.flag .unusedFlag = true ∧
    (busReset bus).cpu.flag .breakCommand = false := by
  rw [CPU.flag, CPU.flag, busReset_status]
  decide

/-- **The status of a run.** In every state after a reset the unused bit is set, and the break
bit is set exactly if a BRK has been executed and since then neither PLP nor RTI; in
particular it is clear before the first BRK. A call of `run_cpu` that returns leaves a state of
the same run. -/
theorem status_of_run (bus : Bus) (n : ℕ) :
    (afterReset bus n).cpu.flag .unusedFlag = true ∧
      ((afterReset bus n).cpu.flag .breakCommand = true ↔
        SetSince (fun i => ExecutesBrk (afterReset bus i)) (fun i => Pulls (afterReset bus i)) n) ∧
      ((∀ i < n, ¬ ExecutesBrk (afterReset bus i)) →
        (afterReset bus n).cpu.flag .breakCommand = false) ∧
      ∀ fuel bus', runCpu fuel (afterReset bus n) = some bus' →
        ∃ m, n < m ∧ bus' = afterReset bus m := by
  have hunused : (afterReset bus n).cpu.flag .unusedFlag = true := by
    induction n with
    | zero => exact (busReset_flag bus).1
    | succ n ih =>
      rw [afterReset_succ]
      exact runCpuIteration_unused ih
  have hset : ∀ i, ExecutesBrk (afterReset bus i) →
      (afterReset bus (i + 1)).cpu.flag .breakCommand = true := fun i h => by
    rw [afterReset_succ, runCpuIteration_of_brk h]
  have hclear : ∀ i, Pulls (afterReset bus i) →
      (afterReset bus (i + 1)).cpu.flag .breakCommand = false := fun i h => by
    rw [afterReset_succ, (runCpuIteration_of_pulls h).2]
  have hkeep : ∀ i, ¬ ExecutesBrk (afterReset bus i) → ¬ Pulls (afterReset bus i) →
      (afterReset bus (i + 1)).cpu.flag .breakCommand =
        (afterReset bus i).cpu.flag .breakCommand := fun i hb hp => by
    rw [afterReset_succ, runCpuIteration_break hb hp]
  have hbreak : (afterReset bus n).cpu.flag .breakCommand = true ↔
      SetSince (fun i => ExecutesBrk (afterReset bus i)) (fun i => Pulls (afterReset bus i)) n :=
    latch _ _ (fun i => (afterReset bus i).cpu.flag .breakCommand) (busReset_flag bus).2
      hset hclear hkeep n
  refine ⟨hunused, hbreak, fun hnone => ?_, fun fuel bus' => runCpu_afterReset⟩
  rw [← Bool.not_eq_true, hbreak]
  rintro ⟨i, hi, hbrk, -⟩
  exact hnone i hi hbrk

end NesEmulator
