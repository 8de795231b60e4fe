import NesEmulator.TwoRuns
import Mathlib.Data.Fintype.BigOperators

/-!
Whether `run_cpu` returns.

It returns at the first BRK, and if there is one it comes early: registers, status and RAM have
finitely many values, and as long as no two of them are the same there is something new.
-/

namespace NesEmulator

open Lib.Runs

/-! ### The first BRK -/

/-- A run comes to its first BRK after `n` steps. -/
structure FirstBrk (bus : Bus) (n : ℕ) : Prop where
  brk : (fetched (runCpuIteration^[n] bus)).instruction = .brk
  first : ∀ i < n, (fetched (runCpuIteration^[i] bus)).instruction ≠ .brk

lemma FirstBrk.zero {bus : Bus} (h : (fetched bus).instruction = .brk) : FirstBrk bus 0 :=
  ⟨h, fun _ hi => absurd hi (Nat.not_lt_zero _)⟩

lemma firstBrk_succ {bus : Bus} {n : ℕ} (h : (fetched bus).instruction ≠ .brk) :
    FirstBrk bus (n + 1) ↔ FirstBrk (runCpuIteration bus) n := by
  constructor
  · rintro ⟨hbrk, hfirst⟩
    exact ⟨hbrk, fun i hi => hfirst (i + 1) (by omega)⟩
  · rintro ⟨hbrk, hfirst⟩
    refine ⟨hbrk, fun i hi => ?_⟩
    cases i with
    | zero => exact h
    | succ i => exact hfirst i (by omega)

/-- **A call of `run_cpu`** executes up to the first BRK, and that. -/
theorem runCpu_eq_some_iff {fuel : ℕ} {bus c : Bus} : runCpu fuel bus = some c ↔
    ∃ n < fuel, FirstBrk bus n ∧ c = runCpuIteration^[n + 1] bus := by
  induction fuel generalizing bus with
  | zero => simp [runCpu]
  | succ fuel ih =>
    rw [runCpu]
    split
    · next hbrk =>
      constructor
      · intro h
        exact ⟨0, by omega, .zero hbrk, (Option.some.inj h).symm⟩
      · rintro ⟨n, -, hfirst, rfl⟩
        cases n with
        | zero => rfl
        | succ n => exact absurd hbrk (hfirst.first 0 (by omega))
    · next hbrk =>
      rw [ih]
      constructor
      · rintro ⟨n, hn, hfirst, rfl⟩
        exact ⟨n + 1, by omega, (firstBrk_succ hbrk).mpr hfirst, rfl⟩
      · rintro ⟨n, hn, hfirst, rfl⟩
        cases n with
        | zero => exact absurd hfirst.brk hbrk
        | succ n => exact ⟨n, by omega, (firstBrk_succ hbrk).mp hfirst, rfl⟩

lemma exists_firstBrk {bus : Bus} {n : ℕ}
    (h : (fetched (runCpuIteration^[n] bus)).instruction = .brk) : ∃ m ≤ n, FirstBrk bus m := by
  induction n using Nat.strong_induction_on with
  | _ n ih =>
    by_cases hfirst : ∀ i < n, (fetched (runCpuIteration^[i] bus)).instruction ≠ .brk
    · exact ⟨n, Nat.le_refl n, h, hfirst⟩
    · push Not at hfirst
      obtain ⟨i, hi, hbrk⟩ := hfirst
      obtain ⟨m, hm, hm'⟩ := ih i hi hbrk
      exact ⟨m, by omega, hm'⟩

/-! ### The states of a run -/

/-- All that changes during a run, but for the cycle counter. -/
abbrev Snapshot :=
  Fin (2 ^ 16) × Fin (2 ^ 8) × Fin (2 ^ 8) × Fin (2 ^ 8) × Fin (2 ^ 8) × Fin (2 ^ 8) ×
    (Fin 0x800 → Fin (2 ^ 8))

def snapshot (bus : Bus) : Snapshot :=
  (bus.cpu.programCounter.toFin, bus.cpu.stackPointer.toFin, bus.cpu.accumulator.toFin,
    bus.cpu.x.toFin, bus.cpu.y.toFin, bus.cpu.status.toFin, fun k => (bus.cpuRam k).toFin)

lemma card_snapshot : Fintype.card Snapshot = 2 ^ 16440 := by
  have hram : (2 ^ 8) ^ 0x800 = 2 ^ (8 * 0x800) := (pow_mul 2 8 0x800).symm
  simp only [Fintype.card_prod, Fintype.card_fun, Fintype.card_fin, hram, ← pow_add]

lemma alike_of_snapshot {b c : Bus} (hcart : c.cartridge = b.cartridge)
    (h : snapshot c = snapshot b) :
    Alike (fun _ => True) (c.cpu.cycles - b.cpu.cycles) b c := by
  simp only [snapshot, Prod.mk.injEq, BitVec.toFin_inj, funext_iff] at h
  obtain ⟨hpc, hs, ha, hx, hy, hstatus, hram⟩ := h
  have hcycles : c.cpu.cycles = b.cpu.cycles + (c.cpu.cycles - b.cpu.cycles) := by
    rw [BitVec.add_comm, BitVec.sub_add_cancel]
  refine ⟨⟨hpc, hs, ha, hx, hy, hcycles, fun f _ => ?_⟩, hcart, funext hram⟩
  rw [CPU.flag, CPU.flag, hstatus]

lemma Alike.snapshot {b c : Bus} {lag : Usize} (h : Alike (fun _ => True) lag b c) :
    snapshot c = snapshot b := by
  have hstatus := h.cpu.status fun _ => trivial
  unfold NesEmulator.snapshot
  rw [h.cpu.programCounter, h.cpu.stackPointer, h.cpu.accumulator, h.cpu.x, h.cpu.y, hstatus,
    h.cpuRam]

section Run

variable (bus : Bus)

/-- States with the same registers, status and RAM go on alike. -/
lemma snapshot_alike {m n : ℕ}
    (h : snapshot (runCpuIteration^[m] bus) = snapshot (runCpuIteration^[n] bus)) :
    Alike (fun _ => True) ((runCpuIteration^[m] bus).cpu.cycles -
        (runCpuIteration^[n] bus).cpu.cycles)
      (runCpuIteration^[n] bus) (runCpuIteration^[m] bus) := by
  refine alike_of_snapshot ?_ h
  rw [iterate_cartridge, iterate_cartridge]

lemma snapshot_step (m n : ℕ)
    (h : snapshot (runCpuIteration^[m] bus) = snapshot (runCpuIteration^[n] bus)) :
    snapshot (runCpuIteration^[m + 1] bus) = snapshot (runCpuIteration^[n + 1] bus) := by
  rw [Function.iterate_succ_apply', Function.iterate_succ_apply']
  exact (runCpuIteration_alike (snapshot_alike bus h) fun _ _ => trivial).snapshot

lemma brk_of_snapshot {m n : ℕ}
    (h : snapshot (runCpuIteration^[m] bus) = snapshot (runCpuIteration^[n] bus)) :
    (fetched (runCpuIteration^[m] bus)).instruction =
      (fetched (runCpuIteration^[n] bus)).instruction :=
  congrArg OpCode.instruction (snapshot_alike bus h).fetched

end Run

/-- **`run_cpu` returns early or never.** Either it returns within 2^16440 turns of its loop; or it
never returns, and then the run goes around in a circle: at two places that lie no further
behind, and ever so many steps behind them, the states are the same but for the cycle counter. -/
theorem returns_early_or_never (bus : Bus) :
    (∃ c, runCpu (2 ^ 16440) bus = some c) ∨
      (∀ fuel, runCpu fuel bus = none) ∧
        ∃ i j, i < j ∧ j ≤ 2 ^ 16440 ∧ ∀ k, runCpuIteration^[j + k] bus =
          (runCpuIteration^[i + k] bus).onCpu fun cpu =>
            { cpu with cycles := (runCpuIteration^[j + k] bus).cpu.cycles } := by
  rw [← card_snapshot]
  by_cases hbrk : ∃ n, (fetched (runCpuIteration^[n] bus)).instruction = .brk
  · left
    obtain ⟨n, hn⟩ := hbrk
    obtain ⟨m, hm, m', hsame, hbrk⟩ := @seq_early Snapshot _
      (fun n => snapshot (runCpuIteration^[n] bus)) (snapshot_step bus)
      (fun s => ∃ m, snapshot (runCpuIteration^[m] bus) = s ∧
        (fetched (runCpuIteration^[m] bus)).instruction = .brk) n ⟨n, rfl, hn⟩
    obtain ⟨k, hk, hfirst⟩ := exists_firstBrk ((brk_of_snapshot bus hsame).symm.trans hbrk)
    exact ⟨_, runCpu_eq_some_iff.mpr ⟨k, by omega, hfirst, rfl⟩⟩
  · right
    push Not at hbrk
    refine ⟨fun fuel => ?_, ?_⟩
    · rw [Option.eq_none_iff_forall_ne_some]
      intro c hc
      obtain ⟨n, -, hfirst, -⟩ := runCpu_eq_some_iff.mp hc
      exact hbrk n hfirst.brk
    · obtain ⟨i, j, hij, hj, hrepeat⟩ := seq_repeats
        (v := fun n => snapshot (runCpuIteration^[n] bus)) (snapshot_step bus)
      refine ⟨i, j, hij, hj, fun k => ?_⟩
      have heq := (snapshot_alike bus (hrepeat k)).eq_onCpu
      have hcycles : ∀ p q : Usize, q + (p - q) = p := fun p q => by
        rw [BitVec.add_comm, BitVec.sub_add_cancel]
      refine heq.trans ?_
      unfold Bus.onCpu
      dsimp only
      rw [hcycles]

end NesEmulator
