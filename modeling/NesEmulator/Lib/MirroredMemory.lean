import Mathlib.Data.Nat.Notation
import Mathlib.Logic.Function.Basic
import Mathlib.Tactic.Lemma

/-!
A memory seen through mirrors.

An address decodes to a cell, or to none; many addresses may decode to the same cell. After
any sequence of writes a cell holds the last value written to one of its mirrors.
-/

namespace Lib.MirroredMemory

variable {A K V : Type*} [DecidableEq K]

/-- Write through an address: the cell it decodes to, if any, takes the value. -/
def write (cell : A → Option K) (m : K → V) (w : A × V) : K → V :=
  match cell w.1 with
  | some k => Function.update m k w.2
  | none => m

/-- The last value a sequence of writes puts into a cell. -/
def lastWrite (cell : A → Option K) : List (A × V) → K → Option V
  | [], _ => none
  | w :: ws, k => (lastWrite cell ws k).or (if cell w.1 = some k then some w.2 else none)

variable {cell : A → Option K}

lemma write_apply (m : K → V) (w : A × V) (k : K) :
    write cell m w k = if cell w.1 = some k then w.2 else m k := by
  unfold write
  cases hc : cell w.1 with
  | none => simp
  | some j =>
    by_cases hk : k = j
    · subst hk; simp
    · have hj : j ≠ k := Ne.symm hk
      simp [hk, hj]

/-- **Last write wins.** -/
theorem foldl_write (m : K → V) (ws : List (A × V)) (k : K) :
    ws.foldl (write cell) m k = (lastWrite cell ws k).getD (m k) := by
  induction ws generalizing m with
  | nil => rfl
  | cons w ws ih =>
    rw [List.foldl_cons, ih, write_apply, lastWrite]
    cases lastWrite cell ws k <;> by_cases hc : cell w.1 = some k <;> simp [hc]

@[simp] lemma lastWrite_singleton (w : A × V) (k : K) :
    lastWrite cell [w] k = if cell w.1 = some k then some w.2 else none := by
  simp [lastWrite]

end Lib.MirroredMemory
