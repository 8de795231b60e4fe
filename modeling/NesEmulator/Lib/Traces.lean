import Mathlib.Data.List.Flatten
import Mathlib.Logic.Function.Iterate
import Mathlib.Tactic.Lemma

/-!
What a machine is seen doing.

The states of a machine are observed, one observation a step. A specification says what is
observed from a set of states on, and in which states the machine is afterwards; specifications
are put together one after the other, and in a loop.
-/

namespace Lib.Traces

variable {σ ω : Type*} (f : σ → σ) (obs : σ → ω)

/-- The observations before each of the next `n` steps. -/
def trace : ℕ → σ → List ω
  | 0, _ => []
  | n + 1, s => obs s :: trace n (f s)

/-- From every state in `P` the observations are `tr`, and the states after them are in `Q`. -/
def Does (P : σ → Prop) (tr : List ω) (Q : σ → Prop) : Prop :=
  ∀ s, P s → trace f obs tr.length s = tr ∧ Q (f^[tr.length] s)

variable {f obs}

lemma trace_append (m n : ℕ) (s : σ) :
    trace f obs (m + n) s = trace f obs m s ++ trace f obs n (f^[m] s) := by
  induction m generalizing s with
  | zero => simp [trace]
  | succ m ih =>
    rw [Nat.succ_add]
    simp only [trace, List.cons_append, Function.iterate_succ_apply]
    rw [ih]

/-! ### Rules -/

variable {P Q R : σ → Prop} {tr ts : List ω} {o : ω}

lemma Does.nil : Does f obs P [] P := fun _ h => ⟨rfl, h⟩

lemma Does.step (h : ∀ s, P s → obs s = o ∧ Q (f s)) : Does f obs P [o] Q := by
  intro s hs
  obtain ⟨hobs, hnext⟩ := h s hs
  exact ⟨congrArg (fun a => [a]) hobs, hnext⟩

/-- **Sequence**. -/
theorem Does.append (h : Does f obs P tr Q) (h' : Does f obs Q ts R) :
    Does f obs P (tr ++ ts) R := by
  intro s hs
  obtain ⟨htr, hq⟩ := h s hs
  obtain ⟨hts, hr⟩ := h' _ hq
  rw [List.length_append]
  refine ⟨?_, ?_⟩
  · rw [trace_append, htr, hts]
  · rw [Nat.add_comm, Function.iterate_add_apply]
    exact hr

lemma Does.cons (h : Does f obs P [o] Q) (h' : Does f obs Q ts R) :
    Does f obs P (o :: ts) R :=
  h.append h'

lemma Does.weaken {Q' : σ → Prop} (h : Does f obs P tr Q) (hq : ∀ s, Q s → Q' s) :
    Does f obs P tr Q' := by
  intro s hs
  obtain ⟨htr, hend⟩ := h s hs
  exact ⟨htr, hq _ hend⟩

lemma Does.of_exists {ι : Type*} {P : ι → σ → Prop} (h : ∀ i, Does f obs (P i) tr Q) :
    Does f obs (fun s => ∃ i, P i s) tr Q :=
  fun s ⟨i, hs⟩ => h i s hs

/-- **Loop**: a body that leads from each stage of an invariant to the next one, so many times. -/
theorem Does.loop {I : ℕ → σ → Prop} {body : List ω} {n : ℕ}
    (h : ∀ k < n, Does f obs (I k) body (I (k + 1))) :
    Does f obs (I 0) (List.replicate n body).flatten (I n) := by
  induction n with
  | zero => exact Does.nil
  | succ n ih =>
    have hlast := (ih fun k hk => h k (by omega)).append (h n (by omega))
    rw [List.replicate_succ', List.flatten_append, List.flatten_singleton]
    exact hlast

end Lib.Traces
