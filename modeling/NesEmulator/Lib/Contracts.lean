import Mathlib.Logic.Function.Iterate
import Mathlib.Order.WellFounded
import Mathlib.Tactic.Lemma

/-!
Rules for what a machine comes to.

A machine that takes one step after the other is started in a state with a precondition, and is
wanted to come to one with a postcondition, through states from which it is allowed to go on.
The rules put such facts together: one behind the other, by cases, in a loop that counts, and
in a loop of which it is only known that something decreases.
-/

namespace Lib.Contracts

variable {σ : Type*} {f : σ → σ} {C : σ → Prop} {P P' Q Q' R : σ → Prop}

/-- From every state in `P` the machine comes to one in `Q`, and every step on the way is taken
from a state in `C`. -/
def LeadsTo (f : σ → σ) (C P Q : σ → Prop) : Prop :=
  ∀ s, P s → ∃ n, (∀ i < n, C (f^[i] s)) ∧ Q (f^[n] s)

lemma LeadsTo.of_imp (h : ∀ s, P s → Q s) : LeadsTo f C P Q :=
  fun s hs => ⟨0, fun _ hi => absurd hi (Nat.not_lt_zero _), h s hs⟩

lemma LeadsTo.refl : LeadsTo f C P P := .of_imp fun _ => id

lemma LeadsTo.step (h : ∀ s, P s → C s ∧ Q (f s)) : LeadsTo f C P Q := by
  intro s hs
  obtain ⟨hc, hq⟩ := h s hs
  refine ⟨1, fun i hi => ?_, hq⟩
  obtain rfl : i = 0 := by omega
  exact hc

/-- **Sequence**. -/
theorem LeadsTo.trans (h : LeadsTo f C P Q) (h' : LeadsTo f C Q R) : LeadsTo f C P R := by
  intro s hs
  obtain ⟨m, hm, hq⟩ := h s hs
  obtain ⟨n, hn, hr⟩ := h' _ hq
  rw [← Function.iterate_add_apply] at hr
  refine ⟨n + m, fun i hi => ?_, hr⟩
  rcases Nat.lt_or_ge i m with him | him
  · exact hm i him
  · have hi' := hn (i - m) (by omega)
    rwa [← Function.iterate_add_apply, Nat.sub_add_cancel him] at hi'

/-- **Consequence**. -/
theorem LeadsTo.consequence (hp : ∀ s, P' s → P s) (h : LeadsTo f C P Q)
    (hq : ∀ s, Q s → Q' s) : LeadsTo f C P' Q' := by
  intro s hs
  obtain ⟨n, hn, hend⟩ := h s (hp s hs)
  exact ⟨n, hn, hq _ hend⟩

lemma LeadsTo.weaken (h : LeadsTo f C P Q) (hq : ∀ s, Q s → Q' s) : LeadsTo f C P Q' :=
  h.consequence (fun _ => id) hq

lemma LeadsTo.of_exists {ι : Sort*} {I : ι → σ → Prop} (h : ∀ x, LeadsTo f C (I x) Q) :
    LeadsTo f C (fun s => ∃ x, I x s) Q :=
  fun s ⟨x, hs⟩ => h x s hs

/-- **Cases**. -/
theorem LeadsTo.cases (h : LeadsTo f C P R) (h' : LeadsTo f C Q R) :
    LeadsTo f C (fun s => P s ∨ Q s) R := by
  rintro s (hs | hs)
  · exact h s hs
  · exact h' s hs

/-! ### Loops -/

/-- **A loop that counts**: its body leads from each stage to the next one. -/
theorem LeadsTo.count {I : ℕ → σ → Prop} {n : ℕ} (h : ∀ k < n, LeadsTo f C (I k) (I (k + 1))) :
    LeadsTo f C (I 0) (I n) := by
  induction n with
  | zero => exact .refl
  | succ n ih => exact (ih fun k hk => h k (Nat.lt_succ_of_lt hk)).trans (h n (Nat.lt_succ_self n))

/-- **A loop with a variant**: its body comes to the end, or back with less. -/
theorem LeadsTo.variant {ι : Type*} {r : ι → ι → Prop} (hr : WellFounded r) {I : ι → σ → Prop}
    (h : ∀ x, LeadsTo f C (I x) fun s => Q s ∨ ∃ y, r y x ∧ I y s) (x : ι) :
    LeadsTo f C (I x) Q := by
  induction x using hr.induction with
  | _ x ih =>
    have hagain : LeadsTo f C (fun s => ∃ y, r y x ∧ I y s) Q := by
      rintro s ⟨y, hy, hs⟩
      exact ih y hy s hs
    exact (h x).trans (LeadsTo.refl.cases hagain)

end Lib.Contracts
