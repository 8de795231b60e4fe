import Mathlib.Data.Fintype.Pigeonhole
import Mathlib.Data.List.Forall2
import Mathlib.Logic.Function.Iterate
import Mathlib.Tactic.Lemma

/-!
Runs of a deterministic machine.

A machine takes one event at a time. What no step changes, no run changes; two
machines that simulate each other step by step give related outputs over every run; a
bit that some events set and others clear tells what has happened since the last clearing; and
with finitely many states a run goes around in a circle.
-/

namespace Lib.Runs

variable {σ τ ε ω ω' : Type*}

section Events

variable (step : σ → ε → σ)

def run (s : σ) (es : List ε) : σ := es.foldl step s

/-- **Frames**: what no step of a run changes, the run does not change. -/
theorem run_frame {β : Type*} (f : σ → β) (es : List ε)
    (hstep : ∀ e ∈ es, ∀ s, f (step s e) = f s) (s : σ) : f (run step s es) = f s := by
  induction es generalizing s with
  | nil => rfl
  | cons e es ih =>
    rw [List.forall_mem_cons] at hstep
    exact (ih hstep.2 _).trans (hstep.1 s)

end Events

/-! ### Two runs -/

/-- **Two runs**: if good states that are related step to related states, two runs stay related
for as long as the first one is in good states. -/
theorem iterate_related {f : σ → σ} {g : τ → τ} {R : σ → τ → Prop} {good : σ → Prop}
    (hstep : ∀ s t, R s t → good s → R (f s) (g t)) {s : σ} {t : τ} (h : R s t) {n : ℕ}
    (hgood : ∀ i < n, good (f^[i] s)) : R (f^[n] s) (g^[n] t) := by
  induction n with
  | zero => exact h
  | succ n ih =>
    rw [Function.iterate_succ_apply', Function.iterate_succ_apply']
    exact hstep _ _ (ih fun i hi => hgood i (by omega)) (hgood n (by omega))

/-- **Footprints**: states agree on a part of their memory. If a step depends on no more than what
it loads, and leaves agreement also where its stores show, then so does a run that loads
nothing but from the part or from where a store has shown before. -/
theorem iterate_agree {A : Type*} {step : σ → σ} {agree : (A → Prop) → σ → σ → Prop}
    {loads shown : σ → A → Prop}
    (hstep : ∀ S s t, agree S s t → (∀ a, loads s a → S a) →
      agree (fun a => S a ∨ shown s a) (step s) (step t))
    (hcongr : ∀ {S T s t}, (∀ a, S a ↔ T a) → agree S s t → agree T s t)
    {S : A → Prop} {s t : σ} (h : agree S s t) {n : ℕ}
    (hloads : ∀ i < n, ∀ a, loads (step^[i] s) a → S a ∨ ∃ j < i, shown (step^[j] s) a) :
    agree (fun a => S a ∨ ∃ j < n, shown (step^[j] s) a) (step^[n] s) (step^[n] t) := by
  induction n with
  | zero => exact hcongr (fun a => by simp) h
  | succ n ih =>
    rw [Function.iterate_succ_apply', Function.iterate_succ_apply']
    refine hcongr (fun a => ?_) (hstep _ _ _ (ih fun i hi => hloads i (by omega))
      (hloads n (by omega)))
    simp only [Nat.lt_succ_iff_lt_or_eq, or_and_right, exists_or, exists_eq_left, or_assoc]

/-! ### Outputs -/

section Outputs

variable (step : σ → ε → σ × ω)

/-- The state after a run. -/
def final : σ → List ε → σ
  | s, [] => s
  | s, e :: es => final (step s e).1 es

/-- What the machine answers along a run, one output an event. -/
def outputs : σ → List ε → List ω
  | _, [] => []
  | s, e :: es => (step s e).2 :: outputs (step s e).1 es

lemma final_eq_run (s : σ) (es : List ε) :
    final step s es = run (fun s e => (step s e).1) s es := by
  induction es generalizing s with
  | nil => rfl
  | cons e es ih => exact ih _

lemma final_inv {P : σ → Prop} (hstep : ∀ s e, P s → P (step s e).1) {s : σ} (h : P s)
    (es : List ε) : P (final step s es) := by
  induction es generalizing s with
  | nil => exact h
  | cons e es ih => exact ih (hstep s e h)

end Outputs

/-- Each step of the concrete machine is matched by the abstract one, and `O` relates what
they answer. -/
def Simulates (stepC : σ → ε → σ × ω) (stepA : τ → ε → τ × ω') (R : σ → τ → Prop)
    (O : ω → ω' → Prop) : Prop :=
  ∀ s t e, R s t → R (stepC s e).1 (stepA t e).1 ∧ O (stepC s e).2 (stepA t e).2

/-- **Refinement**: a simulation carries over to every run. -/
theorem Simulates.run {stepC : σ → ε → σ × ω} {stepA : τ → ε → τ × ω'} {R : σ → τ → Prop}
    {O : ω → ω' → Prop} (h : Simulates stepC stepA R O) {s : σ} {t : τ} (hR : R s t)
    (es : List ε) :
    R (final stepC s es) (final stepA t es) ∧
      List.Forall₂ O (outputs stepC s es) (outputs stepA t es) := by
  induction es generalizing s t with
  | nil => exact ⟨hR, .nil⟩
  | cons e es ih =>
    obtain ⟨hR', hO⟩ := h s t e hR
    obtain ⟨hfin, hout⟩ := ih hR'
    exact ⟨hfin, .cons hO hout⟩

/-! ### Latches -/

section Latch

variable (set clear : ℕ → Prop)

/-- A setting event has happened before time `n`, and no clearing one since. -/
def SetSince (n : ℕ) : Prop := ∃ i < n, set i ∧ ∀ j, i < j → j < n → ¬ clear j

variable {set clear}

lemma not_setSince_zero : ¬ SetSince set clear 0 := by
  rintro ⟨i, hi, -⟩
  omega

lemma setSince_succ {n : ℕ} :
    SetSince set clear (n + 1) ↔ set n ∨ SetSince set clear n ∧ ¬ clear n := by
  constructor
  · rintro ⟨i, hi, hset, hclear⟩
    rcases Nat.lt_succ_iff_lt_or_eq.mp hi with h | rfl
    · exact Or.inr ⟨⟨i, h, hset, fun j hij hj => hclear j hij (by omega)⟩, hclear n h (by omega)⟩
    · exact Or.inl hset
  · rintro (hset | ⟨⟨i, hi, hset, hclear⟩, hn⟩)
    · exact ⟨n, by omega, hset, fun j hij hj => by omega⟩
    · refine ⟨i, by omega, hset, fun j hij hj => ?_⟩
      rcases Nat.lt_succ_iff_lt_or_eq.mp hj with h | rfl
      · exact hclear j hij h
      · exact hn

variable (set clear) in
/-- **Latch**: a bit that is clear at first, that setting events set and clearing ones clear,
is set exactly when a setting event has happened since the last clearing one. -/
theorem latch (bit : ℕ → Bool) (h0 : bit 0 = false) (hset : ∀ n, set n → bit (n + 1) = true)
    (hclear : ∀ n, clear n → bit (n + 1) = false)
    (hkeep : ∀ n, ¬ set n → ¬ clear n → bit (n + 1) = bit n) (n : ℕ) :
    bit n = true ↔ SetSince set clear n := by
  induction n with
  | zero => simp [h0, not_setSince_zero]
  | succ n ih =>
    rw [setSince_succ]
    by_cases hs : set n
    · simp [hs, hset n hs]
    · by_cases hc : clear n
      · simp [hs, hc, hclear n hc]
      · simp [hs, hc, hkeep n hs hc, ih]

end Latch

/-! ### Finitely many states -/

section Finite

variable {β : Type*} [Fintype β] {v : ℕ → β}

/-- **Pigeonhole**: a sequence in which every value determines the next one goes around in a
circle, before it has more terms than there are values. -/
theorem seq_repeats (hstep : ∀ m n, v m = v n → v (m + 1) = v (n + 1)) :
    ∃ i j, i < j ∧ j ≤ Fintype.card β ∧ ∀ k, v (j + k) = v (i + k) := by
  have hcard : Fintype.card β < Fintype.card (Fin (Fintype.card β + 1)) := by
    rw [Fintype.card_fin]
    exact Nat.lt_succ_self _
  obtain ⟨a, b, hne, heq⟩ := Fintype.exists_ne_map_eq_of_card_lt (fun i => v i.val) hcard
  have hrepeat : ∀ i j, v i = v j → ∀ k, v (j + k) = v (i + k) := by
    intro i j h k
    induction k with
    | zero => exact h.symm
    | succ k ih => exact hstep _ _ ih
  rcases Nat.lt_or_gt_of_ne (fun h => hne (Fin.ext h)) with hlt | hlt
  · exact ⟨a, b, hlt, Nat.le_of_lt_succ b.isLt, hrepeat _ _ heq⟩
  · exact ⟨b, a, hlt, Nat.le_of_lt_succ a.isLt, hrepeat _ _ heq.symm⟩

/-- What comes at all comes early. -/
theorem seq_early (hstep : ∀ m n, v m = v n → v (m + 1) = v (n + 1)) {stop : β → Prop} {n : ℕ}
    (h : stop (v n)) : ∃ m < Fintype.card β, stop (v m) := by
  obtain ⟨i, j, hij, hj, hrepeat⟩ := seq_repeats hstep
  induction n using Nat.strong_induction_on with
  | _ n ih =>
    by_cases hn : n < Fintype.card β
    · exact ⟨n, hn, h⟩
    · -- one time around the circle less
      have hback : v n = v (i + (n - j)) := by
        rw [← hrepeat (n - j)]
        congr 1
        omega
      exact ih (i + (n - j)) (by omega) (hback ▸ h)

end Finite

end Lib.Runs
