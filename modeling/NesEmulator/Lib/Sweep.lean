import Mathlib.Logic.Function.Iterate
import Mathlib.Order.Monotone.Basic
import Mathlib.Tactic.Lemma

/-!
Linear sweeps.

A sweep starts at a position and steps over one item after another, each of a length that
depends on where it stands, until it has passed a limit. The items of a sweep from 0 cover
every position once.
-/

namespace Lib.Sweep

variable (len : ℕ → ℕ)

/-- Behind the item at a position. -/
def next (p : ℕ) : ℕ := p + len p

/-- A position at which a sweep from 0 finds an item. -/
def Reached (p : ℕ) : Prop := ∃ i, (next len)^[i] 0 = p

lemma next_iterate_succ (p i : ℕ) :
    (next len)^[i + 1] p = (next len)^[i] p + len ((next len)^[i] p) := by
  rw [Function.iterate_succ_apply']
  rfl

section Positive

variable {len} (hlen : ∀ p, 0 < len p)
include hlen

lemma iterate_strictMono (p : ℕ) : StrictMono fun i => (next len)^[i] p := by
  refine strictMono_nat_of_lt_succ fun i => ?_
  have hpos := hlen ((next len)^[i] p)
  have hstep := next_iterate_succ len p i
  omega

/-- **A tiling**: every position lies in one item. -/
theorem existsUnique_item (a : ℕ) :
    ∃! i, (next len)^[i] 0 ≤ a ∧ a < (next len)^[i + 1] 0 := by
  have hmono := iterate_strictMono hlen 0
  have hexists : ∃ i, (next len)^[i] 0 ≤ a ∧ a < (next len)^[i + 1] 0 := by
    induction a with
    | zero =>
      have hpos : (next len)^[0] 0 < (next len)^[0 + 1] 0 := hmono (Nat.lt_succ_self 0)
      exact ⟨0, Nat.le_refl 0, hpos⟩
    | succ a ih =>
      obtain ⟨i, hle, hlt⟩ := ih
      rcases Nat.lt_or_ge (a + 1) ((next len)^[i + 1] 0) with h | h
      · exact ⟨i, by omega, h⟩
      · -- the next item starts here
        have hpos : (next len)^[i + 1] 0 < (next len)^[i + 1 + 1] 0 := hmono (Nat.lt_succ_self _)
        exact ⟨i + 1, h, by omega⟩
  obtain ⟨i, hle, hlt⟩ := hexists
  refine ⟨i, ⟨hle, hlt⟩, ?_⟩
  rintro j ⟨hle', hlt'⟩
  have hij : i < j + 1 := hmono.lt_iff_lt.mp (Nat.lt_of_le_of_lt hle hlt')
  have hji : j < i + 1 := hmono.lt_iff_lt.mp (Nat.lt_of_le_of_lt hle' hlt)
  omega

end Positive

/-- Items of one length, one behind the other. -/
lemma iterate_of_constant {p k n : ℕ} (h : ∀ i < n, len (p + i * k) = k) :
    (next len)^[n] p = p + n * k := by
  induction n with
  | zero => simp
  | succ n ih =>
    have hlast := h n (Nat.lt_succ_self n)
    rw [next_iterate_succ, ih fun i hi => h i (by omega), hlast, Nat.succ_mul]
    omega

/-- The same behind the first items of a sweep. -/
lemma iterate_then_constant {m p k n : ℕ} (hp : (next len)^[m] 0 = p)
    (h : ∀ i < n, len (p + i * k) = k) : (next len)^[n + m] 0 = p + n * k := by
  rw [Function.iterate_add_apply, hp, iterate_of_constant len h]

/-! ### A loop that sweeps -/

/-- A loop takes the items that start up to the limit, the limit included. -/
def Sweeps {α : Type*} (item : ℕ → α) (limit : ℕ) (loop : ℕ → List α) : Prop :=
  ∀ p, loop p = if p ≤ limit then item p :: loop (next len p) else []

/-- **The items** of such a loop, one after the other. -/
theorem Sweeps.getElem? {α : Type*} {len : ℕ → ℕ} {item : ℕ → α} {limit : ℕ} {loop : ℕ → List α}
    (h : Sweeps len item limit loop) (hlen : ∀ p, 0 < len p) (p i : ℕ) : (loop p)[i]? =
      if (next len)^[i] p ≤ limit then some (item ((next len)^[i] p)) else none := by
  induction i generalizing p with
  | zero =>
    rw [h p]
    split <;> simp [*]
  | succ i ih =>
    rw [h p]
    split
    · rw [List.getElem?_cons_succ, ih, ← Function.iterate_succ_apply]
    · next hp =>
      -- nothing comes back below the limit
      have hmono : p < (next len)^[i + 1] p := iterate_strictMono hlen p (Nat.succ_pos i)
      rw [if_neg (by omega)]
      rfl

/-- **Nothing is left out**: if every item says what it has at each of its positions, then the items
of such a loop say it from the start on, one position after the other, and past the limit. -/
theorem Sweeps.flatMap {α β : Type*} {len : ℕ → ℕ} {item : ℕ → α} {limit : ℕ}
    {loop : ℕ → List α} (h : Sweeps len item limit loop) (hlen : ∀ p, 0 < len p)
    {g : ℕ → β} {said : α → List β}
    (hsaid : ∀ p, said (item p) = (List.range' p (len p)).map g) {p : ℕ} (hp : p ≤ limit + 1) :
    ∃ n, limit < p + n ∧ (loop p).flatMap said = (List.range' p n).map g := by
  by_cases hin : p ≤ limit
  · have hpos := hlen p
    rw [h p, if_pos hin, List.flatMap_cons, hsaid]
    by_cases hnext : next len p ≤ limit + 1
    · obtain ⟨n, hn, hrest⟩ := h.flatMap hlen hsaid hnext
      refine ⟨len p + n, by unfold next at hn; omega, ?_⟩
      rw [hrest, ← List.map_append, next, List.range'_append_1]
    · refine ⟨len p, by unfold next at hnext; omega, ?_⟩
      rw [h, if_neg (by omega), List.flatMap_nil, List.append_nil]
  · refine ⟨0, by omega, ?_⟩
    rw [h p, if_neg hin]
    rfl
termination_by limit + 1 - p
decreasing_by
  unfold next
  omega

end Lib.Sweep
