import Mathlib.Logic.Function.Iterate
import Mathlib.Tactic.Lemma

/-!
A stack in a ring of cells.

The pointer names the next free cell. A push writes there and steps back; a pop steps
forward and reads. Nothing checks the depth, so a push onto a full ring overwrites the
oldest entry: the ring holds the newest entries of an unbounded stack, at most one for each
cell.
-/

namespace Lib.RingStack

/-- A space of pointers in which fewer than `n` steps never lead back. -/
structure Ring (P : Type*) (n : ℕ) where
  next : P → P
  prev : P → P
  next_prev : ∀ p, next (prev p) = p
  prev_next : ∀ p, prev (next p) = p
  free : ∀ p k, 0 < k → k < n → next^[k] p ≠ p

structure St (P α : Type*) where
  cells : P → α
  ptr : P

variable {P α : Type*} {n : ℕ} (R : Ring P n)

def pop (s : St P α) : St P α × α := (⟨s.cells, R.next s.ptr⟩, s.cells (R.next s.ptr))

/-- The `k`-th newest entry lies `k + 1` steps above the pointer. -/
def slot (s : St P α) (k : ℕ) : P := R.next^[k + 1] s.ptr

/-- The newest entries are those of `xs`, newest first. -/
def Holds (s : St P α) (xs : List α) : Prop :=
  xs.length ≤ n ∧ ∀ k (h : k < xs.length), s.cells (slot R s k) = xs.get ⟨k, h⟩

variable {R}

lemma holds_nil (s : St P α) : Holds R s [] := ⟨Nat.zero_le _, fun k h => absurd h (by simp)⟩

lemma slot_ne_ptr (s : St P α) {k : ℕ} (h : k + 1 < n) : slot R s k ≠ s.ptr :=
  R.free s.ptr (k + 1) (by omega) h

/-- A pop from a ring that holds an entry answers the newest one. -/
theorem Holds.pop {s : St P α} {v : α} {xs : List α} (h : Holds R s (v :: xs)) :
    (pop R s).2 = v ∧ Holds R (RingStack.pop R s).1 xs := by
  obtain ⟨hlen, hget⟩ := h
  rw [List.length_cons] at hlen
  refine ⟨hget 0 (by simp), by omega, fun k hk => ?_⟩
  exact hget (k + 1) (by simpa using hk)

/-- Entries that are left alone stay. -/
theorem Holds.congr {s t : St P α} {xs : List α} (h : Holds R s xs) (hptr : t.ptr = s.ptr)
    (hcells : ∀ k < xs.length, t.cells (slot R s k) = s.cells (slot R s k)) : Holds R t xs := by
  refine ⟨h.1, fun k hk => ?_⟩
  rw [show slot R t k = slot R s k by simp only [slot, hptr], hcells k hk, h.2 k hk]

section Push

variable [DecidableEq P]

variable (R) in
def push (s : St P α) (v : α) : St P α := ⟨Function.update s.cells s.ptr v, R.prev s.ptr⟩

lemma push_cells (s : St P α) (v : α) (p : P) :
    (push R s v).cells p = if p = s.ptr then v else s.cells p :=
  Function.update_apply ..

lemma slot_push_zero (s : St P α) (v : α) : slot R (push R s v) 0 = s.ptr :=
  R.next_prev s.ptr

lemma slot_push_succ (s : St P α) (v : α) (k : ℕ) :
    slot R (push R s v) (k + 1) = slot R s k := by
  simp only [slot, push]
  rw [Function.iterate_succ_apply, R.next_prev]

/-- A push adds its value on top and drops what no longer fits. -/
theorem Holds.push {s : St P α} {xs : List α} (h : Holds R s xs) (v : α) :
    Holds R (push R s v) ((v :: xs).take n) := by
  refine ⟨List.length_take_le n _, fun k hk => ?_⟩
  rw [List.length_take, List.length_cons, Nat.lt_min] at hk
  rw [push_cells]
  cases k with
  | zero => simp [slot_push_zero]
  | succ k =>
    -- the entries below the new one are not overwritten, since the ring has not closed yet
    have hne : slot R s k ≠ s.ptr := slot_ne_ptr s hk.1
    rw [slot_push_succ, if_neg hne, h.2 k (by omega)]
    simp

theorem Holds.push_of_lt {s : St P α} {xs : List α} (h : Holds R s xs) (hlt : xs.length < n)
    (v : α) : Holds R (RingStack.push R s v) (v :: xs) := by
  have := h.push v
  rwa [List.take_of_length_le (by rw [List.length_cons]; omega)] at this

/-! ### The bounded stack it implements -/

inductive Op (α : Type*)
  | push (v : α)
  | pop

variable (R) in
/-- The ring takes an operation; a pop answers a value. -/
def stepRing (s : St P α) : Op α → St P α × Option α
  | .push v => (push R s v, none)
  | .pop => ((pop R s).1, some (pop R s).2)

variable (n) in
/-- The list takes an operation: a push keeps the newest `n` entries, and a pop from the
empty list promises nothing. -/
def stepList (xs : List α) : Op α → List α × Option α
  | .push v => ((v :: xs).take n, none)
  | .pop => (xs.tail, xs.head?)

/-- What the list promises, the ring answers. -/
def Keeps (answer promise : Option α) : Prop := ∀ v, promise = some v → answer = some v

theorem stepRing_refines (s : St P α) (xs : List α) (op : Op α) (h : Holds R s xs) :
    Holds R (stepRing R s op).1 (stepList n xs op).1 ∧
      Keeps (stepRing R s op).2 (stepList n xs op).2 := by
  cases op with
  | push v => exact ⟨h.push v, fun w hw => by simp [stepList] at hw⟩
  | pop =>
    cases xs with
    | nil => exact ⟨holds_nil _, fun w hw => by simp [stepList] at hw⟩
    | cons v xs =>
      obtain ⟨hv, hxs⟩ := h.pop
      refine ⟨hxs, fun w hw => ?_⟩
      have hvw : v = w := by simpa [stepList] using hw
      rw [← hvw, ← hv]
      rfl

end Push

end Lib.RingStack
