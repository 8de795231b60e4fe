import Mathlib.Data.Nat.Digits.Lemmas
import Mathlib.Tactic.Lemma

/-!
Printed text.

A number is printed with the digits of a base, and with zeros in front if it is to be wider.
A text that is made of lines can be cut into them again, and a line that is made of columns
of a known width into its columns.
-/

namespace Lib.Text

/-! ### Numbers -/

/-- The digits of a number, the most significant one first; zero has one. -/
def numeral (b n : ℕ) : List ℕ := if n = 0 then [0] else (b.digits n).reverse

/-- At least `w` digits. -/
def padded (b w n : ℕ) : List ℕ := List.replicate (w - (numeral b n).length) 0 ++ numeral b n

/-- The number that the digits stand for. -/
def value (b : ℕ) (ds : List ℕ) : ℕ := Nat.ofDigits b ds.reverse

section Numbers

variable {b w n : ℕ}

lemma value_numeral : value b (numeral b n) = n := by
  unfold value numeral
  split
  · next h => rw [h, List.reverse_singleton, Nat.ofDigits_singleton]
  · rw [List.reverse_reverse, Nat.ofDigits_digits]

/-- **Zeros in front** do not count. -/
theorem value_padded : value b (padded b w n) = n := by
  have h := @value_numeral b n
  unfold value at h ⊢
  rw [padded, List.reverse_append, List.reverse_replicate, Nat.ofDigits_append_replicate_zero, h]

lemma numeral_lt (hb : 1 < b) : ∀ d ∈ numeral b n, d < b := by
  intro d hd
  unfold numeral at hd
  split at hd
  · rw [List.mem_singleton.mp hd]
    omega
  · exact Nat.digits_lt_base hb (List.mem_reverse.mp hd)

lemma padded_lt (hb : 1 < b) : ∀ d ∈ padded b w n, d < b := by
  intro d hd
  rcases List.mem_append.mp hd with h | h
  · rw [(List.mem_replicate.mp h).2]
    omega
  · exact numeral_lt hb d h

lemma numeral_length (hb : 1 < b) (hw : 0 < w) (h : n < b ^ w) : (numeral b n).length ≤ w := by
  unfold numeral
  split
  · exact hw
  · rw [List.length_reverse]
    exact (Nat.digits_length_le_iff hb n).mpr h

/-- **A number that fits** is as wide as it is wanted. -/
theorem padded_length (hb : 1 < b) (hw : 0 < w) (h : n < b ^ w) : (padded b w n).length = w := by
  have hlen := numeral_length hb hw h
  rw [padded, List.length_append, List.length_replicate]
  omega

end Numbers

/-! ### Columns -/

/-- The `n` characters from place `i` on. -/
def field {α : Type*} (i n : ℕ) (cs : List α) : List α := (cs.drop i).take n

/-- **Reading from the left**, one column after the other. -/
theorem field_eq {α : Type*} {cs xs rest : List α} {i n : ℕ} (h : cs.drop i = xs ++ rest)
    (hn : xs.length = n) : field i n cs = xs ∧ cs.drop (i + n) = rest := by
  subst hn
  refine ⟨?_, ?_⟩
  · rw [field, h, List.take_left]
  · rw [← List.drop_drop, h, List.drop_left]

/-! ### Lines -/

/-- What stands between ends of line; behind the last one a line may be unfinished. -/
def splitLines : List Char → List (List Char)
  | [] => []
  | c :: cs =>
    if c = '\n' then [] :: splitLines cs
    else match splitLines cs with
      | [] => [[c]]
      | l :: ls => (c :: l) :: ls

lemma splitLines_line {l : List Char} (h : '\n' ∉ l) (rest : List Char) :
    splitLines (l ++ '\n' :: rest) = l :: splitLines rest := by
  induction l with
  | nil => simp [splitLines]
  | cons c l ih =>
    rw [List.mem_cons, not_or] at h
    have hrest : splitLines (l ++ '\n' :: rest) = l :: splitLines rest := ih h.2
    rw [List.cons_append, splitLines, if_neg (Ne.symm h.1), hrest]

/-- **Lines** that are printed one after the other are found again. -/
theorem splitLines_flatMap {ι : Type*} {line : ι → List Char} (is : List ι)
    (h : ∀ i ∈ is, '\n' ∉ line i) :
    splitLines (is.flatMap fun i => line i ++ ['\n']) = is.map line := by
  induction is with
  | nil => rfl
  | cons i is ih =>
    rw [List.forall_mem_cons] at h
    rw [List.flatMap_cons, List.append_assoc, List.singleton_append, splitLines_line h.1, ih h.2,
      List.map_cons]

end Lib.Text
