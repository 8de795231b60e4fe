import Mathlib.Data.List.Basic
import Mathlib.Data.Nat.Notation
import Mathlib.Tactic.Lemma

/-!
Lists that repeat a block.
-/

namespace Lib.Blocks

variable {α : Type*}

/-- Entry by entry, `xs` is the block `t` over and over. -/
def Repeats (t xs : List α) : Prop := ∀ i < xs.length, xs[i]? = t[i % t.length]?

/-- Putting a block in front of a list and cutting the result to the old length changes
nothing exactly if the list repeats the block. -/
theorem take_append_eq_iff {t xs : List α} (ht : 0 < t.length) :
    (t ++ xs).take xs.length = xs ↔ Repeats t xs := by
  have hget : ∀ i < xs.length, ((t ++ xs).take xs.length)[i]? =
      if i < t.length then t[i]? else xs[i - t.length]? := by
    intro i hi
    rw [List.getElem?_take_of_lt hi, List.getElem?_append]
  constructor
  · intro h i
    induction i using Nat.strongRecOn with
    | ind i ih =>
      intro hi
      have hi' := hget i hi
      rw [h] at hi'
      rw [hi']
      split
      · next hlt => rw [Nat.mod_eq_of_lt hlt]
      · next hge =>
        -- one block back
        rw [ih (i - t.length) (by omega) (by omega), ← Nat.mod_eq_sub_mod (by omega)]
  · intro h
    apply List.ext_getElem?
    intro i
    by_cases hi : i < xs.length
    · rw [hget i hi]
      split
      · next hlt => rw [h i hi, Nat.mod_eq_of_lt hlt]
      · next hge =>
        rw [h (i - t.length) (by omega), ← Nat.mod_eq_sub_mod (by omega), h i hi]
    · rw [List.getElem?_eq_none (by rw [List.length_take]; omega),
        List.getElem?_eq_none (by omega)]

end Lib.Blocks
