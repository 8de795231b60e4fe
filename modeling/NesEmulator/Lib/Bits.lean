import Mathlib.Data.Nat.Notation
import Mathlib.Logic.Basic
import Mathlib.Tactic.Lemma

/-!
Single bits of a word, and words made of two bytes.

A bit of a word is written either through a mask or through a bit-field; both are `putBit`.
A 16-bit word travels as its high byte and its low byte, and `hi ++ lo` is the word they make.
As an address it lies in the page that its high byte names.
-/

namespace Lib.Bits

variable {w : ℕ}

/-- The word `s` with bit `i` set to `v`. -/
def putBit (s : BitVec w) (i : ℕ) (v : Bool) : BitVec w :=
  if v then s ||| BitVec.twoPow w i else s &&& ~~~BitVec.twoPow w i

@[simp] lemma getLsbD_putBit (s : BitVec w) (i j : ℕ) (v : Bool) (hi : i < w) :
    (putBit s i v).getLsbD j = if j = i then v else s.getLsbD j := by
  by_cases h : j = i
  · subst h
    cases v <;> simp [putBit, hi]
  · have hne : i ≠ j := Ne.symm h
    cases v
    · by_cases hj : j < w
      · simp [putBit, h, hj]
      · simp [putBit, h, BitVec.getLsbD_of_ge _ _ (Nat.le_of_not_lt hj)]
    · simp [putBit, h, hne]

/-! ### Two bytes make a word -/

lemma shiftLeft_or_eq_append (hi lo : BitVec 8) :
    (hi.setWidth 16 <<< 8) ||| lo.setWidth 16 = hi ++ lo := by
  apply BitVec.eq_of_getLsbD_eq
  intro i hi
  simp only [BitVec.getLsbD_or, BitVec.getLsbD_shiftLeft, BitVec.getLsbD_setWidth,
    BitVec.getLsbD_append]
  by_cases h : i < 8
  · simp [h, hi]
  · simp [h, hi, BitVec.getLsbD_of_ge lo i (by omega), show i - 8 < 16 by omega]

/-- The high byte of a word. -/
def highByte (v : BitVec 16) : BitVec 8 := ((v >>> 8) &&& 0x00FF).setWidth 8

/-- The low byte of a word. -/
def lowByte (v : BitVec 16) : BitVec 8 := (v &&& 0x00FF).setWidth 8

lemma getLsbD_mask (i : ℕ) (hi : i < 16) : (0x00FF : BitVec 16).getLsbD i = decide (i < 8) := by
  revert i
  decide

@[simp] lemma highByte_append_lowByte (v : BitVec 16) : highByte v ++ lowByte v = v := by
  apply BitVec.eq_of_getLsbD_eq
  intro i hi
  rw [BitVec.getLsbD_append]
  by_cases h : i < 8
  · simp only [h, lowByte, BitVec.getLsbD_setWidth, BitVec.getLsbD_and, getLsbD_mask i hi]
    simp
  · have h8 : i - 8 < 8 := by omega
    simp only [h, highByte, BitVec.getLsbD_setWidth, BitVec.getLsbD_and, BitVec.getLsbD_ushiftRight,
      getLsbD_mask (i - 8) (by omega), h8]
    simp [show 8 + (i - 8) = i by omega]

lemma toNat_append (hi lo : BitVec 8) : (hi ++ lo).toNat = hi.toNat * 256 + lo.toNat := by
  rw [BitVec.toNat_append, ← Nat.shiftLeft_add_eq_or_of_lt lo.isLt, Nat.shiftLeft_eq]

lemma toNat_lowByte (v : BitVec 16) : (lowByte v).toNat = v.toNat % 256 := by
  have hlow := (lowByte v).isLt
  have hword := congrArg BitVec.toNat (highByte_append_lowByte v)
  rw [toNat_append] at hword
  omega

lemma toNat_and_byteMask (v : BitVec 16) : (v &&& 0x00FF).toNat = v.toNat % 256 := by
  rw [BitVec.toNat_and]
  exact Nat.and_two_pow_sub_one_eq_mod v.toNat 8

/-- The low byte of a sum of bytes. -/
lemma toNat_add_and_byteMask (a b : BitVec 8) :
    ((a.setWidth 16 + b.setWidth 16) &&& (0x00FF : BitVec 16)).toNat =
      (a.toNat + b.toNat) % 256 := by
  have := a.isLt
  have := b.isLt
  rw [toNat_and_byteMask, BitVec.toNat_add, BitVec.toNat_setWidth, BitVec.toNat_setWidth]
  omega

lemma toNat_append_add (hi lo index : BitVec 8) :
    ((hi ++ lo) + index.setWidth 16).toNat = (lo.toNat + 256 * hi.toNat + index.toNat) % 65536 := by
  have := index.isLt
  rw [BitVec.toNat_add, toNat_append, BitVec.toNat_setWidth]
  omega

/-! ### Pages -/

/-- The page of 256 bytes in which an address lies. -/
def page (v : BitVec 16) : ℕ := v.toNat / 256

lemma getLsbD_pageMask (i : ℕ) (hi : i < 16) :
    (0xFF00 : BitVec 16).getLsbD i = decide (8 ≤ i) := by
  revert i
  decide

lemma and_pageMask (v : BitVec 16) : v &&& (0xFF00 : BitVec 16) = (v >>> 8) <<< 8 := by
  apply BitVec.eq_of_getLsbD_eq
  intro i hi
  rw [BitVec.getLsbD_and, getLsbD_pageMask i hi, BitVec.getLsbD_shiftLeft,
    BitVec.getLsbD_ushiftRight]
  by_cases h : 8 ≤ i
  · simp [h, hi]
  · simp [h, hi]

lemma toNat_and_pageMask (v : BitVec 16) : (v &&& 0xFF00).toNat = page v * 256 := by
  have := v.isLt
  rw [and_pageMask, BitVec.toNat_shiftLeft, BitVec.toNat_ushiftRight, Nat.shiftRight_eq_div_pow,
    Nat.shiftLeft_eq, page]
  omega

lemma and_pageMask_eq_iff (v w : BitVec 16) : v &&& 0xFF00 = w &&& 0xFF00 ↔ page v = page w := by
  rw [← BitVec.toNat_inj, toNat_and_pageMask, toNat_and_pageMask]
  omega

/-- The high byte alone is the page. -/
lemma shiftLeft_eq_append_and (hi lo : BitVec 8) :
    hi.setWidth 16 <<< 8 = (hi ++ lo) &&& (0xFF00 : BitVec 16) := by
  rw [← BitVec.toNat_inj, toNat_and_pageMask, page, toNat_append, BitVec.toNat_shiftLeft,
    BitVec.toNat_setWidth, Nat.shiftLeft_eq]
  omega

/-- Adding an index leaves the page exactly if it carries out of the low byte. -/
lemma page_append_add (hi lo index : BitVec 8) :
    page (hi ++ lo) = page ((hi ++ lo) + index.setWidth 16) ↔ lo.toNat + index.toNat < 256 := by
  have := hi.isLt
  have := lo.isLt
  have := index.isLt
  rw [page, page, BitVec.toNat_add, toNat_append, BitVec.toNat_setWidth]
  omega

end Lib.Bits
