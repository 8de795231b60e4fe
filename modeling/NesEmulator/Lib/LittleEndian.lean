import Mathlib.Data.Nat.Digits.Defs
import Mathlib.Tactic.Lemma
import Mathlib.Tactic.LinearCombination
import Mathlib.Tactic.NormNum

/-!
Little-endian numbers.

A number is the list of its digits, each a word of `w` bits, the lowest first. A carry that goes
from digit to digit adds two of them, or subtracts them as two's complement; the signs tell
whether the result overflows.
-/

namespace Lib.LittleEndian

variable {w : ℕ}

/-- The number with these digits. -/
def value (xs : List (BitVec w)) : ℕ := Nat.ofDigits (2 ^ w) (xs.map BitVec.toNat)

@[simp] lemma value_nil : value ([] : List (BitVec w)) = 0 := rfl

@[simp] lemma value_cons (x : BitVec w) (xs : List (BitVec w)) :
    value (x :: xs) = x.toNat + 2 ^ w * value xs :=
  Nat.ofDigits_cons ..

/-- One more than the largest number with so many digits. -/
def bound (w n : ℕ) : ℕ := (2 ^ w) ^ n

@[simp] lemma bound_zero : bound w 0 = 1 := pow_zero _

@[simp] lemma bound_succ (n : ℕ) : bound w (n + 1) = 2 ^ w * bound w n := pow_succ' _ _

lemma value_lt (xs : List (BitVec w)) : value xs < bound w xs.length := by
  induction xs with
  | nil => exact Nat.one_pos
  | cons x xs ih =>
    have hx := x.isLt
    rw [value_cons, List.length_cons, bound_succ]
    calc x.toNat + 2 ^ w * value xs < 2 ^ w * (value xs + 1) := by rw [Nat.mul_succ]; omega
      _ ≤ 2 ^ w * bound w xs.length := Nat.mul_le_mul_left _ ih

/-! ### Sign -/

/-- The top bit of the top digit. -/
def sign : List (BitVec w) → Bool
  | [] => false
  | [x] => x.msb
  | _ :: x :: xs => sign (x :: xs)

lemma sign_cons {x : BitVec w} {xs : List (BitVec w)} (h : xs ≠ []) :
    sign (x :: xs) = sign xs := by
  cases xs with
  | nil => exact absurd rfl h
  | cons => rfl

lemma two_dvd_bound {n : ℕ} (hw : 0 < w) (hn : 0 < n) : 2 ∣ bound w n :=
  dvd_pow (dvd_pow_self 2 hw.ne') hn.ne'

/-- The sign bit is set in the upper half of the numbers. -/
lemma sign_iff (hw : 0 < w) {xs : List (BitVec w)} (h : xs ≠ []) :
    sign xs = true ↔ bound w xs.length ≤ 2 * value xs := by
  induction xs with
  | nil => exact absurd rfl h
  | cons x xs ih =>
    rcases eq_or_ne xs [] with rfl | hxs
    · simp [sign, BitVec.msb_eq_true_iff_two_mul_ge]
    · obtain ⟨half, hhalf⟩ := two_dvd_bound hw (List.length_pos_iff.mpr hxs)
      have hx := x.isLt
      rw [sign_cons hxs, ih hxs, value_cons, List.length_cons, bound_succ, hhalf]
      constructor
      · intro hle
        have : 2 ^ w * half ≤ 2 ^ w * value xs := Nat.mul_le_mul_left _ (by omega)
        rw [Nat.mul_left_comm]
        omega
      · intro hle
        -- below the half there is room for one more digit
        by_contra hlt
        have : 2 ^ w * (value xs + 1) ≤ 2 ^ w * half := Nat.mul_le_mul_left _ (by omega)
        rw [Nat.mul_left_comm] at hle
        rw [Nat.mul_succ] at this
        omega

lemma sign_eq_testBit (hw : 0 < w) {xs : List (BitVec w)} (h : xs ≠ []) :
    sign xs = (value xs).testBit (w * xs.length - 1) := by
  have hpos : 0 < w * xs.length := Nat.mul_pos hw (List.length_pos_iff.mpr h)
  have hbound : bound w xs.length = 2 * 2 ^ (w * xs.length - 1) := by
    rw [bound, ← pow_mul, ← Nat.pow_succ', Nat.succ_eq_add_one, Nat.sub_add_cancel hpos]
  have hlt := value_lt xs
  have hdiv : value xs / 2 ^ (w * xs.length - 1) < 2 :=
    Nat.div_lt_of_lt_mul (by rw [Nat.mul_comm, ← hbound]; exact hlt)
  rw [Bool.eq_iff_iff, sign_iff hw h, Nat.testBit_eq_decide_div_mod_eq, decide_eq_true_iff,
    Nat.mod_eq_of_lt hdiv, hbound, Nat.mul_le_mul_left_iff (by decide)]
  constructor
  · intro hle
    have := (Nat.one_le_div_iff (by positivity)).mpr hle
    omega
  · intro hone
    exact (Nat.one_le_div_iff (by positivity)).mp hone.ge

/-- The number as two's complement. -/
def signed (xs : List (BitVec w)) : ℤ :=
  if sign xs then (value xs : ℤ) - bound w xs.length else value xs

/-! ### Addition -/

/-- The digits of a sum, and the carry out of it. -/
def add : Bool → List (BitVec w × BitVec w) → List (BitVec w) × Bool
  | c, [] => ([], c)
  | c, (x, y) :: ps =>
    let (zs, d) := add (BitVec.carry w x y c) ps
    ((x + y + (BitVec.ofBool c).setWidth w) :: zs, d)

lemma add_cons (c : Bool) (x y : BitVec w) (ps : List (BitVec w × BitVec w)) :
    add c ((x, y) :: ps) = ((x + y + (BitVec.ofBool c).setWidth w) ::
      (add (BitVec.carry w x y c) ps).1, (add (BitVec.carry w x y c) ps).2) :=
  rfl

@[simp] lemma add_length (c : Bool) (ps : List (BitVec w × BitVec w)) :
    (add c ps).1.length = ps.length := by
  induction ps generalizing c with
  | nil => rfl
  | cons p ps ih => exact congrArg (· + 1) (ih _)

/-- One digit of a sum, and the carry out of it. -/
lemma add_digit (hw : 0 < w) (x y : BitVec w) (c : Bool) :
    (x + y + (BitVec.ofBool c).setWidth w).toNat + 2 ^ w * (BitVec.carry w x y c).toNat =
      x.toNat + y.toNat + c.toNat := by
  have hx := x.isLt
  have hy := y.isLt
  have hpow : 1 < 2 ^ w := Nat.one_lt_two_pow hw.ne'
  have hc : ((BitVec.ofBool c).setWidth w).toNat = c.toNat := by
    cases c <;> simp [Nat.mod_eq_of_lt hpow]
  have hc1 : c.toNat ≤ 1 := Bool.toNat_le c
  rw [BitVec.toNat_add, BitVec.toNat_add, hc, Nat.mod_add_mod, BitVec.carry_width]
  by_cases h : x.toNat + y.toNat + c.toNat ≥ 2 ^ w
  · rw [decide_eq_true h, Nat.mod_eq_sub_mod h, Nat.mod_eq_of_lt (by omega)]
    simp only [Bool.toNat_true]
    omega
  · rw [decide_eq_false h, Nat.mod_eq_of_lt (by omega)]
    rfl

/-- **Addition.** -/
theorem value_add (hw : 0 < w) (c : Bool) (ps : List (BitVec w × BitVec w)) :
    value (add c ps).1 + bound w ps.length * (add c ps).2.toNat =
      value (ps.map Prod.fst) + value (ps.map Prod.snd) + c.toNat := by
  induction ps generalizing c with
  | nil => simp [add]
  | cons p ps ih =>
    obtain ⟨x, y⟩ := p
    have hdigit := add_digit hw x y c
    have hrest := ih (BitVec.carry w x y c)
    change (_ + 2 ^ w * _) + _ * _ = _
    rw [List.length_cons, bound_succ, List.map_cons, List.map_cons, value_cons, value_cons]
    dsimp only
    calc _ = (x + y + (BitVec.ofBool c).setWidth w).toNat +
          2 ^ w * (value (add (BitVec.carry w x y c) ps).1 +
            bound w ps.length * (add (BitVec.carry w x y c) ps).2.toNat) := by ring!
      _ = _ := by rw [hrest, Nat.mul_add, Nat.mul_add]; omega

/-- The number is one of `n` digits in two's complement. -/
def Fits (w n : ℕ) (v : ℤ) : Prop := -(bound w n : ℤ) ≤ 2 * v ∧ 2 * v < bound w n

/-- The summands have the same sign, and the sum has another one. -/
def overflows (x y z : Bool) : Bool := x == y && z != x

/-- **Overflow.** The signs tell whether the sum of two numbers is still one of so many digits. -/
theorem overflows_add (hw : 0 < w) (c : Bool) {ps : List (BitVec w × BitVec w)} (h : ps ≠ []) :
    overflows (sign (ps.map Prod.fst)) (sign (ps.map Prod.snd)) (sign (add c ps).1) = true ↔
      ¬ Fits w ps.length
        (signed (ps.map Prod.fst) + signed (ps.map Prod.snd) + c.toNat) := by
  have hlen : 0 < ps.length := List.length_pos_iff.mpr h
  obtain ⟨half, hhalf⟩ := two_dvd_bound hw hlen
  have hsum := value_add hw c ps
  have hzlen := add_length c ps
  generalize add c ps = r at hsum hzlen ⊢
  obtain ⟨zs, d⟩ := r
  dsimp only at hsum hzlen ⊢
  have hx := sign_iff hw (show ps.map Prod.fst ≠ [] by simpa using h)
  have hy := sign_iff hw (show ps.map Prod.snd ≠ [] by simpa using h)
  have hz := sign_iff hw (show zs ≠ [] by rw [← List.length_pos_iff, hzlen]; exact hlen)
  have hxlt := value_lt (ps.map Prod.fst)
  have hylt := value_lt (ps.map Prod.snd)
  have hzlt := value_lt zs
  have hc := Bool.toNat_le c
  unfold Fits signed overflows
  simp only [List.length_map, hzlen, hhalf] at hx hy hz hxlt hylt hzlt hsum ⊢
  cases d <;> cases hsx : sign (ps.map Prod.fst) <;> cases hsy : sign (ps.map Prod.snd) <;>
    cases hsz : sign zs <;> simp [hsx, hsy, hsz] at hx hy hz hsum ⊢ <;> omega

/-! ### Subtraction -/

/-- The digits of a difference, by adding the complement; the carry is set if nothing had to be
borrowed. -/
def sub (ps : List (BitVec w × BitVec w)) : List (BitVec w) × Bool :=
  add true (ps.map fun p => (p.1, ~~~p.2))

lemma value_not (xs : List (BitVec w)) :
    value (xs.map (~~~·)) + value xs + 1 = bound w xs.length := by
  induction xs with
  | nil => rfl
  | cons x xs ih =>
    have hx := x.isLt
    rw [List.map_cons, value_cons, value_cons, List.length_cons, bound_succ, ← ih, BitVec.toNat_not,
      Nat.mul_add, Nat.mul_add]
    omega

lemma sign_not (hw : 0 < w) {xs : List (BitVec w)} (h : xs ≠ []) :
    sign (xs.map (~~~·)) = !sign xs := by
  induction xs with
  | nil => exact absurd rfl h
  | cons x xs ih =>
    rcases eq_or_ne xs [] with rfl | hxs
    · simp [sign, BitVec.msb_not, hw]
    · rw [List.map_cons, sign_cons (by simpa using hxs), sign_cons hxs, ih hxs]

lemma signed_not (hw : 0 < w) {xs : List (BitVec w)} (h : xs ≠ []) :
    signed (xs.map (~~~·)) = -1 - signed xs := by
  have hnot := value_not xs
  unfold signed
  rw [sign_not hw h, List.length_map]
  cases sign xs
  · simp only [Bool.not_false, if_true, Bool.false_eq_true, if_false]
    omega
  · simp only [Bool.not_true, if_true, Bool.false_eq_true, if_false]
    omega

section Sub

variable (hw : 0 < w)

lemma map_fst_not (ps : List (BitVec w × BitVec w)) :
    (ps.map fun p => (p.1, ~~~p.2)).map Prod.fst = ps.map Prod.fst := by
  rw [List.map_map]
  rfl

lemma map_snd_not (ps : List (BitVec w × BitVec w)) :
    (ps.map fun p => (p.1, ~~~p.2)).map Prod.snd = (ps.map Prod.snd).map (~~~·) := by
  rw [List.map_map, List.map_map]
  rfl

include hw

/-- **Subtraction**, with the carry as the missing borrow. -/
theorem value_sub (ps : List (BitVec w × BitVec w)) : value (sub ps).1 + value (ps.map Prod.snd) +
    bound w ps.length * (sub ps).2.toNat = value (ps.map Prod.fst) + bound w ps.length := by
  have hsum := value_add hw true (ps.map fun p => (p.1, ~~~p.2))
  have hnot := value_not (ps.map Prod.snd)
  rw [map_fst_not, map_snd_not, List.length_map] at hsum
  rw [List.length_map] at hnot
  rw [sub]
  simp only [Bool.toNat_true] at hsum
  omega

/-- Nothing is borrowed from a number that is not smaller. -/
theorem sub_carry_iff (ps : List (BitVec w × BitVec w)) :
    (sub ps).2 = true ↔ value (ps.map Prod.snd) ≤ value (ps.map Prod.fst) := by
  have hsub := value_sub hw ps
  have hz := value_lt (sub ps).1
  have hx := value_lt (ps.map Prod.fst)
  rw [List.length_map] at hx
  rw [sub, add_length, List.length_map, ← sub] at hz
  cases hd : (sub ps).2 <;> simp [hd] at hsub ⊢ <;> omega

theorem value_sub_emod (ps : List (BitVec w × BitVec w)) : (value (sub ps).1 : ℤ) =
    ((value (ps.map Prod.fst) : ℤ) - value (ps.map Prod.snd)) % bound w ps.length := by
  have hsub := value_sub hw ps
  have hz := value_lt (sub ps).1
  rw [sub, add_length, List.length_map, ← sub] at hz
  generalize (sub ps).2.toNat = d at hsub
  have hdiff : (value (ps.map Prod.fst) : ℤ) - value (ps.map Prod.snd) =
      value (sub ps).1 + bound w ps.length * (d - 1 : ℤ) := by
    have hcast : (value (sub ps).1 : ℤ) + value (ps.map Prod.snd) + bound w ps.length * d =
        value (ps.map Prod.fst) + bound w ps.length := by exact_mod_cast hsub
    linear_combination -hcast
  rw [hdiff, Int.add_mul_emod_self_left, Int.emod_eq_of_lt (by omega) (by exact_mod_cast hz)]

theorem overflows_sub {ps : List (BitVec w × BitVec w)} (h : ps ≠ []) :
    overflows (sign (ps.map Prod.fst)) (!sign (ps.map Prod.snd)) (sign (sub ps).1) = true ↔
      ¬ Fits w ps.length (signed (ps.map Prod.fst) - signed (ps.map Prod.snd)) := by
  have hne : ps.map Prod.snd ≠ [] := by simpa using h
  have hadd := overflows_add hw true
    (show (ps.map fun p => (p.1, ~~~p.2)) ≠ [] by simpa using h)
  rw [map_fst_not, map_snd_not, sign_not hw hne, signed_not hw hne, List.length_map] at hadd
  rw [sub, hadd]
  simp only [Bool.toNat_true]
  ring_nf

/-- **Signed comparison**: the sign of the difference, corrected by the overflow. -/
theorem signed_lt_iff {ps : List (BitVec w × BitVec w)} (h : ps ≠ []) :
    (sign (sub ps).1 != overflows (sign (ps.map Prod.fst)) (!sign (ps.map Prod.snd))
      (sign (sub ps).1)) = true ↔
      signed (ps.map Prod.fst) < signed (ps.map Prod.snd) := by
  have hsub := value_sub hw ps
  have hlen : 0 < ps.length := List.length_pos_iff.mpr h
  have hzlen : (sub ps).1.length = ps.length := by rw [sub, add_length, List.length_map]
  have hx := sign_iff hw (show ps.map Prod.fst ≠ [] by simpa using h)
  have hy := sign_iff hw (show ps.map Prod.snd ≠ [] by simpa using h)
  have hz := sign_iff hw (show (sub ps).1 ≠ [] by rw [← List.length_pos_iff, hzlen]; exact hlen)
  have hxlt := value_lt (ps.map Prod.fst)
  have hylt := value_lt (ps.map Prod.snd)
  have hzlt := value_lt (sub ps).1
  unfold signed overflows
  simp only [List.length_map, hzlen] at hx hy hz hxlt hylt hzlt hsub ⊢
  cases hd : (sub ps).2 <;> cases hsx : sign (ps.map Prod.fst) <;>
    cases hsy : sign (ps.map Prod.snd) <;> cases hsz : sign (sub ps).1 <;>
    simp [hd, hsx, hsy, hsz] at hx hy hz hsub ⊢ <;> omega

end Sub

end Lib.LittleEndian
