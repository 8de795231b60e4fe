import NesEmulator.Lib.LittleEndian

/-!
Shifts of little-endian numbers.

A bit that goes from digit to digit, upwards or downwards, doubles or halves the number; one
undoes the other. Both are told twice: along the number, and as one digit after the other in
the order in which a program takes them.
-/

namespace Lib.LittleEndian

variable {w : ℕ}

/-- A digit that moves up, with a bit that goes in below. -/
def rolDigit (x : BitVec w) (c : Bool) : BitVec w := (x <<< 1) ||| (BitVec.ofBool c).setWidth w

/-- A digit that moves down, with a bit that goes in above. -/
def rorDigit (x : BitVec w) (d : Bool) : BitVec w :=
  (x >>> 1) ||| ((BitVec.ofBool d).setWidth w <<< (w - 1))

/-- A bit goes in below, the others move up, and the top bit comes out. -/
def rolUp : Bool → List (BitVec w) → List (BitVec w) × Bool
  | c, [] => ([], c)
  | c, x :: xs =>
    let (ys, d) := rolUp x.msb xs
    (rolDigit x c :: ys, d)

/-- A bit goes in above, the others move down, and the lowest bit comes out. -/
def rorDown (c : Bool) : List (BitVec w) → List (BitVec w) × Bool
  | [] => ([], c)
  | x :: xs =>
    let (ys, d) := rorDown c xs
    (rorDigit x d :: ys, x.getLsbD 0)

lemma rolUp_cons (c : Bool) (x : BitVec w) (xs : List (BitVec w)) :
    rolUp c (x :: xs) = (rolDigit x c :: (rolUp x.msb xs).1, (rolUp x.msb xs).2) :=
  rfl

lemma rorDown_cons (c : Bool) (x : BitVec w) (xs : List (BitVec w)) :
    rorDown c (x :: xs) = (rorDigit x (rorDown c xs).2 :: (rorDown c xs).1, x.getLsbD 0) :=
  rfl

@[simp] lemma rolUp_length (c : Bool) (xs : List (BitVec w)) :
    (rolUp c xs).1.length = xs.length := by
  induction xs generalizing c with
  | nil => rfl
  | cons x xs ih => exact congrArg (· + 1) (ih _)

/-! ### Digit after digit -/

section Ripple

variable (digit : BitVec w → Bool → BitVec w) (out : BitVec w → Bool)

/-- Each digit takes the bit that the one before it leaves. -/
def ripple : Bool → List (BitVec w) → List (BitVec w) × Bool
  | c, [] => ([], c)
  | c, x :: xs =>
    let (ys, d) := ripple (out x) xs
    (digit x c :: ys, d)

lemma ripple_cons (c : Bool) (x : BitVec w) (xs : List (BitVec w)) :
    ripple digit out c (x :: xs) =
      (digit x c :: (ripple digit out (out x) xs).1, (ripple digit out (out x) xs).2) :=
  rfl

lemma ripple_snoc (c : Bool) (xs : List (BitVec w)) (x : BitVec w) :
    ripple digit out c (xs ++ [x]) =
      ((ripple digit out c xs).1 ++ [digit x (ripple digit out c xs).2], out x) := by
  induction xs generalizing c with
  | nil => rfl
  | cons y ys ih => rw [List.cons_append, ripple_cons, ripple_cons, ih, List.cons_append]

end Ripple

/-- To the left the digits are taken in their order. -/
lemma ripple_rolDigit (c : Bool) (xs : List (BitVec w)) :
    ripple rolDigit BitVec.msb c xs = rolUp c xs := by
  induction xs generalizing c with
  | nil => rfl
  | cons x xs ih => rw [ripple_cons, rolUp_cons, ih]

/-- To the right they are taken from the top. -/
lemma ripple_rorDigit (c : Bool) (xs : List (BitVec w)) :
    ripple rorDigit (·.getLsbD 0) c xs.reverse =
      ((rorDown c xs).1.reverse, (rorDown c xs).2) := by
  induction xs with
  | nil => rfl
  | cons x xs ih => rw [List.reverse_cons, ripple_snoc, ih, rorDown_cons, List.reverse_cons]

/-! ### One digit -/

section Digit

variable (hw : 0 < w) (x : BitVec w)
include hw

lemma toNat_bit (c : Bool) : ((BitVec.ofBool c).setWidth w).toNat = c.toNat := by
  have hpow : 1 < 2 ^ w := Nat.one_lt_two_pow hw.ne'
  cases c <;> simp [Nat.mod_eq_of_lt hpow]

lemma two_pow_eq : 2 ^ w = 2 * 2 ^ (w - 1) := by
  rw [← Nat.pow_succ', Nat.succ_eq_add_one, Nat.sub_add_cancel hw]

lemma rol_digit (c : Bool) :
    (rolDigit x c).toNat + 2 ^ w * x.msb.toNat = 2 * x.toNat + c.toNat := by
  unfold rolDigit
  have hx := x.isLt
  have hc := Bool.toNat_lt c
  rw [two_pow_eq hw] at hx ⊢
  have hor : 2 * (x.toNat % 2 ^ (w - 1)) ||| c.toNat = 2 * (x.toNat % 2 ^ (w - 1)) + c.toNat :=
    (Nat.two_pow_add_eq_or_of_lt (i := 1) hc _).symm
  rw [BitVec.toNat_or, BitVec.toNat_shiftLeft, toNat_bit hw, Nat.shiftLeft_eq, BitVec.msb_eq_decide,
    two_pow_eq hw, Nat.mul_comm x.toNat, Nat.pow_one, Nat.mul_mod_mul_left, hor]
  by_cases h : 2 ^ (w - 1) ≤ x.toNat
  · rw [Nat.mod_eq_sub_mod h, Nat.mod_eq_of_lt (by omega), decide_eq_true h]
    simp only [Bool.toNat_true]
    omega
  · rw [Nat.mod_eq_of_lt (by omega), decide_eq_false h]
    simp only [Bool.toNat_false]
    omega

lemma ror_digit (d : Bool) :
    2 * (rorDigit x d).toNat + (x.getLsbD 0).toNat = x.toNat + 2 ^ w * d.toNat := by
  unfold rorDigit
  have hx := x.isLt
  have hd := Bool.toNat_le d
  have hlow : (x.getLsbD 0).toNat = x.toNat % 2 := by
    rw [BitVec.getLsbD, Nat.testBit_zero]
    cases Nat.mod_two_eq_zero_or_one x.toNat <;> simp [*]
  rw [two_pow_eq hw] at hx ⊢
  have hhalf : x.toNat / 2 < 2 ^ (w - 1) := by omega
  have hbit : d.toNat * 2 ^ (w - 1) % (2 * 2 ^ (w - 1)) = 2 ^ (w - 1) * d.toNat := by
    rw [Nat.mod_eq_of_lt, Nat.mul_comm]
    cases d <;> simp
  have hor : x.toNat / 2 ||| 2 ^ (w - 1) * d.toNat = 2 ^ (w - 1) * d.toNat + x.toNat / 2 := by
    rw [Nat.or_comm]
    exact (Nat.two_pow_add_eq_or_of_lt hhalf _).symm
  rw [BitVec.toNat_or, BitVec.toNat_ushiftRight, BitVec.toNat_shiftLeft, toNat_bit hw,
    Nat.shiftLeft_eq, Nat.shiftRight_eq_div_pow, Nat.pow_one, hlow, two_pow_eq hw, hbit, hor,
    Nat.mul_assoc]
  omega

/-- A digit comes back. -/
lemma ror_rol_digit (c : Bool) :
    rorDigit (rolDigit x c) x.msb = x ∧ (rolDigit x c).getLsbD 0 = c := by
  have hrol := rol_digit hw x c
  have hror := ror_digit hw (rolDigit x c) x.msb
  have hlow : (rolDigit x c).getLsbD 0 = c := by simp [rolDigit, hw]
  refine ⟨BitVec.eq_of_toNat_eq ?_, hlow⟩
  rw [hlow] at hror
  omega

end Digit

/-! ### The number -/

variable (hw : 0 < w)
include hw

/-- **Left**: twice the number, and the bit that goes in. -/
theorem value_rolUp (c : Bool) (xs : List (BitVec w)) :
    value (rolUp c xs).1 + bound w xs.length * (rolUp c xs).2.toNat = 2 * value xs + c.toNat := by
  induction xs generalizing c with
  | nil => simp [rolUp]
  | cons x xs ih =>
    have hdigit := rol_digit hw x c
    have hrest := ih x.msb
    rw [rolUp_cons, List.length_cons, bound_succ, value_cons, value_cons]
    calc _ = (rolDigit x c).toNat +
          2 ^ w * (value (rolUp x.msb xs).1 + bound w xs.length * (rolUp x.msb xs).2.toNat) := by
          rw [Nat.mul_add, Nat.mul_assoc, Nat.add_assoc]
      _ = 2 * x.toNat + c.toNat + 2 ^ w * (2 * value xs) := by
          rw [hrest, Nat.mul_add, ← hdigit]
          omega
      _ = _ := by
          rw [Nat.mul_left_comm, Nat.mul_add]
          omega

/-- **Right**: half the number with the bit that goes in on top. -/
theorem value_rorDown (c : Bool) (xs : List (BitVec w)) :
    2 * value (rorDown c xs).1 + (rorDown c xs).2.toNat = value xs + bound w xs.length * c.toNat := by
  induction xs with
  | nil => simp [rorDown]
  | cons x xs ih =>
    have hdigit := ror_digit hw x (rorDown c xs).2
    rw [rorDown_cons, List.length_cons, bound_succ, value_cons, value_cons]
    dsimp only
    calc _ = x.toNat + 2 ^ w * (2 * value (rorDown c xs).1 + (rorDown c xs).2.toNat) := by
          rw [Nat.mul_add (2 ^ w), Nat.mul_left_comm (2 ^ w) 2]
          omega
      _ = _ := by rw [ih, Nat.mul_add, Nat.mul_assoc, Nat.add_assoc]

/-- Modulo the size of the number. -/
lemma value_rolUp_mod (c : Bool) (xs : List (BitVec w)) :
    value (rolUp c xs).1 = (2 * value xs + c.toNat) % bound w xs.length := by
  have hlt := value_lt (rolUp c xs).1
  rw [rolUp_length] at hlt
  rw [← value_rolUp hw, Nat.add_mul_mod_self_left, Nat.mod_eq_of_lt hlt]

lemma value_rorDown_false (xs : List (BitVec w)) : value (rorDown false xs).1 = value xs / 2 := by
  have hvalue := value_rorDown hw false xs
  have hcarry := Bool.toNat_le (rorDown false xs).2
  rw [Bool.toNat_false, Nat.mul_zero] at hvalue
  omega

omit hw in
/-- What comes out on the left is the top bit. -/
lemma rolUp_carry (c : Bool) {xs : List (BitVec w)} (h : xs ≠ []) : (rolUp c xs).2 = sign xs := by
  induction xs generalizing c with
  | nil => exact absurd rfl h
  | cons x xs ih =>
    rw [rolUp_cons]
    rcases eq_or_ne xs [] with rfl | hxs
    · rfl
    · rw [sign_cons hxs, ih x.msb hxs]

/-- What comes out on the right is the lowest bit. -/
lemma rorDown_carry (c : Bool) {xs : List (BitVec w)} (h : xs ≠ []) :
    (rorDown c xs).2 = (value xs).testBit 0 := by
  cases xs with
  | nil => exact absurd rfl h
  | cons x xs =>
    rw [rorDown_cons, value_cons, BitVec.getLsbD, Nat.testBit_zero, Nat.testBit_zero,
      two_pow_eq hw, Nat.mul_assoc, Nat.add_mul_mod_self_left]

/-- **Right undoes left.** -/
theorem rorDown_rolUp (c : Bool) (xs : List (BitVec w)) :
    rorDown (rolUp c xs).2 (rolUp c xs).1 = (xs, c) := by
  induction xs generalizing c with
  | nil => rfl
  | cons x xs ih =>
    obtain ⟨hdigit, hlow⟩ := ror_rol_digit hw x c
    rw [rolUp_cons, rorDown_cons, ih, hdigit, hlow]

end Lib.LittleEndian
