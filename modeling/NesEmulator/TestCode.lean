import NesEmulator.ProgramLogic

/-!
The program `test_code_1`.

It is a game in which a snake grows, and its code lies at 0x0600, because of the addresses of
its subroutines. Three of them have a loop: one lets time pass, one moves the snake on, and
one looks if its head has run into its body. They return by `popStackU16`, which pulls the low
byte first.
-/

namespace NesEmulator.TestCode

open Lib.Bits Lib.Contracts NumberMachine

def testCode1 : List U8 :=
  [0x20, 0x06, 0x06, 0x20, 0x38, 0x06, 0x20, 0x0d, 0x06, 0x20, 0x2a, 0x06,
   0x60, 0xa9, 0x02, 0x85, 0x02, 0xa9, 0x04, 0x85, 0x03, 0xa9, 0x11, 0x85,
   0x10, 0xa9, 0x10, 0x85, 0x12, 0xa9, 0x0f, 0x85, 0x14, 0xa9, 0x04, 0x85,
   0x11, 0x85, 0x13, 0x85, 0x15, 0x60, 0xa5, 0xfe, 0x85, 0x00, 0xa5, 0xfe,
   0x29, 0x03, 0x18, 0x69, 0x02, 0x85, 0x01, 0x60, 0x20, 0x4d, 0x06, 0x20,
   0x8d, 0x06, 0x20, 0xc3, 0x06, 0x20, 0x19, 0x07, 0x20, 0x20, 0x07, 0x20,
   0x2d, 0x07, 0x4c, 0x38, 0x06, 0xa5, 0xff, 0xc9, 0x77, 0xf0, 0x0d, 0xc9,
   0x64, 0xf0, 0x14, 0xc9, 0x73, 0xf0, 0x1b, 0xc9, 0x61, 0xf0, 0x22, 0x60,
   0xa9, 0x04, 0x24, 0x02, 0xd0, 0x26, 0xa9, 0x01, 0x85, 0x02, 0x60, 0xa9,
   0x08, 0x24, 0x02, 0xd0, 0x1b, 0xa9, 0x02, 0x85, 0x02, 0x60, 0xa9, 0x01,
   0x24, 0x02, 0xd0, 0x10, 0xa9, 0x04, 0x85, 0x02, 0x60, 0xa9, 0x02, 0x24,
   0x02, 0xd0, 0x05, 0xa9, 0x08, 0x85, 0x02, 0x60, 0x60, 0x20, 0x94, 0x06,
   0x20, 0xa8, 0x06, 0x60, 0xa5, 0x00, 0xc5, 0x10, 0xd0, 0x0d, 0xa5, 0x01,
   0xc5, 0x11, 0xd0, 0x07, 0xe6, 0x03, 0xe6, 0x03, 0x20, 0x2a, 0x06, 0x60,
   0xa2, 0x02, 0xb5, 0x10, 0xc5, 0x10, 0xd0, 0x06, 0xb5, 0x11, 0xc5, 0x11,
   0xf0, 0x09, 0xe8, 0xe8, 0xe4, 0x03, 0xf0, 0x06, 0x4c, 0xaa, 0x06, 0x4c,
   0x35, 0x07, 0x60, 0xa6, 0x03, 0xca, 0x8a, 0xb5, 0x10, 0x95, 0x12, 0xca,
   0x10, 0xf9, 0xa5, 0x02, 0x4a, 0xb0, 0x09, 0x4a, 0xb0, 0x19, 0x4a, 0xb0,
   0x1f, 0x4a, 0xb0, 0x2f, 0xa5, 0x10, 0x38, 0xe9, 0x20, 0x85, 0x10, 0x90,
   0x01, 0x60, 0xc6, 0x11, 0xa9, 0x01, 0xc5, 0x11, 0xf0, 0x28, 0x60, 0xe6,
   0x10, 0xa9, 0x1f, 0x24, 0x10, 0xf0, 0x1f, 0x60, 0xa5, 0x10, 0x18, 0x69,
   0x20, 0x85, 0x10, 0xb0, 0x01, 0x60, 0xe6, 0x11, 0xa9, 0x06, 0xc5, 0x11,
   0xf0, 0x0c, 0x60, 0xc6, 0x10, 0xa5, 0x10, 0x29, 0x1f, 0xc9, 0x1f, 0xf0,
   0x01, 0x60, 0x4c, 0x35, 0x07, 0xa0, 0x00, 0xa5, 0xfe, 0x91, 0x00, 0x60,
   0xa6, 0x03, 0xa9, 0x00, 0x81, 0x10, 0xa2, 0x00, 0xa9, 0x01, 0x81, 0x10,
   0x60, 0xa2, 0x00, 0xea, 0xea, 0xca, 0xd0, 0xfb, 0x60]

set_option maxRecDepth 4000 in
lemma length_testCode1 : testCode1.length = 309 := rfl

/-- The bytes lie one after the other from an address on. -/
def Lies (memory : U16 → U8) : U16 → List U8 → Prop
  | _, [] => True
  | a, b :: bs => memory a = b ∧ Lies memory (a + 1) bs

lemma add_ofNat_succ (a : U16) (i : ℕ) :
    a + BitVec.ofNat 16 (i + 1) = a + 1 + BitVec.ofNat 16 i := by
  rw [Nat.add_comm, BitVec.ofNat_add, BitVec.add_assoc]
  rfl

lemma Lies.drop {memory : U16 → U8} {a : U16} {bs : List U8} (h : Lies memory a bs) (n : ℕ) :
    Lies memory (a + BitVec.ofNat 16 n) (bs.drop n) := by
  induction n generalizing a bs with
  | zero =>
    rw [BitVec.add_zero]
    exact h
  | succ n ih =>
    rcases bs with _ | ⟨b, bs⟩
    · trivial
    · rw [add_ofNat_succ]
      exact ih h.2

lemma Lies.congr {memory memory' : U16 → U8} {a : U16} {bs : List U8} (h : Lies memory a bs)
    (hsame : ∀ i < bs.length, memory' (a + BitVec.ofNat 16 i) = memory (a + BitVec.ofNat 16 i)) :
    Lies memory' a bs := by
  induction bs generalizing a with
  | nil => trivial
  | cons b bs ih =>
    have hfirst := hsame 0 (Nat.succ_pos _)
    rw [BitVec.add_zero] at hfirst
    refine ⟨hfirst.trans h.1, ih h.2 fun i hi => ?_⟩
    have hnext := hsame (i + 1) (Nat.succ_lt_succ hi)
    rwa [add_ofNat_succ] at hnext

lemma code_toNat {i : ℕ} (hi : i < 309) : (0x0600 + BitVec.ofNat 16 i).toNat = 0x0600 + i := by
  rw [BitVec.toNat_add, BitVec.toNat_ofNat]
  change (0x0600 + i % 0x10000) % 0x10000 = _
  omega

/-- The address of an indexed operand in page zero. -/
lemma indexed (v : U8) {j : ℕ} (h : v.toNat + j < 0x100) :
    (v + BitVec.ofNat 8 j).setWidth 16 = BitVec.ofNat 16 (v.toNat + j) := by
  apply BitVec.eq_of_toNat_eq
  rw [BitVec.toNat_setWidth, BitVec.toNat_add, BitVec.toNat_ofNat, BitVec.toNat_ofNat]
  omega

variable (start : Bus) (m : Machine busShows) (k : ℕ)

/-! ### Letting time pass -/

section Spin

variable {m}

/-- What the loop works on: X, judged, and the program counter. -/
def spun (m : Machine busShows) (x : U8) (a : U16) : Machine busShows := (m.put .x x).jump a

lemma put_put (m : Machine busShows) (r : Register) (v w : U8) :
    (m.put r v).put r w = m.put r w := by
  refine Machine.ext rfl ?_ ?_ rfl
  · exact Function.update_idem ..
  · funext f
    cases f <;> rfl

lemma ofInt_pred (v : U8) : BitVec.ofInt 8 (v.toNat + -1) = v - 1 := by
  revert v
  decide

lemma spun_dex (m : Machine busShows) (x : U8) (a b : U16) :
    ((spun m x a).jump b).countRegister (-1) .x = spun m (x - 1) b := by
  rw [← ofInt_pred]
  exact congrArg (·.jump b) (put_put m .x x _)

/-- Two NOPs, and X counts down. -/
lemma runs_spin_body (hcode : Lies m.memory 0x0600 testCode1) (x : U8) :
    Runs (At start (spun m x 0x072f) k) (At start (spun m (x - 1) 0x0732) (k + 6)) := by
  have hspin : Lies m.memory 0x072d [0xa2, 0x00, 0xea, 0xea, 0xca, 0xd0, 0xfb, 0x60] :=
    hcode.drop 0x12d
  obtain ⟨-, -, h2, h3, h4, -⟩ := hspin
  have hnop : Runs (At start (spun m x 0x072f) k) (At start (spun m x 0x0730) (k + 2)) :=
    runs_mode _ _ _ .nop .implied h2 rfl (by decide) rfl
  have hnop' : Runs (At start (spun m x 0x0730) (k + 2)) (At start (spun m x 0x0731) (k + 4)) :=
    runs_mode _ _ _ .nop .implied h3 rfl (by decide) rfl
  have hdex : Runs (At start (spun m x 0x0731) (k + 4))
      (At start (spun m (x - 1) 0x0732) (k + 6)) := by
    rw [← spun_dex m x 0x0731 0x0732]
    exact runs_mode _ _ _ .dex .implied h4 rfl (by decide) rfl
  exact (hnop.trans hnop').trans hdex

/-- BNE goes back until X is zero. -/
lemma runs_spin_branch (hcode : Lies m.memory 0x0600 testCode1) (x : U8) :
    Runs (At start (spun m x 0x0732) k)
      (if x = 0 then At start (spun m x 0x0734) (k + 2)
        else At start (spun m x 0x072f) (k + 3)) := by
  have hspin : Lies m.memory 0x072d [0xa2, 0x00, 0xea, 0xea, 0xca, 0xd0, 0xfb, 0x60] :=
    hcode.drop 0x12d
  obtain ⟨-, -, -, -, -, h5, h6, -⟩ := hspin
  have htarget : (0x0732 : U16) + 2 + BitVec.signExtend 16 (0xfb : U8) = 0x072f := by decide
  have hpage : page (0x0732 + 3) = page 0x072f := by decide
  have htakes : (spun m x 0x0732).takes .bne = !decide (x.toNat = 0) := beq_false _
  have hbranch := runs_near start (spun m x 0x0732) k .bne h5 rfl (by decide) h6
    htarget hpage htakes
  by_cases hx : x = 0
  · have hzero : x.toNat = 0 := congrArg BitVec.toNat hx
    rw [decide_eq_true hzero, if_neg (by decide)] at hbranch
    rw [if_pos hx]
    exact hbranch
  · have hne : x.toNat ≠ 0 := fun h => hx (BitVec.eq_of_toNat_eq h)
    rw [decide_eq_false hne, if_pos (by decide)] at hbranch
    rw [if_neg hx]
    exact hbranch

/-- A turn of the loop that is not the last one. -/
lemma runs_spin_turn (hcode : Lies m.memory 0x0600 testCode1) {j : ℕ} (hj : j < 255) :
    Runs (At start (spun m (BitVec.ofNat 8 (256 - j)) 0x072f) (k + 9 * j))
      (At start (spun m (BitVec.ofNat 8 (256 - (j + 1))) 0x072f) (k + 9 * (j + 1))) := by
  have hpred : BitVec.ofNat 8 (256 - j) - 1 = BitVec.ofNat 8 (256 - (j + 1)) := by
    apply BitVec.eq_of_toNat_eq
    rw [BitVec.toNat_sub, BitVec.toNat_ofNat, BitVec.toNat_ofNat]
    change (256 - 1 + (256 - j) % 256) % 256 = (256 - (j + 1)) % 256
    omega
  have hne : BitVec.ofNat 8 (256 - (j + 1)) ≠ 0 := by
    intro h
    have htoNat := congrArg BitVec.toNat h
    rw [BitVec.toNat_ofNat] at htoNat
    change (256 - (j + 1)) % 256 = 0 at htoNat
    omega
  have hbody := runs_spin_body start (k + 9 * j) hcode (BitVec.ofNat 8 (256 - j))
  have hback := runs_spin_branch start (k + 9 * j + 6) hcode (BitVec.ofNat 8 (256 - (j + 1)))
  rw [hpred] at hbody
  rw [if_neg hne] at hback
  exact hbody.trans hback

/-- **The subroutine at 0x072d** lets 2311 cycles pass, and returns with X cleared and judged. -/
theorem runs_spin (hcode : Lies m.memory 0x0600 testCode1) : Runs (At start (m.jump 0x072d) k)
    (At start ((m.put .x 0).dropWord.jump (m.topWord + 1)) (k + 2311)) := by
  have hspin : Lies m.memory 0x072d [0xa2, 0x00, 0xea, 0xea, 0xca, 0xd0, 0xfb, 0x60] :=
    hcode.drop 0x12d
  obtain ⟨h0, h1, -, -, -, -, -, h7, -⟩ := hspin
  have hldx : Runs (At start (m.jump 0x072d) k) (At start (spun m 0 0x072f) (k + 2)) := by
    have hstep := runs_mode start (m.jump 0x072d) k .ldx .immediate h0 rfl (by decide)
      operand_immediate
    change Runs _ (At start (spun m (m.memory 0x072e) 0x072f) (k + 2)) at hstep
    have hx : m.memory 0x072e = 0 := h1
    rwa [hx] at hstep
  have hloop : Runs (At start (spun m 0 0x072f) (k + 2)) (At start (spun m 1 0x072f) (k + 2297)) :=
    LeadsTo.count
      (I := fun j => At start (spun m (BitVec.ofNat 8 (256 - j)) 0x072f) (k + 2 + 9 * j))
      (n := 255) fun j hj => runs_spin_turn start (k + 2) hcode hj
  have hlast : Runs (At start (spun m 1 0x072f) (k + 2297))
      (At start (spun m 0 0x0734) (k + 2305)) :=
    (runs_spin_body start _ hcode 1).trans (runs_spin_branch start _ hcode 0)
  have hrts : Runs (At start (spun m 0 0x0734) (k + 2305)) _ :=
    runs_mode _ _ _ .rts .implied h7 rfl (by decide) rfl
  exact ((hldx.trans hloop).trans hlast).trans hrts

/-- A return address on the stack is not in the code. -/
lemma lies_pushWord (hcode : Lies m.memory 0x0600 testCode1) (w : U16) :
    Lies (m.pushWord w).memory 0x0600 testCode1 := by
  refine hcode.congr fun i hi => pushWord_memory m w (Or.inl ?_)
  have hi' : i < 309 := length_testCode1 ▸ hi
  have haddress := code_toNat hi'
  omega

/-- The same, called from anywhere. -/
theorem runs_spin_called (hcode : Lies m.memory 0x0600 testCode1)
    (hjsr : Lies m.memory m.programCounter [0x20, 0x2d, 0x07]) : Runs (At start m k)
    (At start (((m.pushWord (m.programCounter + 2)).put .x 0).dropWord.jump (m.programCounter + 3))
      (k + 2317)) := by
  obtain ⟨hop, hlo, hhi, -⟩ := hjsr
  rw [BitVec.add_assoc] at hhi
  exact runs_call hop hlo hhi (runs_spin start _ (lies_pushWord hcode (m.programCounter + 2)))

end Spin

/-! ### Moving the body on -/

section Move

variable {m}

/-- From `j` on, the bytes of the body of length `n` have been moved on by two. -/
def moved (memory : U16 → U8) (n j : ℕ) : U16 → U8 := fun b =>
  if b.toNat ≤ 0x2000 ∧ 0x12 + j ≤ b.toNat % 0x800 ∧ b.toNat % 0x800 < 0x12 + n
  then memory (BitVec.ofNat 16 (b.toNat % 0x800 - 2)) else memory b

/-- What the loop works on: the moved bytes, the accumulator, and X, which has been judged. -/
def moving (m : Machine busShows) (n j : ℕ) (a x : U8) (pc : U16) : Machine busShows :=
  (({ m with memory := moved m.memory n j }.setRegister .accumulator a).put .x x).jump pc

lemma moved_of_le {memory : U16 → U8} {n j : ℕ} {b : U16} (h : 0x12 + n ≤ b.toNat % 0x800) :
    moved memory n j b = memory b :=
  if_neg (by omega)

lemma moved_of_lt {memory : U16 → U8} {n j : ℕ} {b : U16} (h : b.toNat % 0x800 < 0x12 + j) :
    moved memory n j b = memory b :=
  if_neg (by omega)

/-- One more byte. -/
lemma store_moved {memory : U16 → U8} {n j : ℕ} (hj : j < n) (hn : n ≤ 0x81) :
    (fun b => if busShows (BitVec.ofNat 16 (0x12 + j)) b
      then memory (BitVec.ofNat 16 (0x10 + j)) else moved memory n (j + 1) b) =
      moved memory n j := by
  have haddress : (BitVec.ofNat 16 (0x12 + j)).toNat = 0x12 + j := by
    rw [BitVec.toNat_ofNat]
    omega
  funext b
  simp only [busShows, haddress, decide_eq_true_iff]
  by_cases hb : b.toNat ≤ 0x2000 ∧ b.toNat % 0x800 = 0x12 + j
  · rw [if_pos (by omega), moved, if_pos (by omega), hb.2]
    congr 2
    omega
  · rw [if_neg (by omega), moved, moved]
    exact if_congr (by omega) rfl rfl

/-- The code is not moved. -/
lemma lies_moved (hcode : Lies m.memory 0x0600 testCode1) {n j : ℕ} (hn : n ≤ 0x81) :
    Lies (moved m.memory n j) 0x0600 testCode1 := by
  refine hcode.congr fun i hi => moved_of_le ?_
  have hi' : i < 309 := length_testCode1 ▸ hi
  have haddress := code_toNat hi'
  omega

lemma store_moving {n j : ℕ} (hj : j < n) (hn : n ≤ 0x81) (m : Machine busShows) (a x : U8) :
    (((moving m n (j + 1) a x 0x06c9).put .accumulator
      (m.memory (BitVec.ofNat 16 (0x10 + j)))).jump 0x06cb).store (BitVec.ofNat 16 (0x12 + j))
        (m.memory (BitVec.ofNat 16 (0x10 + j))) =
      (moving m n j (m.memory (BitVec.ofNat 16 (0x10 + j))) x 0x06cb).judge
        (m.memory (BitVec.ofNat 16 (0x10 + j))) := by
  refine Machine.ext rfl ?_ ?_ (store_moved hj hn)
  · funext r
    cases r <;> rfl
  · funext f
    cases f <;> rfl

lemma moving_dex (m : Machine busShows) (n j : ℕ) (a x v : U8) (b c : U16) :
    (((moving m n j a x b).judge v).jump c).countRegister (-1) .x = moving m n j a (x - 1) c := by
  rw [← ofInt_pred]
  refine Machine.ext rfl ?_ ?_ rfl
  · funext r
    cases r <;> rfl
  · funext f
    cases f <;> rfl

/-- The next byte is moved, and X counts down. -/
lemma runs_move_body (hcode : Lies m.memory 0x0600 testCode1) {n j : ℕ} (hj : j < n)
    (hn : n ≤ 0x81) (a : U8) :
    Runs (At start (moving m n (j + 1) a (BitVec.ofNat 8 j) 0x06c7) k)
      (At start (moving m n j (m.memory (BitVec.ofNat 16 (0x10 + j))) (BitVec.ofNat 8 j - 1) 0x06cc)
        (k + 10)) := by
  have hfront : Lies (moved m.memory n (j + 1)) 0x06c7 _ := (lies_moved hcode hn).drop 0xc7
  have hback : Lies (moved m.memory n j) 0x06cb _ := (lies_moved hcode hn).drop 0xcb
  obtain ⟨h4, h5, h6, h7, -⟩ := hfront
  obtain ⟨h8, -⟩ := hback
  have hsource : ((0x10 : U8) + BitVec.ofNat 8 j).setWidth 16 = BitVec.ofNat 16 (0x10 + j) :=
    indexed 0x10 (by change 0x10 + j < 0x100; omega)
  have htarget : ((0x12 : U8) + BitVec.ofNat 8 j).setWidth 16 = BitVec.ofNat 16 (0x12 + j) :=
    indexed 0x12 (by change 0x12 + j < 0x100; omega)
  have hload : moved m.memory n (j + 1) (BitVec.ofNat 16 (0x10 + j)) =
      m.memory (BitVec.ofNat 16 (0x10 + j)) := by
    refine moved_of_lt ?_
    rw [BitVec.toNat_ofNat]
    omega
  have hstored := store_moving hj hn m a (BitVec.ofNat 8 j)
  set v := m.memory (BitVec.ofNat 16 (0x10 + j))
  have hlda := runs_mode start (moving m n (j + 1) a (BitVec.ofNat 8 j) 0x06c7) k .lda .zeroPageX
    h4 rfl (by decide) (operand_zeroPageX h5)
  change Runs _ (At start ((moving m n (j + 1) a (BitVec.ofNat 8 j) 0x06c9).put .accumulator
    (moved m.memory n (j + 1) (((0x10 : U8) + BitVec.ofNat 8 j).setWidth 16))) (k + 4)) at hlda
  rw [hsource, hload] at hlda
  have hsta := runs_mode start
    ((moving m n (j + 1) a (BitVec.ofNat 8 j) 0x06c9).put .accumulator v) (k + 4) .sta .zeroPageX
    h6 rfl (by decide) (operand_zeroPageX h7)
  change Runs _ (At start ((((moving m n (j + 1) a (BitVec.ofNat 8 j) 0x06c9).put .accumulator
    v).jump 0x06cb).store (((0x12 : U8) + BitVec.ofNat 8 j).setWidth 16) v) (k + 8)) at hsta
  rw [htarget, hstored] at hsta
  have hdex := runs_mode start ((moving m n j v (BitVec.ofNat 8 j) 0x06cb).judge v) (k + 8) .dex
    .implied h8 rfl (by decide) rfl
  change Runs _ (At start ((((moving m n j v (BitVec.ofNat 8 j) 0x06cb).judge v).jump
    0x06cc).countRegister (-1) .x) (k + 10)) at hdex
  rw [moving_dex] at hdex
  exact (hlda.trans hsta).trans hdex

/-- BPL goes back until X has gone below zero. -/
lemma runs_move_branch (hcode : Lies m.memory 0x0600 testCode1) {n j : ℕ} (hn : n ≤ 0x81)
    (a x : U8) : Runs (At start (moving m n j a x 0x06cc) k)
      (if 128 ≤ x.toNat then At start (moving m n j a x 0x06ce) (k + 2)
        else At start (moving m n j a x 0x06c7) (k + 3)) := by
  have hbranch : Lies (moved m.memory n j) 0x06cc _ := (lies_moved hcode hn).drop 0xcc
  obtain ⟨h9, h10, -⟩ := hbranch
  have htarget : (0x06cc : U16) + 2 + BitVec.signExtend 16 (0xf9 : U8) = 0x06c7 := by decide
  have hpage : page (0x06cc + 3) = page 0x06c7 := by decide
  have htakes : (moving m n j a x 0x06cc).takes .bpl = !decide (128 ≤ x.toNat) := beq_false _
  have hrun := runs_near start (moving m n j a x 0x06cc) k .bpl h9 rfl (by decide) h10
    htarget hpage htakes
  by_cases hx : 128 ≤ x.toNat
  · rw [decide_eq_true hx, if_neg (by decide)] at hrun
    rw [if_pos hx]
    exact hrun
  · rw [decide_eq_false hx, if_pos (by decide)] at hrun
    rw [if_neg hx]
    exact hrun

/-- A turn of the loop that is not the last one. -/
lemma runs_move_turn (hcode : Lies m.memory 0x0600 testCode1) {n j : ℕ} (hj : j + 1 < n)
    (hn : n ≤ 0x81) (a : U8) :
    Runs (At start (moving m n (j + 2) a (BitVec.ofNat 8 (j + 1)) 0x06c7) k)
      (At start (moving m n (j + 1) (m.memory (BitVec.ofNat 16 (0x10 + (j + 1))))
        (BitVec.ofNat 8 j) 0x06c7) (k + 13)) := by
  have hpred : BitVec.ofNat 8 (j + 1) - 1 = BitVec.ofNat 8 j := by
    rw [BitVec.ofNat_add]
    exact BitVec.add_sub_cancel _ _
  have hlow : ¬ 128 ≤ (BitVec.ofNat 8 j).toNat := by
    rw [BitVec.toNat_ofNat]
    omega
  have hbody := runs_move_body start k hcode hj hn a
  have hbranch := runs_move_branch start (k + 10) (j := j + 1) hcode hn
    (m.memory (BitVec.ofNat 16 (0x10 + (j + 1)))) (BitVec.ofNat 8 j)
  rw [hpred] at hbody
  rw [if_neg hlow] at hbranch
  exact hbody.trans hbranch

/-- Up to the loop. -/
lemma runs_move_start (hcode : Lies m.memory 0x0600 testCode1) (n : ℕ) :
    Runs (At start (m.jump 0x06c3) k)
      (At start (moving m n n (m.memory 3 - 1) (m.memory 3 - 1) 0x06c7) (k + 7)) := by
  have hstart : Lies m.memory 0x06c3 _ := hcode.drop 0xc3
  obtain ⟨h0, h1, h2, h3, -⟩ := hstart
  have hldx := runs_mode start (m.jump 0x06c3) k .ldx .zeroPage h0 rfl (by decide)
    (operand_zeroPage h1)
  change Runs _ (At start (spun m (m.memory 3) 0x06c5) (k + 3)) at hldx
  have hdex : Runs (At start (spun m (m.memory 3) 0x06c5) (k + 3)) (At start
      (((spun m (m.memory 3) 0x06c5).jump 0x06c6).countRegister (-1) .x) (k + 5)) :=
    runs_mode _ _ _ .dex .implied h2 rfl (by decide) rfl
  rw [spun_dex] at hdex
  have htxa : Runs (At start (spun m (m.memory 3 - 1) 0x06c6) (k + 5)) (At start
      (((spun m (m.memory 3 - 1) 0x06c6).jump 0x06c7).put .accumulator (m.memory 3 - 1)) (k + 7)) :=
    runs_mode _ _ _ .txa .implied h3 rfl (by decide) rfl
  have hmoving : ((spun m (m.memory 3 - 1) 0x06c6).jump 0x06c7).put .accumulator (m.memory 3 - 1) =
      moving m n n (m.memory 3 - 1) (m.memory 3 - 1) 0x06c7 := by
    refine Machine.ext rfl ?_ ?_ ?_
    · funext r
      cases r <;> rfl
    · funext f
      cases f <;> rfl
    · funext b
      exact (if_neg (by omega)).symm
  rw [hmoving] at htxa
  exact (hldx.trans hdex).trans htxa

/-- **The loop at 0x06c3** moves the body on by two bytes, as long as its length is at most 0x81:
every byte gets the value that its predecessor but one had before. -/
theorem runs_move (hcode : Lies m.memory 0x0600 testCode1) {n : ℕ}
    (hlength : (m.memory 3).toNat = n) (hpos : 0 < n) (hn : n ≤ 0x81) :
    Runs (At start (m.jump 0x06c3) k)
      (At start (moving m n 0 (m.memory 0x10) 0xff 0x06ce) (k + (13 * n + 6))) := by
  have hx : m.memory 3 - 1 = BitVec.ofNat 8 (n - 0 - 1) := by
    apply BitVec.eq_of_toNat_eq
    rw [BitVec.toNat_sub, BitVec.toNat_ofNat, hlength]
    change (256 - 1 + n) % 256 = (n - 0 - 1) % 256
    omega
  have hstart := runs_move_start start k hcode n
  rw [hx] at hstart
  have hturn : ∀ r < n - 1, Runs
      (fun bus => ∃ a, At start (moving m n (n - r) a (BitVec.ofNat 8 (n - r - 1)) 0x06c7)
        (k + 7 + 13 * r) bus)
      (fun bus => ∃ a, At start
        (moving m n (n - (r + 1)) a (BitVec.ofNat 8 (n - (r + 1) - 1)) 0x06c7)
          (k + 7 + 13 * (r + 1)) bus) := by
    intro r hr
    obtain ⟨j, hj⟩ : ∃ j, n - r = j + 2 := ⟨n - r - 2, by omega⟩
    have hnext : n - (r + 1) = j + 1 := by omega
    rw [hnext, hj]
    exact LeadsTo.of_exists fun a => (runs_move_turn start _ hcode (by omega) hn a).weaken
      fun bus hbus => ⟨_, hbus⟩
  have hloop := LeadsTo.count hturn
  have hlast : n - (n - 1) = 1 := by omega
  have hend : Runs (fun bus => ∃ a, At start
      (moving m n (n - (n - 1)) a (BitVec.ofNat 8 (n - (n - 1) - 1)) 0x06c7)
        (k + 7 + 13 * (n - 1)) bus)
      (At start (moving m n 0 (m.memory 0x10) 0xff 0x06ce) (k + 7 + 13 * (n - 1) + 10 + 2)) := by
    rw [hlast]
    refine LeadsTo.of_exists fun a => ?_
    exact (runs_move_body start _ hcode hpos hn a).trans (runs_move_branch start _ hcode hn _ 0xff)
  have hcycles : k + 7 + 13 * (n - 1) + 10 + 2 = k + (13 * n + 6) := by omega
  rw [hcycles] at hend
  exact ((hstart.weaken fun bus hbus => ⟨_, hbus⟩).trans hloop).trans hend

end Move

/-! ### Looking for a collision -/

section Look

variable {start m k}

/-- What the loop works on: the accumulator, X, three flags, and the program counter. -/
def looking (m : Machine busShows) (a x : U8) (c z n : Bool) (pc : U16) : Machine busShows where
  programCounter := pc
  register := Function.update (Function.update m.register .accumulator a) .x x
  flag := Function.update (Function.update (Function.update m.flag .carryFlag c) .zeroFlag z)
    .negativeFlag n
  memory := m.memory

/-- The loop has come to an address with a value of X and the zero flag. -/
def Looks (start : Bus) (m : Machine busShows) (x : U8) (z : Bool) (pc : U16) (bus : Bus) : Prop :=
  ∃ k a c n, At start (looking m a x c z n pc) k bus

/-- A segment of the body lies where the head does. -/
def Hit (memory : U16 → U8) (x : U8) : Prop :=
  memory ((0x10 + x).setWidth 16) = memory 0x10 ∧ memory ((0x11 + x).setWidth 16) = memory 0x11

instance (memory : U16 → U8) (x : U8) : Decidable (Hit memory x) := instDecidableAnd

lemma looking_put (m : Machine busShows) (a x v : U8) (c z n : Bool) (pc : U16) :
    (looking m a x c z n pc).put .accumulator v =
      looking m v x c (decide (v.toNat = 0)) (decide (128 ≤ v.toNat)) pc := by
  refine Machine.ext rfl ?_ ?_ rfl
  · funext r
    cases r <;> rfl
  · funext f
    cases f <;> rfl

/-- What a comparison leaves in the zero flag. -/
lemma ofInt_sub_eq_zero (v w : U8) :
    decide ((BitVec.ofInt 8 (v.toNat - w.toNat)).toNat = 0) = (v == w) := by
  rw [Bool.eq_iff_iff, decide_eq_true_iff, beq_iff_eq, ← BitVec.toNat_inj, BitVec.toNat_ofInt]
  have hv := v.isLt
  have hw := w.isLt
  omega

lemma looking_compareWith (m : Machine busShows) (r : Register) (a x v : U8) (c z n : Bool)
    (pc : U16) : ∃ c' n', (looking m a x c z n pc).compareWith r v =
      looking m a x c' ((looking m a x c z n pc).register r == v) n' pc := by
  set w := (looking m a x c z n pc).register r
  refine ⟨decide (v.toNat ≤ w.toNat), decide (128 ≤ (BitVec.ofInt 8 (w.toNat - v.toNat)).toNat), ?_⟩
  refine Machine.ext rfl rfl ?_ rfl
  funext f
  rw [← ofInt_sub_eq_zero]
  cases f <;> rfl

/-- `LDA v,X` and `CMP v`. -/
lemma runs_compare {p q : U16} {v : U8} {x : U8} {z : Bool}
    (hlda : m.memory p = 0xb5) (hv : m.memory (p + 1) = v) (hcmp : m.memory (p + 2) = 0xc5)
    (hv' : m.memory (p + 2 + 1) = v) (hq : p + 2 + 2 = q) :
    Runs (Looks start m x z p)
      (Looks start m x (m.memory ((v + x).setWidth 16) == m.memory (v.setWidth 16)) q) := by
  rintro bus ⟨k, a, c, n, hbus⟩
  have hload := runs_mode start (looking m a x c z n p) k .lda .zeroPageX hlda rfl (by decide)
    (operand_zeroPageX hv)
  change Runs _ (At start ((looking m a x c z n (p + 2)).put .accumulator
    (m.memory ((v + x).setWidth 16))) (k + 4)) at hload
  rw [looking_put] at hload
  set a' := m.memory ((v + x).setWidth 16)
  have hcompare := runs_mode start (looking m a' x c (decide (a'.toNat = 0))
    (decide (128 ≤ a'.toNat)) (p + 2)) (k + 4) .cmp .zeroPage hcmp rfl (by decide)
    (operand_zeroPage hv')
  obtain ⟨c', n', hflags⟩ := looking_compareWith m .accumulator a' x (m.memory (v.setWidth 16)) c
    (decide (a'.toNat = 0)) (decide (128 ≤ a'.toNat)) q
  subst hq
  change Runs _ (At start ((looking m a' x c _ _ (p + 2 + 2)).compareWith .accumulator
    (m.memory (v.setWidth 16))) (k + 7)) at hcompare
  rw [hflags] at hcompare
  exact ((hload.trans hcompare).weaken fun bus hbus => ⟨_, _, _, _, hbus⟩) bus hbus

variable {p q : U16} {v w x : U8} {z : Bool}

lemma runs_beq (hop : m.memory p = 0xf0) (hv : m.memory (p + 1) = v)
    (hq : p + 2 + v.signExtend 16 = q) (hpage : page (p + 3) = page q) :
    Runs (Looks start m x z p) (Looks start m x z (if z then q else p + 2)) := by
  rintro bus ⟨k, a, c, n, hbus⟩
  have htakes : (looking m a x c z n p).takes .beq = z := beq_true z
  have hrun := runs_near start (looking m a x c z n p) k .beq hop rfl (by decide) hv hq hpage
    htakes
  cases z
  · exact (hrun.weaken fun bus hbus => ⟨_, _, _, _, hbus⟩) bus hbus
  · exact (hrun.weaken fun bus hbus => ⟨_, _, _, _, hbus⟩) bus hbus

lemma runs_bne (hop : m.memory p = 0xd0) (hv : m.memory (p + 1) = v)
    (hq : p + 2 + v.signExtend 16 = q) (hpage : page (p + 3) = page q) :
    Runs (Looks start m x z p) (Looks start m x z (if z then p + 2 else q)) := by
  rintro bus ⟨k, a, c, n, hbus⟩
  have htakes : (looking m a x c z n p).takes .bne = !z := beq_false z
  have hrun := runs_near start (looking m a x c z n p) k .bne hop rfl (by decide) hv hq hpage
    htakes
  cases z
  · exact (hrun.weaken fun bus hbus => ⟨_, _, _, _, hbus⟩) bus hbus
  · exact (hrun.weaken fun bus hbus => ⟨_, _, _, _, hbus⟩) bus hbus

lemma ofInt_succ (v : U8) : BitVec.ofInt 8 (v.toNat + 1) = v + 1 := by
  revert v
  decide

lemma runs_inx (hop : m.memory p = 0xe8) : Runs (Looks start m x z p)
    (Looks start m (x + 1) (decide ((x + 1).toNat = 0)) (p + 1)) := by
  rintro bus ⟨k, a, c, n, hbus⟩
  have hrun := runs_mode start (looking m a x c z n p) k .inx .implied hop rfl (by decide) rfl
  have hinx : ((looking m a x c z n p).jump (p + 1)).countRegister 1 .x =
      looking m a (x + 1) c (decide ((x + 1).toNat = 0)) (decide (128 ≤ (x + 1).toNat))
        (p + 1) := by
    rw [← ofInt_succ]
    refine Machine.ext rfl ?_ ?_ rfl
    · funext r
      cases r <;> rfl
    · funext f
      cases f <;> rfl
  change Runs _ (At start (((looking m a x c z n p).jump (p + 1)).countRegister 1 .x) _) at hrun
  rw [hinx] at hrun
  exact (hrun.weaken fun bus hbus => ⟨_, _, _, _, hbus⟩) bus hbus

lemma runs_cpx (hop : m.memory p = 0xe4) (hv : m.memory (p + 1) = v) :
    Runs (Looks start m x z p) (Looks start m x (x == m.memory (v.setWidth 16)) (p + 2)) := by
  rintro bus ⟨k, a, c, n, hbus⟩
  have hrun := runs_mode start (looking m a x c z n p) k .cpx .zeroPage hop rfl (by decide)
    (operand_zeroPage hv)
  obtain ⟨c', n', hflags⟩ := looking_compareWith m .x a x (m.memory (v.setWidth 16)) c z n (p + 2)
  change Runs _ (At start ((looking m a x c z n (p + 2)).compareWith .x
    (m.memory (v.setWidth 16))) _) at hrun
  rw [hflags] at hrun
  exact (hrun.weaken fun bus hbus => ⟨_, _, _, _, hbus⟩) bus hbus

lemma runs_jmp (hop : m.memory p = 0x4c) (hv : m.memory (p + 1) = v)
    (hw : m.memory (p + 2) = w) : Runs (Looks start m x z p) (Looks start m x z (w ++ v)) := by
  rintro bus ⟨k, a, c, n, hbus⟩
  have hrun := runs_mode start (looking m a x c z n p) k .jmp .absolute hop rfl (by decide)
    (operand_absolute hv hw)
  exact (hrun.weaken fun bus hbus => ⟨_, _, _, _, hbus⟩) bus hbus

/-- On to the next segment, or to the end behind the last one. -/
lemma runs_look_next (hcode : Lies m.memory 0x0600 testCode1) (x : U8) (z : Bool) :
    Runs (Looks start m x z 0x06b6) (if x + 2 = m.memory 0x03 then Looks start m (x + 2) true 0x06c2
      else Looks start m (x + 2) false 0x06aa) := by
  have hnext : Lies m.memory 0x06b6 _ := hcode.drop 0xb6
  obtain ⟨h0, h1, h2, h3, h4, h5, h6, h7, h8, -⟩ := hnext
  have hinx : Runs (Looks start m x z 0x06b6)
      (Looks start m (x + 1 + 1) (decide ((x + 1 + 1).toNat = 0)) 0x06b8) :=
    (runs_inx h0).trans (runs_inx h1)
  have hcpx := hinx.trans (runs_cpx h2 h3)
  have htarget : (0x06ba : U16) + 2 + BitVec.signExtend 16 (0x06 : U8) = 0x06c2 := by decide
  have hpage : page (0x06ba + 3) = page 0x06c2 := by decide
  have hbeq := hcpx.trans (runs_beq h4 h5 htarget hpage)
  rw [BitVec.add_assoc] at hbeq
  change Runs _ (Looks start m (x + 2) (x + 2 == m.memory 0x03)
    (if x + 2 == m.memory 0x03 then 0x06c2 else 0x06bc)) at hbeq
  by_cases hx : x + 2 = m.memory 0x03
  · rw [if_pos hx]
    rw [beq_iff_eq.mpr hx, if_pos rfl] at hbeq
    exact hbeq
  · rw [if_neg hx]
    rw [beq_eq_false_iff_ne.mpr hx, if_neg (by decide)] at hbeq
    exact hbeq.trans (runs_jmp h6 h7 h8)

/-- A turn of the loop. -/
lemma runs_look_turn (hcode : Lies m.memory 0x0600 testCode1) (x : U8) (z : Bool) :
    Runs (Looks start m x z 0x06aa) (if Hit m.memory x then Looks start m x true 0x0735
      else if x + 2 = m.memory 0x03 then Looks start m (x + 2) true 0x06c2
      else Looks start m (x + 2) false 0x06aa) := by
  have hturn : Lies m.memory 0x06aa _ := hcode.drop 0xaa
  have hover : Lies m.memory 0x06bf _ := hcode.drop 0xbf
  obtain ⟨h0, h1, h2, h3, h4, h5, h6, h7, h8, h9, h10, h11, -⟩ := hturn
  obtain ⟨hjmp, hlow, hhigh, -⟩ := hover
  have hnear : (0x06ae : U16) + 2 + BitVec.signExtend 16 (0x06 : U8) = 0x06b6 := by decide
  have hfar : (0x06b4 : U16) + 2 + BitVec.signExtend 16 (0x09 : U8) = 0x06bf := by decide
  have hpage : page (0x06ae + 3) = page 0x06b6 ∧ page (0x06b4 + 3) = page 0x06bf := by decide
  -- the low bytes
  have hlowBytes : Runs (Looks start m x z 0x06aa) (Looks start m x
      (m.memory ((0x10 + x).setWidth 16) == m.memory 0x10) 0x06ae) :=
    runs_compare h0 h1 h2 h3 rfl
  have hbne := hlowBytes.trans (runs_bne h4 h5 hnear hpage.1)
  by_cases hfirst : m.memory ((0x10 + x).setWidth 16) = m.memory 0x10
  · rw [beq_iff_eq.mpr hfirst, if_pos rfl] at hbne
    -- the high bytes
    have hhighBytes : Runs (Looks start m x true 0x06b0) (Looks start m x
        (m.memory ((0x11 + x).setWidth 16) == m.memory 0x11) 0x06b4) :=
      runs_compare h6 h7 h8 h9 rfl
    have hbeq := (hbne.trans hhighBytes).trans (runs_beq h10 h11 hfar hpage.2)
    by_cases hsecond : m.memory ((0x11 + x).setWidth 16) = m.memory 0x11
    · rw [beq_iff_eq.mpr hsecond, if_pos rfl] at hbeq
      rw [if_pos ⟨hfirst, hsecond⟩]
      exact hbeq.trans (runs_jmp hjmp hlow hhigh)
    · rw [beq_eq_false_iff_ne.mpr hsecond, if_neg (by decide)] at hbeq
      rw [if_neg fun h => hsecond h.2]
      exact hbeq.trans (runs_look_next hcode x false)
  · rw [beq_eq_false_iff_ne.mpr hfirst, if_neg (by decide)] at hbne
    rw [if_neg fun h => hfirst h.1]
    exact hbne.trans (runs_look_next hcode x false)

/-- Neither a hit nor the end of the body before segment `i`. -/
def Clear (memory : U16 → U8) (i : ℕ) : Prop :=
  ∀ j, 0 < j → j < i → ¬ Hit memory (BitVec.ofNat 8 (2 * j)) ∧
    BitVec.ofNat 8 (2 * j) + 2 ≠ memory 0x03

/-- The invariant of the loop, with the segment that it comes to next. -/
def Searching (start : Bus) (m : Machine busShows) (i : ℕ) (bus : Bus) : Prop :=
  0 < i ∧ i ≤ 128 ∧ Clear m.memory i ∧ ∃ z, Looks start m (BitVec.ofNat 8 (2 * i)) z 0x06aa bus

/-- Where the search ends: at a hit, or at the end of the body. -/
def Found (start : Bus) (m : Machine busShows) (i : ℕ) (bus : Bus) : Prop :=
  0 < i ∧ i ≤ 128 ∧ Clear m.memory i ∧
    if Hit m.memory (BitVec.ofNat 8 (2 * i))
    then Looks start m (BitVec.ofNat 8 (2 * i)) true 0x0735 bus
    else BitVec.ofNat 8 (2 * i) + 2 = m.memory 0x03 ∧ Looks start m (m.memory 0x03) true 0x06c2 bus

/-- The head lies where it lies itself, so there are at most 128 turns. -/
lemma hit_head (memory : U16 → U8) : Hit memory (BitVec.ofNat 8 (2 * 128)) := ⟨rfl, rfl⟩

lemma found_or_searching {i : ℕ} {bus : Bus} (hpos : 0 < i) (hle : i ≤ 128)
    (hclear : Clear m.memory i)
    (hbus : (if Hit m.memory (BitVec.ofNat 8 (2 * i))
      then Looks start m (BitVec.ofNat 8 (2 * i)) true 0x0735
      else if BitVec.ofNat 8 (2 * i) + 2 = m.memory 0x03
      then Looks start m (BitVec.ofNat 8 (2 * i) + 2) true 0x06c2
      else Looks start m (BitVec.ofNat 8 (2 * i) + 2) false 0x06aa) bus) :
    (∃ j, Found start m j bus) ∨ ∃ j, 128 - j < 128 - i ∧ Searching start m j bus := by
  by_cases hhit : Hit m.memory (BitVec.ofNat 8 (2 * i))
  · rw [if_pos hhit] at hbus
    exact Or.inl ⟨i, hpos, hle, hclear, by rwa [if_pos hhit]⟩
  · rw [if_neg hhit] at hbus
    by_cases hend : BitVec.ofNat 8 (2 * i) + 2 = m.memory 0x03
    · rw [if_pos hend, hend] at hbus
      refine Or.inl ⟨i, hpos, hle, hclear, ?_⟩
      rw [if_neg hhit]
      exact ⟨hend, hbus⟩
    · have hnext : BitVec.ofNat 8 (2 * i) + 2 = BitVec.ofNat 8 (2 * (i + 1)) := by
        rw [Nat.mul_add, BitVec.ofNat_add]
        rfl
      have hne : i ≠ 128 := by
        rintro rfl
        exact hhit (hit_head m.memory)
      rw [if_neg hend, hnext] at hbus
      refine Or.inr ⟨i + 1, by omega, by omega, by omega, fun j hj hlt => ?_, false, hbus⟩
      rcases Nat.lt_succ_iff_lt_or_eq.mp hlt with hlt | rfl
      · exact hclear j hj hlt
      · exact ⟨hhit, hend⟩

/-- **The loop at 0x06aa** ends at the first hit, or behind the last segment. -/
theorem runs_look_loop (hcode : Lies m.memory 0x0600 testCode1) :
    Runs (Searching start m 1) fun bus => ∃ i, Found start m i bus := by
  refine LeadsTo.variant (measure fun i => 128 - i).wf (fun i => ?_) 1
  rintro bus ⟨hpos, hle, hclear, z, hbus⟩
  obtain ⟨n, hn, hend⟩ := runs_look_turn hcode _ z bus hbus
  exact ⟨n, hn, found_or_searching hpos hle hclear hend⟩

/-- Where the subroutine ends: at 0x0735, or where it has been called from. -/
def Ended (start : Bus) (m : Machine busShows) (i : ℕ) (bus : Bus) : Prop :=
  0 < i ∧ Clear m.memory i ∧ if Hit m.memory (BitVec.ofNat 8 (2 * i))
    then Looks start m (BitVec.ofNat 8 (2 * i)) true 0x0735 bus
    else BitVec.ofNat 8 (2 * i) + 2 = m.memory 0x03 ∧ ∃ k a c n, At start
      ((looking m a (m.memory 0x03) c true n 0x06c2).dropWord.jump (m.topWord + 1)) k bus

/-- **The subroutine at 0x06a8** goes to 0x0735 at the first hit, and returns if there is none. -/
theorem runs_look (start : Bus) (k : ℕ) (hcode : Lies m.memory 0x0600 testCode1) :
    Runs (At start (m.jump 0x06a8) k) fun bus => ∃ i, Ended start m i bus := by
  have hlook : Lies m.memory 0x06a8 _ := hcode.drop 0xa8
  have hreturn : Lies m.memory 0x06c2 _ := hcode.drop 0xc2
  obtain ⟨h0, h1, -⟩ := hlook
  obtain ⟨hrts, -⟩ := hreturn
  have hldx := runs_mode start (m.jump 0x06a8) k .ldx .immediate h0 rfl (by decide)
    operand_immediate
  change Runs _ (At start ((m.jump 0x06aa).put .x (m.memory 0x06a9)) (k + 2)) at hldx
  have hx : m.memory 0x06a9 = 0x02 := h1
  have hlooking : (m.jump 0x06aa).put .x 0x02 = looking m (m.register .accumulator) 0x02
      (m.flag .carryFlag) false false 0x06aa := by
    refine Machine.ext rfl ?_ ?_ rfl
    · funext r
      cases r <;> rfl
    · funext f
      cases f <;> rfl
  rw [hx, hlooking] at hldx
  have hsearching : ∀ bus, At start (looking m (m.register .accumulator) 0x02
      (m.flag .carryFlag) false false 0x06aa) (k + 2) bus → Searching start m 1 bus := by
    refine fun bus hbus => ⟨by decide, by decide, fun j hj hlt => ?_, _, _, _, _, _, hbus⟩
    omega
  have hfound := (hldx.weaken hsearching).trans (runs_look_loop hcode)
  refine hfound.trans (LeadsTo.of_exists fun i => ?_)
  rintro bus ⟨hpos, -, hclear, hend⟩
  by_cases hhit : Hit m.memory (BitVec.ofNat 8 (2 * i))
  · rw [if_pos hhit] at hend
    exact ⟨0, fun j hj => absurd hj (Nat.not_lt_zero j), i, hpos, hclear, by rwa [if_pos hhit]⟩
  · rw [if_neg hhit] at hend
    obtain ⟨hlast, k, a, c, n, hbus⟩ := hend
    have hrun := runs_mode start (looking m a (m.memory 0x03) c true n 0x06c2) k .rts .implied
      hrts rfl (by decide) rfl
    obtain ⟨steps, hsteps, hbus⟩ := hrun bus hbus
    refine ⟨steps, hsteps, i, hpos, hclear, ?_⟩
    rw [if_neg hhit]
    exact ⟨hlast, _, _, _, _, hbus⟩

end Look

/-! ### On the emulator -/

/-- The code in RAM, and in front of it a body of two segments, which lie apart. -/
def codeBus (pc : U16) : Bus :=
  { freshBus (constantRom 0) with
    cpu := { (freshBus (constantRom 0)).cpu with programCounter := pc }
    cpuRam := fun k =>
      if 0x0600 ≤ k.val then testCode1.getD (k.val - 0x0600) 0
      else if k.val = 0x03 then 4 else BitVec.ofNat 8 k.val }

lemma lies_of_getD {memory : U16 → U8} {a : U16} {bs : List U8}
    (h : ∀ i < bs.length, memory (a + BitVec.ofNat 16 i) = bs.getD i 0) : Lies memory a bs := by
  induction bs generalizing a with
  | nil => trivial
  | cons b bs ih =>
    have hfirst := h 0 (Nat.succ_pos _)
    rw [BitVec.add_zero] at hfirst
    refine ⟨hfirst, ih fun i hi => ?_⟩
    rw [← add_ofNat_succ]
    exact h (i + 1) (Nat.succ_lt_succ hi)

lemma lies_codeBus (pc : U16) : Lies (readMem (codeBus pc)) 0x0600 testCode1 := by
  refine lies_of_getD fun i hi => ?_
  have hi' : i < 309 := length_testCode1 ▸ hi
  have haddress : (0x0600 + BitVec.ofNat 16 i).toNat = 0x0600 + i := code_toNat hi'
  have hcell : (ramCell (0x0600 + BitVec.ofNat 16 i)).val = 0x0600 + i := by
    rw [ramCell_val, haddress]
    omega
  rw [readMem_of_le (by omega), codeBus]
  dsimp only
  rw [hcell, if_pos (by omega), Nat.add_sub_cancel_left]

section Emulator

variable {bus : Bus}

lemma at_jump {pc : U16} (hpc : bus.cpu.programCounter = pc) :
    At bus ((machine bus).jump pc) 0 bus := by
  have hmachine : (machine bus).jump pc = machine bus := Machine.ext hpc.symm rfl rfl rfl
  rw [hmachine]
  exact at_start bus

/-- **Time passes**: a call of the subroutine at 0x072d, from anywhere, takes 2317 cycles up to the
instruction behind it, and leaves X cleared and judged, the return address below the stack, and
everything else as it was. -/
theorem lets_time_pass (hcode : Lies (readMem bus) 0x0600 testCode1)
    (hjsr : Lies (readMem bus) bus.cpu.programCounter [0x20, 0x2d, 0x07]) : ComesTo bus
      (At bus ((((machine bus).pushWord (bus.cpu.programCounter + 2)).put .x 0).dropWord.jump
        (bus.cpu.programCounter + 3)) 2317) := by
  have hrun := runs_spin_called bus (m := machine bus) 0 hcode hjsr
  rw [Nat.zero_add] at hrun
  exact Runs.comesTo hrun (at_start bus)

/-- The call in the main loop of the program. -/
theorem codeBus_lets_time_pass : ComesTo (codeBus 0x0647) (At (codeBus 0x0647)
    ((((machine (codeBus 0x0647)).pushWord 0x0649).put .x 0).dropWord.jump 0x064a) 2317) := by
  have hcall : Lies (readMem (codeBus 0x0647)) 0x0647 _ := (lies_codeBus 0x0647).drop 0x47
  obtain ⟨h0, h1, h2, -⟩ := hcall
  exact lets_time_pass (lies_codeBus 0x0647) ⟨h0, h1, h2, trivial⟩

/-- **The body moves on**: the loop at 0x06c3 moves as many bytes from 0x10 on as the length says,
up to 0x81, on by two, in 13 cycles each; though source and target overlap, every byte gets the
value that the one two before it had. -/
theorem moves_body (hcode : Lies (readMem bus) 0x0600 testCode1)
    (hpc : bus.cpu.programCounter = 0x06c3) (hpos : 0 < (readMem bus 0x03).toNat)
    (hle : (readMem bus 0x03).toNat ≤ 0x81) : ComesTo bus
      (At bus (moving (machine bus) (readMem bus 0x03).toNat 0 (readMem bus 0x10) 0xff 0x06ce)
        (13 * (readMem bus 0x03).toNat + 6)) := by
  have hrun := runs_move bus (m := machine bus) 0 hcode rfl hpos hle
  rw [Nat.zero_add] at hrun
  exact Runs.comesTo hrun (at_jump hpc)

/-- A body of four bytes. -/
theorem codeBus_moves_body : ComesTo (codeBus 0x06c3) (At (codeBus 0x06c3)
    (moving (machine (codeBus 0x06c3)) 4 0 (readMem (codeBus 0x06c3) 0x10) 0xff 0x06ce) 58) :=
  moves_body (lies_codeBus 0x06c3) rfl (by decide) (by decide)

/-- The first hit, if there is one in the body. -/
lemma hit_iff {memory : U16 → U8} {i : ℕ} (hpos : 0 < i) (hlength : 4 ≤ (memory 0x03).toNat)
    (heven : (memory 0x03).toNat % 2 = 0) (hclear : Clear memory i)
    (hlast : ¬ Hit memory (BitVec.ofNat 8 (2 * i)) → BitVec.ofNat 8 (2 * i) + 2 = memory 0x03) :
    Hit memory (BitVec.ofNat 8 (2 * i)) ↔
      ∃ j, 0 < j ∧ 2 * j < (memory 0x03).toNat ∧ Hit memory (BitVec.ofNat 8 (2 * j)) := by
  have hend : ∀ j, BitVec.ofNat 8 (2 * j) + 2 = memory 0x03 ↔
      (2 * j + 2) % 256 = (memory 0x03).toNat := by
    intro j
    rw [← BitVec.toNat_inj, BitVec.toNat_add, BitVec.toNat_ofNat]
    change (2 * j % 256 + 2) % 256 = _ ↔ _
    rw [Nat.mod_add_mod]
  have hlt := (memory 0x03).isLt
  constructor
  · intro hhit
    refine ⟨i, hpos, ?_, hhit⟩
    by_contra hle
    have hbefore := (hclear ((memory 0x03).toNat / 2 - 1) (by omega) (by omega)).2
    rw [Ne, hend] at hbefore
    omega
  · rintro ⟨j, hj, hbody, hhit⟩
    by_contra hno
    have hstop := (hend i).mp (hlast hno)
    rcases Nat.lt_or_ge j i with hji | hji
    · exact (hclear j hj hji).1 hhit
    · have heq : j = i := by omega
      exact hno (heq ▸ hhit)

/-- **Collisions are found**: of a body of even length, from four on, the subroutine at 0x06a8 goes
to 0x0735 if one of the segments lies where the head does, and returns if none does, to the word
that `popStackU16` pulls; memory reads in the end as it did at first. -/
theorem looks_for_collision (hcode : Lies (readMem bus) 0x0600 testCode1)
    (hpc : bus.cpu.programCounter = 0x06a8) (hlength : 4 ≤ (readMem bus 0x03).toNat)
    (heven : (readMem bus 0x03).toNat % 2 = 0) : ComesTo bus fun after =>
      readMem after = readMem bus ∧
        ((∃ j, 0 < j ∧ 2 * j < (readMem bus 0x03).toNat ∧
            Hit (readMem bus) (BitVec.ofNat 8 (2 * j))) →
          after.cpu.programCounter = 0x0735) ∧
        ((¬ ∃ j, 0 < j ∧ 2 * j < (readMem bus 0x03).toNat ∧
            Hit (readMem bus) (BitVec.ofNat 8 (2 * j))) →
          after.cpu.programCounter = (machine bus).topWord + 1 ∧
            after.cpu.stackPointer = bus.cpu.stackPointer + 2) := by
  obtain ⟨n, ⟨i, hpos, hclear, hend⟩, hrun⟩ :=
    Runs.comesTo (runs_look bus 0 (m := machine bus) hcode) (at_jump hpc)
  have hmemory : (machine bus).memory = readMem bus := rfl
  rw [hmemory] at hclear hend
  refine ⟨n, ?_, hrun⟩
  have hlast : ¬ Hit (readMem bus) (BitVec.ofNat 8 (2 * i)) →
      BitVec.ofNat 8 (2 * i) + 2 = readMem bus 0x03 := by
    intro hhit
    rw [if_neg hhit] at hend
    exact hend.1
  rw [← hit_iff hpos hlength heven hclear hlast]
  by_cases hhit : Hit (readMem bus) (BitVec.ofNat 8 (2 * i))
  · rw [if_pos hhit] at hend
    obtain ⟨k, a, c, z, hat⟩ := hend
    exact ⟨congrArg Machine.memory hat.machine,
      fun _ => congrArg Machine.programCounter hat.machine, fun h => absurd hhit h⟩
  · rw [if_neg hhit] at hend
    obtain ⟨-, k, a, c, z, hat⟩ := hend
    have hsp : ∀ s : U8, s + 1 + 1 = s + 2 := fun s => BitVec.add_assoc s 1 1
    refine ⟨congrArg Machine.memory hat.machine, fun h => absurd h hhit, fun _ =>
      ⟨congrArg Machine.programCounter hat.machine, ?_⟩⟩
    exact (congrFun (congrArg Machine.register hat.machine) .stackPointer).trans (hsp _)

/-- The body bent so that its second segment lies where the head does. -/
def bentBus : Bus := writeMem (writeMem (codeBus 0x06a8) 0x12 0x10) 0x13 0x11

lemma lies_bentBus : Lies (readMem bentBus) 0x0600 testCode1 := by
  refine (lies_codeBus 0x06a8).congr fun i hi => ?_
  have hi' : i < 309 := length_testCode1 ▸ hi
  have haddress := code_toNat hi'
  have hoff : ∀ c : U16, c.toNat = 0x12 ∨ c.toNat = 0x13 →
      busShows c (0x0600 + BitVec.ofNat 16 i) = false := by
    intro c hc
    rw [busShows, decide_eq_false_iff_not]
    omega
  rw [bentBus, readMem_stored, readMem_stored, hoff 0x12 (Or.inl rfl), hoff 0x13 (Or.inr rfl)]
  rfl

/-- Two segments that lie apart do not collide, and the subroutine returns; two that lie on each
other do. -/
theorem codeBus_looks_for_collision :
    (ComesTo (codeBus 0x06a8) fun after => readMem after = readMem (codeBus 0x06a8) ∧
      after.cpu.programCounter = 0x0202 ∧ after.cpu.stackPointer = 0x02) ∧
    ComesTo bentBus fun after => readMem after = readMem bentBus ∧
      after.cpu.programCounter = 0x0735 := by
  refine ⟨?_, ?_⟩
  · obtain ⟨n, ⟨hmemory, -, hmiss⟩, hrun⟩ :=
      looks_for_collision (lies_codeBus 0x06a8) rfl (by decide) (by decide)
    refine ⟨n, ⟨hmemory, ?_⟩, hrun⟩
    have hapart : ¬ ∃ j, 0 < j ∧ 2 * j < (readMem (codeBus 0x06a8) 0x03).toNat ∧
        Hit (readMem (codeBus 0x06a8)) (BitVec.ofNat 8 (2 * j)) := by
      rintro ⟨j, hpos, hlt, hhit⟩
      have hlength : (readMem (codeBus 0x06a8) 0x03).toNat = 4 := by decide
      obtain rfl : j = 1 := by omega
      revert hhit
      decide
    obtain ⟨hpc, hsp⟩ := hmiss hapart
    exact ⟨hpc.trans (by decide), hsp.trans (by decide)⟩
  · obtain ⟨n, ⟨hmemory, hhit, -⟩, hrun⟩ :=
      looks_for_collision lies_bentBus rfl (by decide) (by decide)
    exact ⟨n, ⟨hmemory, hhit ⟨1, by decide, by decide, by decide⟩⟩, hrun⟩

end Emulator

end NesEmulator.TestCode
