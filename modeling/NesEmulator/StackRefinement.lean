import NesEmulator.Instructions
import NesEmulator.Lib.RingStack
import NesEmulator.Lib.Runs

/-!
The hardware stack as a ring of 256 cells.

The ring library says what a stack without a depth check keeps; here page one of RAM is
shown to be such a ring, with the stack pointer going up on a pop and down on a push.
-/

namespace NesEmulator

open Lib.Bits Lib.Runs Lib.RingStack

lemma iterate_add_one (p : U8) (k : ℕ) : (fun s : U8 => s + 1)^[k] p = p + BitVec.ofNat 8 k := by
  induction k generalizing p with
  | zero => simp
  | succ k ih =>
    rw [Function.iterate_succ_apply, ih, BitVec.ofNat_add, BitVec.add_assoc, BitVec.add_comm 1]
    rfl

/-- Stack pointers: 255 steps never lead back. -/
def stackRing : Ring U8 256 where
  next s := s + 1
  prev s := s - 1
  next_prev s := BitVec.sub_add_cancel s 1
  prev_next s := BitVec.add_sub_cancel s 1
  free p k hpos hlt := by
    rw [iterate_add_one]
    intro h
    have hval := congrArg BitVec.toNat h
    rw [BitVec.toNat_add, BitVec.toNat_ofNat] at hval
    have := p.isLt
    omega

lemma stackRing_iterate (p : U8) (k : ℕ) : stackRing.next^[k] p = p + BitVec.ofNat 8 k :=
  iterate_add_one p k

/-- What a bus holds on its stack page. -/
def stackView (bus : Bus) : St U8 U8 := ⟨fun s => bus.cpuRam (stackCell s), bus.cpu.stackPointer⟩

lemma slot_stackView (bus : Bus) (k : ℕ) :
    slot stackRing (stackView bus) k = bus.cpu.stackPointer + BitVec.ofNat 8 (k + 1) :=
  stackRing_iterate _ _

lemma stackView_pushStack (bus : Bus) (v : U8) :
    stackView (pushStack bus v) = push stackRing (stackView bus) v := by
  rw [pushStack_eq]
  unfold stackView push
  congr 1
  funext s
  simp only [Function.update_apply, stackCell_eq_iff]

lemma stackView_popStack (bus : Bus) :
    (stackView (popStack bus).2, (popStack bus).1) = pop stackRing (stackView bus) := by
  rw [popStack_eq]
  rfl

/-- The bus takes a stack operation; a pop answers a byte. -/
def stepStack (bus : Bus) : Op U8 → Bus × Option U8
  | .push v => (pushStack bus v, none)
  | .pop => ((popStack bus).2, some (popStack bus).1)

lemma stepStack_eq_stepRing (bus : Bus) (op : Op U8) :
    (stackView (stepStack bus op).1, (stepStack bus op).2) =
      stepRing stackRing (stackView bus) op := by
  cases op with
  | push v => exact congrArg (·, none) (stackView_pushStack bus v)
  | pop => exact congrArg (fun r => (r.1, some r.2)) (stackView_popStack bus)

/-- Page one holds the entries of a list. -/
def StackHolds (bus : Bus) (xs : List U8) : Prop := Holds stackRing (stackView bus) xs

/-- **One step**: page one follows the bounded list. -/
theorem stepStack_simulates : Simulates stepStack (stepList 256) StackHolds Keeps := by
  intro bus xs op h
  obtain ⟨hview, hanswer⟩ := Prod.mk.inj (stepStack_eq_stepRing bus op)
  unfold StackHolds
  rw [hview, hanswer]
  exact stepRing_refines _ _ op h

/-! ### What is on the stack -/

lemma stackHolds_nil (bus : Bus) : StackHolds bus [] := holds_nil _

lemma StackHolds.pushStack {bus : Bus} {xs : List U8} (h : StackHolds bus xs)
    (hlen : xs.length < 256) (v : U8) : StackHolds (pushStack bus v) (v :: xs) := by
  unfold StackHolds
  rw [stackView_pushStack]
  exact h.push_of_lt hlen v

lemma StackHolds.popStack {bus : Bus} {v : U8} {xs : List U8} (h : StackHolds bus (v :: xs)) :
    (popStack bus).1 = v ∧ StackHolds (popStack bus).2 xs := by
  obtain ⟨hview, hvalue⟩ := Prod.mk.inj (stackView_popStack bus)
  unfold StackHolds
  rw [hview, hvalue]
  exact h.pop

/-- A word lies on the stack with its low byte on top. -/
lemma StackHolds.pushStackU16 {bus : Bus} {xs : List U8} (h : StackHolds bus xs)
    (hlen : xs.length + 2 ≤ 256) (w : U16) :
    StackHolds (pushStackU16 bus w) (lowByte w :: highByte w :: xs) :=
  (h.pushStack (by omega) _).pushStack (by rw [List.length_cons]; omega) _

lemma StackHolds.popStackU16 {bus : Bus} {w : U16} {xs : List U8}
    (h : StackHolds bus (lowByte w :: highByte w :: xs)) :
    (popStackU16 bus).1 = w ∧ StackHolds (popStackU16 bus).2 xs := by
  obtain ⟨hlo, h1⟩ := h.popStack
  obtain ⟨hhi, h2⟩ := h1.popStack
  refine ⟨?_, h2⟩
  rw [popStackU16_fst, hlo, hhi, highByte_append_lowByte]

/-- Activity that ends with the stack pointer where it began, and leaves the topmost `k` bytes
of the stack alone. -/
def Quiet (k : ℕ) (b c : Bus) : Prop :=
  c.cpu.stackPointer = b.cpu.stackPointer ∧
    ∀ i < k, c.cpuRam (stackCell (b.cpu.stackPointer + BitVec.ofNat 8 (i + 1))) =
      b.cpuRam (stackCell (b.cpu.stackPointer + BitVec.ofNat 8 (i + 1)))

lemma Quiet.refl (k : ℕ) (b : Bus) : Quiet k b b := ⟨rfl, fun _ _ => rfl⟩

lemma StackHolds.quiet {b c : Bus} {xs : List U8} (h : StackHolds b xs)
    (hquiet : Quiet xs.length b c) : StackHolds c xs := by
  refine Holds.congr h hquiet.1 fun k hk => ?_
  rw [slot_stackView]
  exact hquiet.2 k hk

/-- Actions on other registers do not matter. -/
lemma StackHolds.onCpu {bus : Bus} {xs : List U8} (h : StackHolds bus xs) {f : CPU → CPU}
    (hf : ∀ cpu, (f cpu).stackPointer = cpu.stackPointer) : StackHolds (bus.onCpu f) xs :=
  h.quiet ⟨hf bus.cpu, fun _ _ => rfl⟩

/-! ### The pointer and the other cells -/

def pushes (ops : List (Op U8)) : ℕ := ops.countP fun | .push _ => true | .pop => false
def pops (ops : List (Op U8)) : ℕ := ops.countP fun | .push _ => false | .pop => true

lemma stepStack_stackPointer (bus : Bus) (op : Op U8) :
    (stepStack bus op).1.cpu.stackPointer =
      bus.cpu.stackPointer - BitVec.ofNat 8 (pushes [op]) + BitVec.ofNat 8 (pops [op]) := by
  cases op with
  | push v =>
    rw [stepStack, pushStack_eq]
    exact (BitVec.add_zero _).symm
  | pop =>
    rw [stepStack, popStack_eq]
    exact congrArg (· + 1) (BitVec.sub_zero _).symm

lemma final_stackPointer (bus : Bus) (ops : List (Op U8)) :
    (final stepStack bus ops).cpu.stackPointer =
      bus.cpu.stackPointer - BitVec.ofNat 8 (pushes ops) + BitVec.ofNat 8 (pops ops) := by
  induction ops generalizing bus with
  | nil => simp [final, pushes, pops]
  | cons op ops ih =>
    have hpushes : pushes (op :: ops) = pushes [op] + pushes ops := by
      simp only [pushes, List.countP_cons, List.countP_nil]
      omega
    have hpops : pops (op :: ops) = pops [op] + pops ops := by
      simp only [pops, List.countP_cons, List.countP_nil]
      omega
    have hmove : ∀ s a b c d : U8, s - a + b - c + d = s - (a + c) + (b + d) := by grind
    rw [final, ih, stepStack_stackPointer, hpushes, hpops, BitVec.ofNat_add, BitVec.ofNat_add]
    exact hmove _ _ _ _ _

/-- Outside page one. -/
def OffStack (k : Fin 0x800) : Prop := (k : ℕ) < 0x100 ∨ 0x200 ≤ (k : ℕ)

lemma stackCell_ne {k : Fin 0x800} (h : OffStack k) (s : U8) : k ≠ stackCell s := by
  rintro rfl
  have := s.isLt
  unfold OffStack at h
  rw [stackCell_val] at h
  omega

lemma stepStack_cpuRam {k : Fin 0x800} (h : OffStack k) (bus : Bus) (op : Op U8) :
    (stepStack bus op).1.cpuRam k = bus.cpuRam k := by
  cases op with
  | push v =>
    rw [stepStack, pushStack_eq]
    exact Function.update_of_ne (stackCell_ne h _) _ _
  | pop => rw [stepStack, popStack_eq]

lemma final_cpuRam {k : Fin 0x800} (h : OffStack k) (bus : Bus) (ops : List (Op U8)) :
    (final stepStack bus ops).cpuRam k = bus.cpuRam k :=
  final_inv stepStack (P := fun b => b.cpuRam k = bus.cpuRam k)
    (fun b op hb => (stepStack_cpuRam h b op).trans hb) rfl ops

/-- **The hardware stack** answers every pop that the bounded list answers, and with the same
byte; its pointer counts the pushes and pops, and it leaves the rest of RAM alone. -/
theorem stack_refines (bus : Bus) (ops : List (Op U8)) :
    List.Forall₂ Keeps (outputs stepStack bus ops) (outputs (stepList 256) [] ops) ∧
      (final stepStack bus ops).cpu.stackPointer =
        bus.cpu.stackPointer - BitVec.ofNat 8 (pushes ops) + BitVec.ofNat 8 (pops ops) ∧
      ∀ k, OffStack k → (final stepStack bus ops).cpuRam k = bus.cpuRam k := by
  have hstart : StackHolds bus [] := holds_nil _
  obtain ⟨-, houtputs⟩ := stepStack_simulates.run hstart ops
  exact ⟨houtputs, final_stackPointer bus ops, fun k hk => final_cpuRam hk bus ops⟩

end NesEmulator
