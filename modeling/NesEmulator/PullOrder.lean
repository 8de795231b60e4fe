import NesEmulator.StackRefinement

/-!
The order of the two pops in `pop_stack_u16`.

Both operands of its `|` move the stack pointer, and the language does not say which of them is
evaluated first. The rest of the development takes the left one first; here both orders are
looked at.
-/

namespace NesEmulator

open Lib.Bits

/-- Which operand of the `|` is evaluated first. -/
inductive PopOrder
  | leftFirst
  | rightFirst
  deriving DecidableEq

/-- `pop_stack(cpu) | (pop_stack(cpu) << 8)` in one of the two orders. -/
def popStackU16In (order : PopOrder) (bus : Bus) : U16 × Bus :=
  match order with
  | .leftFirst =>
    let (left, bus) := popStack bus
    let (right, bus) := popStack bus
    (left.setWidth 16 ||| (right.setWidth 16 <<< 8), bus)
  | .rightFirst =>
    let (right, bus) := popStack bus
    let (left, bus) := popStack bus
    (left.setWidth 16 ||| (right.setWidth 16 <<< 8), bus)

def rtiFnIn (order : PopOrder) (bus : Bus) (_ : U16) : Bus :=
  let (value, bus) := popStack bus
  let bus := bus.onCpu fun cpu => putPulledStatus cpu value
  let (pc, bus) := popStackU16In order bus
  bus.onCpu fun cpu => { cpu with programCounter := pc }

def rtsFnIn (order : PopOrder) (bus : Bus) (_ : U16) : Bus :=
  let (pc, bus) := popStackU16In order bus
  bus.onCpu fun cpu => { cpu with programCounter := pc + 1 }

/-- The left operand first is what the other modules are about. -/
lemma in_leftFirst : popStackU16In .leftFirst = popStackU16 ∧ rtiFnIn .leftFirst = rtiFn ∧
    rtsFnIn .leftFirst = rtsFn :=
  ⟨rfl, rfl, rfl⟩

/-- A word that has just been pushed comes back, and so does the stack pointer. -/
def PulledBack (order : PopOrder) (bus : Bus) (v : U16) : Prop :=
  (popStackU16In order (pushStackU16 bus v)).1 = v ∧
    (popStackU16In order (pushStackU16 bus v)).2.cpu.stackPointer = bus.cpu.stackPointer

/-- What is wanted of a pushed word: it comes back in both orders, and the program counter that RTS
makes of it is the same in both, and the one that RTI finds below a status byte, too. -/
structure OrderFree (bus : Bus) (v : U16) : Prop where
  pulled : ∀ order, PulledBack order bus v
  rts : ∀ a, (rtsFnIn .leftFirst (pushStackU16 bus v) a).cpu.programCounter =
    (rtsFnIn .rightFirst (pushStackU16 bus v) a).cpu.programCounter
  rti : ∀ status a,
    (rtiFnIn .leftFirst (pushStack (pushStackU16 bus v) status) a).cpu.programCounter =
      (rtiFnIn .rightFirst (pushStack (pushStackU16 bus v) status) a).cpu.programCounter

/-! ### What the orders have in common -/

/-- A word put together of two bytes that have been popped one after the other. -/
def PopOrder.word : PopOrder → U8 → U8 → U16
  | .leftFirst, first, second => second ++ first
  | .rightFirst, first, second => first ++ second

section Orders

variable (order : PopOrder) (bus : Bus)

lemma popStackU16In_fst : (popStackU16In order bus).1 =
    order.word (popStack bus).1 (popStack (popStack bus).2).1 := by
  cases order
  · exact popStackU16_fst bus
  · change (popStack (popStack bus).2).1.setWidth 16 ||| ((popStack bus).1.setWidth 16 <<< 8) = _
    rw [BitVec.or_comm, shiftLeft_or_eq_append]
    rfl

/-- In either order the stack pointer goes over the same two cells. -/
lemma popStackU16In_snd : (popStackU16In order bus).2 = (popStackU16 bus).2 := by
  cases order <;> rfl

lemma word_swap (hi lo : U8) :
    order.word lo hi = hi ++ lo ↔ order = .leftFirst ∨ hi = lo := by
  cases order
  · simp [PopOrder.word]
  · have hne : PopOrder.rightFirst ≠ .leftFirst := by decide
    simp only [PopOrder.word, hne, false_or]
    constructor
    · intro h
      have hval := congrArg BitVec.toNat h
      rw [toNat_append, toNat_append] at hval
      have := hi.isLt
      have := lo.isLt
      exact BitVec.eq_of_toNat_eq (by omega)
    · rintro rfl
      rfl

variable {bus}

/-- A word whose bytes lie on the stack, with the low byte on top. -/
lemma StackHolds.popStackU16In {v : U16} {xs : List U8}
    (h : StackHolds bus (lowByte v :: highByte v :: xs)) :
    (popStackU16In order bus).1 = order.word (lowByte v) (highByte v) := by
  obtain ⟨hlo, hrest⟩ := h.popStack
  obtain ⟨hhi, -⟩ := hrest.popStack
  rw [popStackU16In_fst, hlo, hhi]

lemma rtiFnIn_programCounter {status : U8} {v : U16} {xs : List U8}
    (h : StackHolds bus (status :: lowByte v :: highByte v :: xs)) (a : U16) :
    (rtiFnIn order bus a).cpu.programCounter = order.word (lowByte v) (highByte v) := by
  obtain ⟨-, hrest⟩ := h.popStack
  have hcpu : StackHolds ((popStack bus).2.onCpu fun cpu => putPulledStatus cpu (popStack bus).1)
      (lowByte v :: highByte v :: xs) := hrest.onCpu fun _ => rfl
  exact hcpu.popStackU16In order

end Orders

/-! ### A word and its bytes -/

section Word

variable (order : PopOrder) (bus : Bus) (v : U16)

lemma pushed_word : (popStackU16In order (pushStackU16 bus v)).1 =
    order.word (lowByte v) (highByte v) :=
  ((stackHolds_nil bus).pushStackU16 (by decide) v).popStackU16In order

/-- **A pushed word comes back** if the left operand is evaluated first, or its bytes are equal. -/
theorem pulledBack_iff :
    PulledBack order bus v ↔ order = .leftFirst ∨ highByte v = lowByte v := by
  have hpointer : (popStackU16In order (pushStackU16 bus v)).2.cpu.stackPointer =
      bus.cpu.stackPointer := by
    rw [popStackU16In_snd, popStackU16_stackPointer, pushStackU16_stackPointer]
    exact BitVec.sub_add_cancel _ _
  rw [PulledBack, pushed_word, and_iff_left hpointer, ← word_swap, highByte_append_lowByte]

lemma rtsFnIn_pushed (a : U16) : (rtsFnIn order (pushStackU16 bus v) a).cpu.programCounter =
    order.word (lowByte v) (highByte v) + 1 :=
  congrArg (· + 1) (pushed_word order bus v)

lemma rtiFnIn_pushed (status : U8) (a : U16) :
    (rtiFnIn order (pushStack (pushStackU16 bus v) status) a).cpu.programCounter =
      order.word (lowByte v) (highByte v) :=
  rtiFnIn_programCounter order
    (((stackHolds_nil bus).pushStackU16 (by decide) v).pushStack (by simp) status) a

end Word

/-- **The order matters** for every word that is not one byte twice, whatever the RAM and the
stack pointer. -/
theorem orderFree_iff (bus : Bus) (v : U16) : OrderFree bus v ↔ highByte v = lowByte v := by
  have hne : PopOrder.rightFirst ≠ .leftFirst := by decide
  constructor
  · intro h
    rcases (pulledBack_iff .rightFirst bus v).mp (h.pulled .rightFirst) with horder | hbytes
    · exact absurd horder hne
    · exact hbytes
  · intro hbytes
    have hword : ∀ order : PopOrder, order.word (lowByte v) (highByte v) = v := by
      intro order
      rw [(word_swap order _ _).mpr (Or.inr hbytes), highByte_append_lowByte]
    refine ⟨fun order => (pulledBack_iff order bus v).mpr (Or.inr hbytes), fun a => ?_,
      fun status a => ?_⟩
    · rw [rtsFnIn_pushed, rtsFnIn_pushed, hword, hword]
    · rw [rtiFnIn_pushed, rtiFnIn_pushed, hword, hword]

/-- With the right operand first, 0x1234 comes back as 0x3412, and RTS goes to 0x3413 and not to
0x1235. -/
theorem pulled_swapped :
    (popStackU16In .rightFirst (pushStackU16 (freshBus (constantRom 0)) 0x1234)).1 = 0x3412 ∧
      (rtsFnIn .leftFirst (pushStackU16 (freshBus (constantRom 0)) 0x1234) 0).cpu.programCounter =
        0x1235 ∧
      (rtsFnIn .rightFirst (pushStackU16 (freshBus (constantRom 0)) 0x1234) 0).cpu.programCounter =
        0x3413 ∧
      ¬ OrderFree (freshBus (constantRom 0)) 0x1234 := by
  refine ⟨by decide, by decide, by decide, fun h => ?_⟩
  exact absurd (h.pulled .rightFirst).1 (by decide)

end NesEmulator
