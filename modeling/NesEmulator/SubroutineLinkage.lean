import NesEmulator.StackRefinement
import NesEmulator.Decoding

/-!
Subroutine calls and their returns.

JSR stacks the address of the last byte of its own instruction and RTS steps past it. While
calls are open the stack holds two bytes for each, the newest on top, so at most 128 calls
fit.
-/

namespace NesEmulator

open Lib.Bits

/-! ### One call, one return -/

lemma jsrFn_stackPointer (bus : Bus) (target : U16) :
    (jsrFn bus target).cpu.stackPointer = bus.cpu.stackPointer - 2 :=
  pushStackU16_stackPointer bus _

lemma rtsFn_stackPointer (bus : Bus) (operand : U16) :
    (rtsFn bus operand).cpu.stackPointer = bus.cpu.stackPointer + 2 :=
  popStackU16_stackPointer bus

lemma rtsFn_programCounter (bus : Bus) (operand : U16) :
    (rtsFn bus operand).cpu.programCounter = (popStackU16 bus).1 + 1 := rfl

/-- A call from a site, with the program counter behind the instruction. -/
lemma StackHolds.jsrFn {bus : Bus} {xs : List U8} (h : StackHolds bus xs)
    (hlen : xs.length + 2 ≤ 256) {site : U16} (hpc : bus.cpu.programCounter = site + 3)
    (target : U16) :
    StackHolds (jsrFn bus target) (lowByte (site + 2) :: highByte (site + 2) :: xs) := by
  have hret : bus.cpu.programCounter - 1 = site + 2 := by rw [hpc]; bv_omega
  have hpush := h.pushStackU16 hlen (site + 2)
  rw [← hret] at hpush ⊢
  exact hpush.onCpu fun _ => rfl

lemma StackHolds.rtsFn {bus : Bus} {xs : List U8} {site : U16}
    (h : StackHolds bus (lowByte (site + 2) :: highByte (site + 2) :: xs)) (operand : U16) :
    (rtsFn bus operand).cpu.programCounter = site + 3 ∧ StackHolds (rtsFn bus operand) xs := by
  obtain ⟨hpc, hrest⟩ := h.popStackU16
  refine ⟨?_, hrest.onCpu fun _ => rfl⟩
  rw [rtsFn_programCounter, hpc, BitVec.add_assoc]
  rfl

/-- Where `get_operand_address` leaves the program counter of a call. -/
lemma decoded_programCounter_jsr {bus : Bus} (h : (fetched bus).instruction = .jsr) :
    (decoded bus).2.2.cpu.programCounter = bus.cpu.programCounter + 3 := by
  have hmode : (fetched bus).addressingMode = .absolute := of_decide_eq_true (fetched_fits h rfl)
  change (steppedOver bus).cpu.programCounter = _
  rw [steppedOver_eq, skip_programCounter, fetched_bytes hmode]
  rfl

/-! ### Nested calls -/

/-- Calls have been made, one inside the other. The sites are those of the calls, the newest
first; before each call anything may happen that is quiet for the calls that are open. -/
inductive Called : List U16 → Bus → Bus → Prop
  | start (b : Bus) : Called [] b b
  | call {sites : List U16} {b c d : Bus} {site : U16} (target : U16)
      (before : Called sites b c) (quiet : Quiet (2 * sites.length) c d)
      (pc : d.cpu.programCounter = site + 3) : Called (site :: sites) b (jsrFn d target)

/-- So many calls are open, and one after the other returns; the list has the program counters
that the returns give. -/
inductive Returned : ℕ → Bus → List U16 → Bus → Prop
  | finish (b : Bus) : Returned 0 b [] b
  | ret {n : ℕ} {b c d : Bus} {pcs : List U16} (operand : U16) (quiet : Quiet (2 * (n + 1)) b c)
      (after : Returned n (rtsFn c operand) pcs d) :
      Returned (n + 1) b ((rtsFn c operand).cpu.programCounter :: pcs) d

/-- The bytes that open calls have on the stack. -/
def linkage : List U16 → List U8
  | [] => []
  | site :: sites => lowByte (site + 2) :: highByte (site + 2) :: linkage sites

lemma linkage_length (sites : List U16) : (linkage sites).length = 2 * sites.length := by
  induction sites with
  | nil => rfl
  | cons site sites ih =>
    rw [linkage, List.length_cons, List.length_cons, List.length_cons, ih]
    omega

/-- **Calls**: as many as fit leave their linkage on the stack. -/
theorem Called.stackHolds {sites : List U16} {b c : Bus} (h : Called sites b c)
    (hlen : sites.length ≤ 128) : StackHolds c (linkage sites) ∧
      c.cpu.stackPointer + BitVec.ofNat 8 (2 * sites.length) = b.cpu.stackPointer := by
  induction h with
  | start b => exact ⟨stackHolds_nil b, BitVec.add_zero _⟩
  | @call sites b c d site target _ quiet pc ih =>
    rw [List.length_cons] at hlen
    obtain ⟨hholds, hptr⟩ := ih (by omega)
    rw [← linkage_length] at quiet
    refine ⟨(hholds.quiet quiet).jsrFn (by rw [linkage_length]; omega) pc target, ?_⟩
    rw [jsrFn_stackPointer, quiet.1, List.length_cons, Nat.mul_succ, BitVec.ofNat_add, ← hptr,
      BitVec.add_comm (BitVec.ofNat 8 (2 * sites.length)), ← BitVec.add_assoc]
    exact congrArg (· + _) (BitVec.sub_add_cancel _ _)

/-- **Returns** find what the calls have left. -/
theorem Returned.programCounters {sites pcs : List U16} {b d : Bus}
    (h : Returned sites.length b pcs d) (hholds : StackHolds b (linkage sites)) :
    pcs = sites.map (· + 3) ∧
      d.cpu.stackPointer = b.cpu.stackPointer + BitVec.ofNat 8 (2 * sites.length) := by
  induction sites generalizing b pcs with
  | nil =>
    cases h
    exact ⟨rfl, (BitVec.add_zero _).symm⟩
  | cons site sites ih =>
    obtain _ | ⟨operand, quiet, after⟩ := h
    rw [← List.length_cons, ← linkage_length (site :: sites)] at quiet
    obtain ⟨hpc, hrest⟩ := (hholds.quiet quiet).rtsFn operand
    obtain ⟨hpcs, hptr⟩ := ih after hrest
    refine ⟨by rw [hpc, hpcs, List.map_cons], ?_⟩
    rw [hptr, rtsFn_stackPointer, quiet.1, List.length_cons, Nat.mul_succ, BitVec.ofNat_add,
      BitVec.add_comm (BitVec.ofNat 8 (2 * sites.length)), ← BitVec.add_assoc]
    rfl

/-- **Nested subroutines.** Up to 128 calls, made from the sites one inside the other, return
in the opposite order, each behind its site, and leave the stack pointer where it was; the
program counter of a call is where decoding the instruction at its site has left it. -/
theorem nested_calls_return {b c d : Bus} (sites pcs : List U16) (hlen : sites.length ≤ 128)
    (hcalls : Called sites.reverse b c) (hreturns : Returned sites.length c pcs d) :
    pcs = (sites.map (· + 3)).reverse ∧ d.cpu.stackPointer = b.cpu.stackPointer ∧
      ∀ bus : Bus, (fetched bus).instruction = .jsr →
        (decoded bus).2.2.cpu.programCounter = bus.cpu.programCounter + 3 := by
  rw [← List.length_reverse] at hlen hreturns
  obtain ⟨hholds, hcalled⟩ := hcalls.stackHolds hlen
  obtain ⟨hpcs, hreturned⟩ := hreturns.programCounters hholds
  refine ⟨by rw [hpcs, List.map_reverse], hreturned.trans hcalled, fun bus hjsr => ?_⟩
  exact decoded_programCounter_jsr hjsr

/-- Control reaches a call at a site. -/
def Bus.atSite (bus : Bus) (site : U16) : Bus :=
  bus.onCpu fun cpu => { cpu with programCounter := site + 3 }

lemma Called.atSite {sites : List U16} {b c : Bus} (h : Called sites b c) (site target : U16) :
    Called (site :: sites) b (NesEmulator.jsrFn (c.atSite site) target) :=
  .call target h ⟨rfl, fun _ _ => rfl⟩ rfl

/-- Two calls across the ends of the address space and of the stack. -/
def twoCalls : Bus :=
  jsrFn ((jsrFn ((freshBus (constantRom 0)).atSite 0xFFFE) 0x9000).atSite 0x9010) 0xA000

theorem twoCalls_return :
    [(rtsFn twoCalls 0).cpu.programCounter, (rtsFn (rtsFn twoCalls 0) 0).cpu.programCounter] =
        [0x9013, 0x0001] ∧
      (rtsFn (rtsFn twoCalls 0) 0).cpu.stackPointer = 0 ∧
      ∀ bus : Bus, (fetched bus).instruction = .jsr →
        (decoded bus).2.2.cpu.programCounter = bus.cpu.programCounter + 3 :=
  nested_calls_return [0xFFFE, 0x9010] _ (by decide)
    (((Called.start (freshBus (constantRom 0))).atSite 0xFFFE 0x9000).atSite 0x9010 0xA000)
    (.ret 0 (.refl _ _) (.ret 0 (.refl _ _) (.finish _)))

end NesEmulator
