import NesEmulator.Frames
import NesEmulator.StackRefinement

/-!
The status byte on the stack, and BRK with its return.

PHP sets the unused and break bits of the byte it stacks, BRK sets the break bit of the live
status before it stacks that; PLP and RTI set the one and clear the other in what they
pull. So a status byte comes back as it was if it had the unused bit and not the break bit.
-/

namespace NesEmulator

open Lib.Bits

/-! ### The status byte -/

lemma StatusFlags.getLsbD_bit_mask (f g : StatusFlags) : g.mask.getLsbD f.bit = decide (f = g) := by
  have hbit : g.bit = f.bit ↔ f = g := ⟨fun h => (bit_injective h).symm, fun h => h ▸ rfl⟩
  rw [mask_eq_twoPow, BitVec.getLsbD_twoPow]
  simp only [g.bit_lt, hbit, decide_true, Bool.true_and]

/-- A pulled byte gives the old status, if it differs from it in the two bits that are not
pulled only. -/
lemma putPulledStatus_status {cpu old : CPU} {value : U8} (hunused : old.flag .unusedFlag = true)
    (hbreak : old.flag .breakCommand = false)
    (hvalue : ∀ f, f ≠ .unusedFlag → f ≠ .breakCommand → value.getLsbD f.bit = old.flag f) :
    (putPulledStatus cpu value).status = old.status := by
  refine status_ext fun f => ?_
  rw [flag_putPulledStatus]
  split
  · next h => rw [h, hunused]
  · next hu =>
    split
    · next h => rw [h, hbreak]
    · next hb => exact hvalue f hu hb

/-- The status byte as PHP stacks it. -/
def savedStatus (cpu : CPU) : U8 :=
  cpu.status ||| StatusFlags.unusedFlag.mask ||| StatusFlags.breakCommand.mask

lemma savedStatus_getLsbD (cpu : CPU) {f : StatusFlags} (hu : f ≠ .unusedFlag)
    (hb : f ≠ .breakCommand) : (savedStatus cpu).getLsbD f.bit = cpu.flag f := by
  simp [savedStatus, StatusFlags.getLsbD_bit_mask, hu, hb]

/-! ### PHP and PLP -/

lemma phpFn_stackHolds (bus : Bus) (a : U16) : StackHolds (phpFn bus a) [savedStatus bus.cpu] :=
  (stackHolds_nil bus).pushStack (by decide) _

lemma plpFn_status (bus : Bus) (a : U16) :
    (plpFn bus a).cpu.status = (putPulledStatus bus.cpu (popStack bus).1).status := rfl

lemma plpFn_stackPointer (bus : Bus) (a : U16) :
    (plpFn bus a).cpu.stackPointer = bus.cpu.stackPointer + 1 := rfl

/-! ### BRK and RTI -/

/-- The status byte as BRK stacks it. -/
def interruptStatus (cpu : CPU) : U8 := (setFlag cpu .breakCommand true).status

lemma interruptStatus_getLsbD (cpu : CPU) {f : StatusFlags} (hb : f ≠ .breakCommand) :
    (interruptStatus cpu).getLsbD f.bit = cpu.flag f := by
  rw [interruptStatus, status_getLsbD_bit, flag_setFlag, if_neg hb]

lemma pushStack_status (bus : Bus) (v : U8) : (pushStack bus v).cpu.status = bus.cpu.status := by
  rw [pushStack_eq]

lemma brkFn_eq (bus : Bus) (a : U16) : ∃ vector, brkFn bus a =
    (pushStack ((pushStackU16 bus (bus.cpu.programCounter + 1)).onCpu
        fun cpu => setFlag cpu .breakCommand true) (interruptStatus bus.cpu)).onCpu
      fun cpu => { cpu with programCounter := vector } := by
  have hstatus : (setFlag (pushStackU16 bus (bus.cpu.programCounter + 1)).cpu .breakCommand
      true).status = interruptStatus bus.cpu := by
    simp only [interruptStatus, setFlag, pushStackU16, if_true, pushStack_status]
  unfold brkFn
  dsimp only [onCpu_cpu]
  rw [hstatus]
  exact ⟨_, rfl⟩

/-- BRK stacks the address two bytes behind its opcode, and the status on top of it. -/
lemma brkFn_stackHolds (bus : Bus) (a : U16) :
    StackHolds (brkFn bus a) [interruptStatus bus.cpu, lowByte (bus.cpu.programCounter + 1),
      highByte (bus.cpu.programCounter + 1)] := by
  obtain ⟨vector, heq⟩ := brkFn_eq bus a
  have hreturn := (stackHolds_nil bus).pushStackU16 (by decide) (bus.cpu.programCounter + 1)
  have hflag := hreturn.onCpu fun cpu => setFlag_stackPointer cpu .breakCommand true
  have hpushed := hflag.pushStack (by simp) (interruptStatus bus.cpu)
  rw [heq]
  exact hpushed.onCpu fun _ => rfl

lemma brkFn_stackPointer (bus : Bus) (a : U16) :
    (brkFn bus a).cpu.stackPointer = bus.cpu.stackPointer - 3 := by
  obtain ⟨vector, heq⟩ := brkFn_eq bus a
  rw [heq, onCpu_cpu, pushStack_stackPointer, onCpu_cpu, setFlag_stackPointer,
    pushStackU16_stackPointer, BitVec.sub_sub]
  rfl

lemma rtiFn_eq {bus : Bus} {value : U8} {w : U16}
    (h : StackHolds bus [value, lowByte w, highByte w]) (a : U16) :
    (rtiFn bus a).cpu.programCounter = w ∧
      (rtiFn bus a).cpu.status = (putPulledStatus bus.cpu value).status ∧
      (rtiFn bus a).cpu.stackPointer = bus.cpu.stackPointer + 3 := by
  obtain ⟨hvalue, hrest⟩ := h.popStack
  have hcpu : StackHolds ((popStack bus).2.onCpu fun cpu => putPulledStatus cpu (popStack bus).1)
      [lowByte w, highByte w] := hrest.onCpu fun _ => rfl
  refine ⟨hcpu.popStackU16.1, ?_, ?_⟩
  · rw [← hvalue]
    rfl
  · change (popStackU16 _).2.cpu.stackPointer = _
    rw [popStackU16_stackPointer]
    change bus.cpu.stackPointer + 1 + 2 = _
    rw [BitVec.add_assoc]
    rfl

/-- A turn of the loop on a BRK. -/
lemma runCpuIteration_brk {bus : Bus} (h : (fetched bus).instruction = .brk) :
    ∃ (a : U16) (cycles : ℕ),
      runCpuIteration bus = (brkFn (bus.skip 1) a).onCpu fun cpu => tick cpu cycles := by
  have hmode : (fetched bus).addressingMode = .implied := of_decide_eq_true (fetched_fits h rfl)
  have hfn : (fetched bus).instructionFn = .brkFn := by
    rw [fetched_call hmode, h]
    rfl
  obtain ⟨cycles, heq⟩ := runCpuIteration_eq bus
  rw [hfn, steppedOver_eq, fetched_bytes hmode] at heq
  exact ⟨operandAddress bus, cycles, heq⟩

/-- **Status and interrupt linkage.** From a status with the unused bit and without the break
bit, PLP undoes PHP and RTI undoes an executed BRK, whatever quiet activity lies between. -/
theorem status_restored {b : Bus} (hunused : b.cpu.flag .unusedFlag = true)
    (hbreak : b.cpu.flag .breakCommand = false) :
    (∀ a a' c, Quiet 1 (phpFn b a) c →
      (plpFn c a').cpu.status = b.cpu.status ∧
        (plpFn c a').cpu.stackPointer = b.cpu.stackPointer ∧
        (phpFn b a).cpuRam (stackCell b.cpu.stackPointer) = b.cpu.status ||| 0x30) ∧
    ((fetched b).instruction = .brk → ∀ a c, Quiet 3 (runCpuIteration b) c →
      (rtiFn c a).cpu.programCounter = b.cpu.programCounter + 2 ∧
        (rtiFn c a).cpu.status = b.cpu.status ∧
        (rtiFn c a).cpu.stackPointer = b.cpu.stackPointer) := by
  constructor
  · intro a a' c hquiet
    obtain ⟨hvalue, -⟩ := ((phpFn_stackHolds b a).quiet hquiet).popStack
    have hptr : (phpFn b a).cpu.stackPointer = b.cpu.stackPointer - 1 :=
      pushStack_stackPointer b _
    refine ⟨?_, ?_, ?_⟩
    · rw [plpFn_status, hvalue]
      exact putPulledStatus_status hunused hbreak fun f hu hb => savedStatus_getLsbD _ hu hb
    · rw [plpFn_stackPointer, hquiet.1, hptr, BitVec.sub_add_cancel]
    · rw [phpFn, pushStack_eq]
      dsimp only
      rw [Function.update_self, BitVec.or_assoc]
      rfl
  · intro hbrk a c hquiet
    obtain ⟨a', cycles, hiter⟩ := runCpuIteration_brk hbrk
    have hstacked := (brkFn_stackHolds (b.skip 1) a').onCpu (f := fun cpu => tick cpu cycles)
      fun _ => rfl
    rw [← hiter] at hstacked
    obtain ⟨hpc, hstatus, hptr⟩ := rtiFn_eq (hstacked.quiet hquiet) a
    refine ⟨?_, ?_, ?_⟩
    · rw [hpc, skip_programCounter, BitVec.add_assoc]
      rfl
    · rw [hstatus]
      exact putPulledStatus_status hunused hbreak fun f _ hb => interruptStatus_getLsbD _ hb
    · rw [hptr, hquiet.1, hiter, onCpu_cpu]
      change (brkFn (b.skip 1) a').cpu.stackPointer + 3 = _
      rw [brkFn_stackPointer]
      exact BitVec.sub_add_cancel _ _

/-- A bus with a BRK at the program counter and the stack pointer at the end of its page. -/
def atBrk : Bus := (freshBus (constantRom 0)).onCpu fun cpu => { cpu with status := 0x20 }

theorem atBrk_restored :
    ((plpFn (phpFn atBrk 0) 0).cpu.status = 0x20 ∧ (plpFn (phpFn atBrk 0) 0).cpu.stackPointer = 0 ∧
      (phpFn atBrk 0).cpuRam (stackCell 0) = 0x20 ||| 0x30) ∧
    (rtiFn (runCpuIteration atBrk) 0).cpu.programCounter = 2 ∧
      (rtiFn (runCpuIteration atBrk) 0).cpu.status = 0x20 ∧
      (rtiFn (runCpuIteration atBrk) 0).cpu.stackPointer = 0 := by
  have h : _ ∧ (_ → _) := status_restored (b := atBrk) (by decide) (by decide)
  exact ⟨h.1 0 0 _ (.refl _ _), h.2 rfl 0 _ (.refl _ _)⟩

end NesEmulator
