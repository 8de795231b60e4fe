import NesEmulator.InterruptLinkage
import NesEmulator.SubroutineLinkage
import NesEmulator.Locality

/-!
Runs that close what they have opened.

PHA, PHP, JSR and BRK put something on the stack, and PLA, PLP, RTS and RTI take it from there.
A run in which they come in pairs, one inside the other, for which the stack has room, and which
leaves alone what is held there meanwhile, gives every pair back what it has put there. Words are
pulled as `popStackU16` does it, the low byte first.
-/

namespace NesEmulator

open Lib.Bits Lib.Runs NumberMachine

/-! ### Pairs -/

/-- The instruction that takes from the stack what this one puts there. -/
def Instruction.closing : Instruction → Option Instruction
  | .pha => some .pla
  | .php => some .plp
  | .jsr => some .rts
  | .brk => some .rti
  | _ => none

/-- What the instruction at the program counter puts on the stack, the top first. -/
def openedBytes (b : Bus) : List U8 :=
  match (fetched b).instruction with
  | .pha => [b.cpu.accumulator]
  | .php => [savedStatus b.cpu]
  | .jsr => [lowByte (b.cpu.programCounter + 2), highByte (b.cpu.programCounter + 2)]
  | .brk =>
    [interruptStatus b.cpu, lowByte (b.cpu.programCounter + 2),
      highByte (b.cpu.programCounter + 2)]
  | _ => []

/-- The flags are as they were, but for the two that are not pulled. -/
def FlagsRestored (b d : Bus) : Prop :=
  ∀ f, d.cpu.flag f =
    if f = .unusedFlag then true else if f = .breakCommand then false else b.cpu.flag f

/-- What the pair of the instruction at the program counter gives back. -/
def Restored (b d : Bus) : Prop :=
  match (fetched b).instruction with
  | .pha => d.cpu.accumulator = b.cpu.accumulator
  | .php => FlagsRestored b d
  | .jsr => d.cpu.programCounter = b.cpu.programCounter + 3
  | .brk => d.cpu.programCounter = b.cpu.programCounter + 2 ∧ FlagsRestored b d
  | _ => True

/-! ### One instruction -/

section Step

variable {b c : Bus} {xs : List U8}

lemma StackHolds.over (h : StackHolds b xs) : StackHolds (steppedOver b) xs := by
  rw [steppedOver_eq]
  exact h.onCpu fun _ => rfl

lemma StackHolds.iteration (h : StackHolds
      (((fetched b).instruction.fn (fetched b).addressingMode).call (steppedOver b)
        (operandAddress b)) xs) : StackHolds (runCpuIteration b) xs := by
  rw [runCpuIteration_tick, fetched_call rfl]
  exact h.onCpu fun _ => rfl

lemma stackHolds_brkFn (h : StackHolds b xs) (hroom : xs.length + 3 ≤ 256) (a : U16) :
    StackHolds (brkFn b a) (interruptStatus b.cpu :: lowByte (b.cpu.programCounter + 1) ::
      highByte (b.cpu.programCounter + 1) :: xs) := by
  obtain ⟨vector, heq⟩ := brkFn_eq b a
  have hreturn := h.pushStackU16 (by omega) (b.cpu.programCounter + 1)
  have hflag := hreturn.onCpu fun cpu => setFlag_stackPointer cpu .breakCommand true
  have hpushed := hflag.pushStack (by simp only [List.length_cons]; omega) (interruptStatus b.cpu)
  rw [heq]
  exact hpushed.onCpu fun _ => rfl

lemma stackHolds_plaFn {value : U8} (h : StackHolds b (value :: xs)) (a : U16) :
    StackHolds (plaFn b a) xs ∧ (plaFn b a).cpu.accumulator = value := by
  obtain ⟨hvalue, hrest⟩ := h.popStack
  exact ⟨hrest.quiet ⟨rfl, fun _ _ => rfl⟩, hvalue⟩

lemma stackHolds_plpFn {value : U8} (h : StackHolds b (value :: xs)) (a : U16) :
    StackHolds (plpFn b a) xs ∧
      (plpFn b a).cpu.status = (putPulledStatus b.cpu value).status := by
  obtain ⟨hvalue, hrest⟩ := h.popStack
  refine ⟨hrest.quiet ⟨rfl, fun _ _ => rfl⟩, ?_⟩
  rw [← hvalue]
  rfl

lemma stackHolds_rtiFn {value : U8} {w : U16}
    (h : StackHolds b (value :: lowByte w :: highByte w :: xs)) (a : U16) :
    StackHolds (rtiFn b a) xs ∧ (rtiFn b a).cpu.programCounter = w ∧
      (rtiFn b a).cpu.status = (putPulledStatus b.cpu value).status ∧
        (rtiFn b a).cpu.stackPointer = b.cpu.stackPointer + 3 := by
  obtain ⟨hvalue, hrest⟩ := h.popStack
  have hcpu : StackHolds ((popStack b).2.onCpu fun cpu => putPulledStatus cpu (popStack b).1)
      (lowByte w :: highByte w :: xs) := hrest.onCpu fun _ => rfl
  obtain ⟨hw, hholds⟩ := hcpu.popStackU16
  refine ⟨hholds.onCpu fun _ => rfl, hw, ?_, ?_⟩
  · rw [← hvalue]
    rfl
  · change b.cpu.stackPointer + 1 + 1 + 1 = _
    rw [BitVec.add_assoc, BitVec.add_assoc]
    rfl

/-- What an iteration leaves of the instruction function's registers: all but the cycles. -/
lemma iteration_cpu {d : Bus} (h : ((fetched b).instruction.fn (fetched b).addressingMode).call
      (steppedOver b) (operandAddress b) = d) :
    (runCpuIteration b).cpu.stackPointer = d.cpu.stackPointer ∧
      (runCpuIteration b).cpu.accumulator = d.cpu.accumulator ∧
        (runCpuIteration b).cpu.programCounter = d.cpu.programCounter ∧
          ∀ f, (runCpuIteration b).cpu.flag f = d.cpu.flag f := by
  rw [runCpuIteration_tick, fetched_call rfl, h]
  exact ⟨rfl, rfl, rfl, fun _ => rfl⟩

lemma steppedOver_programCounter {mode : AddressingMode} (h : (fetched b).addressingMode = mode) :
    (steppedOver b).cpu.programCounter =
      b.cpu.programCounter + BitVec.ofNat 16 (mode.operandBytes + 1) := by
  rw [steppedOver_eq, skip_programCounter, fetched_bytes h]

lemma steppedOver_cpu : (steppedOver b).cpu.accumulator = b.cpu.accumulator ∧
    (steppedOver b).cpu.stackPointer = b.cpu.stackPointer ∧
      savedStatus (steppedOver b).cpu = savedStatus b.cpu ∧
        interruptStatus (steppedOver b).cpu = interruptStatus b.cpu := by
  rw [steppedOver_eq]
  exact ⟨rfl, rfl, rfl, rfl⟩

/-- **Opening** puts the bytes on top of what is there. -/
theorem stackHolds_opened (h : StackHolds b xs) {i : Instruction}
    (hopen : (fetched b).instruction.closing = some i)
    (hroom : xs.length + (openedBytes b).length ≤ 256) :
    StackHolds (runCpuIteration b) (openedBytes b ++ xs) ∧
      (runCpuIteration b).cpu.stackPointer =
        b.cpu.stackPointer - BitVec.ofNat 8 (openedBytes b).length := by
  have hover := h.over
  obtain ⟨hacc, hptr, hsaved, hinterrupt⟩ := @steppedOver_cpu b
  have hiter := @StackHolds.iteration b
  have hcpu := @iteration_cpu b
  rw [← hptr]
  cases hi : (fetched b).instruction <;> rw [hi] at hopen hiter hcpu <;>
    simp only [Instruction.closing, reduceCtorEq] at hopen
  case pha =>
    have hbytes : openedBytes b = [(steppedOver b).cpu.accumulator] := by
      rw [openedBytes, hi, hacc]
    rw [hbytes] at hroom ⊢
    exact ⟨hiter (hover.pushStack hroom _), (hcpu rfl).1.trans (pushStack_stackPointer _ _)⟩
  case php =>
    have hbytes : openedBytes b = [savedStatus (steppedOver b).cpu] := by
      rw [openedBytes, hi, hsaved]
    rw [hbytes] at hroom ⊢
    exact ⟨hiter (hover.pushStack hroom _), (hcpu rfl).1.trans (pushStack_stackPointer _ _)⟩
  case jsr =>
    have hmode : (fetched b).addressingMode = .absolute := of_decide_eq_true (fetched_fits hi rfl)
    have hbytes : openedBytes b =
        [lowByte (b.cpu.programCounter + 2), highByte (b.cpu.programCounter + 2)] := by
      rw [openedBytes, hi]
    rw [hbytes] at hroom ⊢
    exact ⟨hiter (hover.jsrFn hroom (steppedOver_programCounter hmode) _),
      (hcpu rfl).1.trans (jsrFn_stackPointer _ _)⟩
  case brk =>
    have hmode : (fetched b).addressingMode = .implied := of_decide_eq_true (fetched_fits hi rfl)
    have hreturn : (steppedOver b).cpu.programCounter + 1 = b.cpu.programCounter + 2 := by
      rw [steppedOver_programCounter hmode, BitVec.add_assoc]
      rfl
    have hbytes : openedBytes b = [interruptStatus (steppedOver b).cpu,
        lowByte ((steppedOver b).cpu.programCounter + 1),
        highByte ((steppedOver b).cpu.programCounter + 1)] := by
      rw [openedBytes, hi, hinterrupt, hreturn]
    rw [hbytes] at hroom ⊢
    exact ⟨hiter (stackHolds_brkFn hover hroom (operandAddress b)),
      (hcpu rfl).1.trans (brkFn_stackPointer _ (operandAddress b))⟩

lemma flag_restored {cpu d : CPU} {value : U8}
    (hstatus : d.status = (putPulledStatus cpu value).status)
    (h : ∀ f, f ≠ .unusedFlag → f ≠ .breakCommand → value.getLsbD f.bit = b.cpu.flag f)
    (f : StatusFlags) : d.flag f =
      if f = .unusedFlag then true else if f = .breakCommand then false else b.cpu.flag f := by
  have hflag : d.flag f = (putPulledStatus cpu value).flag f := by
    rw [CPU.flag, hstatus]
    rfl
  rw [hflag, flag_putPulledStatus]
  split
  · rfl
  · next hu =>
    split
    · rfl
    · next hb => exact h f hu hb

/-- **Closing** takes the bytes from the stack, and makes of them what there was. -/
theorem stackHolds_closed (hopen : (fetched b).instruction.closing = some (fetched c).instruction)
    (h : StackHolds c (openedBytes b ++ xs)) :
    StackHolds (runCpuIteration c) xs ∧ Restored b (runCpuIteration c) ∧
      (runCpuIteration c).cpu.stackPointer =
        c.cpu.stackPointer + BitVec.ofNat 8 (openedBytes b).length := by
  have hover := h.over
  have hptr := (@steppedOver_cpu c).2.1
  have hiter := @StackHolds.iteration c
  have hcpu := @iteration_cpu c
  rw [← hptr]
  cases hi : (fetched b).instruction <;> rw [hi] at hopen <;>
    simp only [Instruction.closing, reduceCtorEq, Option.some.injEq] at hopen <;>
    rw [← hopen] at hiter hcpu
  case pha =>
    have hbytes : openedBytes b = [b.cpu.accumulator] := by rw [openedBytes, hi]
    rw [hbytes] at hover ⊢
    obtain ⟨hrest, hvalue⟩ := stackHolds_plaFn hover (operandAddress c)
    obtain ⟨hsp, hacc, -, -⟩ := hcpu (d := plaFn (steppedOver c) (operandAddress c)) rfl
    refine ⟨hiter hrest, ?_, hsp⟩
    rw [Restored, hi]
    exact hacc.trans hvalue
  case php =>
    have hbytes : openedBytes b = [savedStatus b.cpu] := by rw [openedBytes, hi]
    rw [hbytes] at hover ⊢
    obtain ⟨hrest, hstatus⟩ := stackHolds_plpFn hover (operandAddress c)
    obtain ⟨hsp, -, -, hflag⟩ := hcpu (d := plpFn (steppedOver c) (operandAddress c)) rfl
    refine ⟨hiter hrest, ?_, hsp⟩
    rw [Restored, hi]
    exact fun f => (hflag f).trans
      (flag_restored hstatus (fun _ hu hb => savedStatus_getLsbD _ hu hb) f)
  case jsr =>
    have hbytes : openedBytes b =
        [lowByte (b.cpu.programCounter + 2), highByte (b.cpu.programCounter + 2)] := by
      rw [openedBytes, hi]
    rw [hbytes] at hover ⊢
    obtain ⟨hpulled, hrest⟩ := hover.rtsFn (operandAddress c)
    obtain ⟨hsp, -, hpc, -⟩ := hcpu (d := rtsFn (steppedOver c) (operandAddress c)) rfl
    refine ⟨hiter hrest, ?_, hsp.trans (rtsFn_stackPointer _ (operandAddress c))⟩
    rw [Restored, hi]
    exact hpc.trans hpulled
  case brk =>
    have hbytes : openedBytes b = [interruptStatus b.cpu, lowByte (b.cpu.programCounter + 2),
        highByte (b.cpu.programCounter + 2)] := by
      rw [openedBytes, hi]
    rw [hbytes] at hover ⊢
    obtain ⟨hrest, hpulled, hstatus, hpointer⟩ := stackHolds_rtiFn hover (operandAddress c)
    obtain ⟨hsp, -, hpc, hflag⟩ := hcpu (d := rtiFn (steppedOver c) (operandAddress c)) rfl
    refine ⟨hiter hrest, ?_, hsp.trans hpointer⟩
    rw [Restored, hi]
    exact ⟨hpc.trans hpulled, fun f => (hflag f).trans
      (flag_restored hstatus (fun _ _ hb => interruptStatus_getLsbD _ hb) f)⟩

end Step

/-! ### Runs -/

/-- A run of the loop in which every pair that is opened is closed, with `k` bytes of the stack
held for those outside of it. A step that does not move the stack pointer may store anywhere but
into what is held, and there is room for what is opened. -/
inductive Bracketed : ℕ → Bus → Bus → Prop
  | done (k : ℕ) (b : Bus) : Bracketed k b b
  | plain {k : ℕ} {b c : Bus}
      (pointer : (fetched b).instruction ∉ Register.stackPointer.changedBy)
      (held : ∀ i < k, ¬ Shown busShows (machine b).stores
        (Machine.stackAddress (b.cpu.stackPointer + BitVec.ofNat 8 (i + 1))))
      (rest : Bracketed k (runCpuIteration b) c) : Bracketed k b c
  | pair {k : ℕ} {b c d : Bus}
      (room : k + (openedBytes b).length ≤ 256)
      (inner : Bracketed (k + (openedBytes b).length) (runCpuIteration b) c)
      (closes : (fetched b).instruction.closing = some (fetched c).instruction)
      (rest : Bracketed k (runCpuIteration c) d) : Bracketed k b d

lemma Bracketed.run {k : ℕ} {b c : Bus} (h : Bracketed k b c) : ∃ n, c = runCpuIteration^[n] b := by
  induction h with
  | done => exact ⟨0, rfl⟩
  | plain _ _ _ ih =>
    obtain ⟨n, rfl⟩ := ih
    exact ⟨n + 1, rfl⟩
  | pair _ _ _ _ ihinner ihrest =>
    obtain ⟨n, rfl⟩ := ihinner
    obtain ⟨m, rfl⟩ := ihrest
    refine ⟨m + 1 + (n + 1), ?_⟩
    rw [Function.iterate_add_apply, Function.iterate_succ_apply, Function.iterate_succ_apply]

/-- What lies on top of the stack. -/
def topBytes (b : Bus) (k : ℕ) : List U8 :=
  (List.range k).map fun i => b.cpuRam (stackCell (b.cpu.stackPointer + BitVec.ofNat 8 (i + 1)))

lemma stackHolds_topBytes (b : Bus) {k : ℕ} (hk : k ≤ 256) : StackHolds b (topBytes b k) := by
  have hlen : (topBytes b k).length = k := by rw [topBytes, List.length_map, List.length_range]
  refine ⟨by omega, fun i hi => ?_⟩
  rw [slot_stackView]
  simp [topBytes, stackView]

lemma quiet_of_stackHolds {b c : Bus} {k : ℕ} (hsp : c.cpu.stackPointer = b.cpu.stackPointer)
    (h : StackHolds c (topBytes b k)) : Quiet k b c := by
  refine ⟨hsp, fun i hi => ?_⟩
  have hcell := h.2 i (by simpa [topBytes] using hi)
  rw [slot_stackView, hsp] at hcell
  simpa [topBytes, stackView] using hcell

lemma Quiet.trans {k : ℕ} {b c d : Bus} (h : Quiet k b c) (h' : Quiet k c d) : Quiet k b d := by
  refine ⟨h'.1.trans h.1, fun i hi => ?_⟩
  have hd := h'.2 i hi
  rw [h.1] at hd
  exact hd.trans (h.2 i hi)

lemma readMem_stack (b : Bus) (s : U8) :
    readMem b (Machine.stackAddress s) = b.cpuRam (stackCell s) := by
  have hs := s.isLt
  rw [← stackAddress_eq, readMem_of_le (by rw [toNat_stackAddr]; omega), ramCell_stackAddr]

lemma quiet_plain {b : Bus} {k : ℕ}
    (hpointer : (fetched b).instruction ∉ Register.stackPointer.changedBy)
    (hheld : ∀ i < k, ¬ Shown busShows (machine b).stores
      (Machine.stackAddress (b.cpu.stackPointer + BitVec.ofNat 8 (i + 1)))) :
    Quiet k b (runCpuIteration b) := by
  constructor
  · refine runCpuIteration_register (r := .stackPointer) ?_
    rw [mem_registers_iff]
    rintro (h | ⟨h, -⟩)
    · exact hpointer h
    · cases h
  · intro i hi
    have hmemory := Machine.step_memory _ (hheld i hi)
    rw [← machine_runCpuIteration] at hmemory
    rw [← readMem_stack, ← readMem_stack]
    exact hmemory

/-- **Every step** of a run that closes what it opens leaves the held bytes. -/
theorem Bracketed.quiet {k : ℕ} {b c : Bus} (h : Bracketed k b c) (hk : k ≤ 256) : Quiet k b c := by
  induction h with
  | done => exact Quiet.refl _ _
  | plain hpointer hheld _ ih => exact (quiet_plain hpointer hheld).trans (ih hk)
  | @pair k b c d hroom _ hcloses _ ihinner ihrest =>
    have hlen : (topBytes b k).length = k := by rw [topBytes, List.length_map, List.length_range]
    obtain ⟨hholds, hopened⟩ := stackHolds_opened (stackHolds_topBytes b hk) hcloses (by omega)
    have hinner := ihinner hroom
    rw [Nat.add_comm, ← hlen, ← List.length_append] at hinner
    obtain ⟨hrest, -, hclosed⟩ := stackHolds_closed hcloses (hholds.quiet hinner)
    have hsp : (runCpuIteration c).cpu.stackPointer = b.cpu.stackPointer := by
      rw [hclosed, hinner.1, hopened, BitVec.sub_add_cancel]
    exact (quiet_of_stackHolds hsp hrest).trans (ihrest hk)

/-- **Pairs give back** what they have put on the stack, as long as what is held and what is opened
at a time fits into its 256 bytes, and the other instructions leave the stack pointer and the held
bytes alone. PLA finds the byte of its PHA, and RTS goes behind its JSR. PLP finds the flags of its
PHP, and RTI goes two bytes behind its BRK with the flags from there: all of them but two, since
the break flag is clear afterwards and the unused one is set. The stack is as it was, its pointer
and what was held on it. -/
theorem pairs_give_back {k : ℕ} {b c : Bus} (hroom : k + (openedBytes b).length ≤ 256)
    (hinner : Bracketed (k + (openedBytes b).length) (runCpuIteration b) c)
    (hcloses : (fetched b).instruction.closing = some (fetched c).instruction) :
    Restored b (runCpuIteration c) ∧ Quiet k b (runCpuIteration c) ∧
      ∃ n, runCpuIteration c = runCpuIteration^[n] b := by
  have hlen : (topBytes b k).length = k := by rw [topBytes, List.length_map, List.length_range]
  have hheld := stackHolds_topBytes b (show k ≤ 256 by omega)
  obtain ⟨hholds, -⟩ := stackHolds_opened hheld hcloses (by omega)
  have hquiet := hinner.quiet hroom
  rw [Nat.add_comm, ← hlen, ← List.length_append] at hquiet
  obtain ⟨-, hrestored, -⟩ := stackHolds_closed hcloses (hholds.quiet hquiet)
  have hpair : Bracketed k b (runCpuIteration c) := .pair hroom hinner hcloses (.done k _)
  exact ⟨hrestored, hpair.quiet (by omega), hpair.run⟩

/-- `JSR $0004`, and there `PHA`, `TXA`, `PLA` and `RTS`. -/
def callAndKeep : Bus :=
  { freshBus (constantRom 0) with
    cpuRam := fun k => [0x20, 0x04, 0x00, 0x00, 0x48, 0x8A, 0x68, 0x60].getD k 0 }

theorem callAndKeep_gives_back :
    Restored callAndKeep (runCpuIteration^[5] callAndKeep) ∧
      Quiet 0 callAndKeep (runCpuIteration^[5] callAndKeep) ∧
        ∃ n, runCpuIteration^[5] callAndKeep = runCpuIteration^[n] callAndKeep := by
  have hbytes : openedBytes callAndKeep = [0x02, 0x00] := by decide +kernel
  have hbytes' : openedBytes (runCpuIteration callAndKeep) = [0x00] := by decide +kernel
  have hstores : (machine (runCpuIteration^[2] callAndKeep)).stores = [] := by decide +kernel
  have htxa : Bracketed 3 (runCpuIteration^[2] callAndKeep) (runCpuIteration^[3] callAndKeep) := by
    refine .plain (by decide +kernel) (fun i _ => ?_) (.done 3 _)
    rw [hstores]
    exact shown_nil
  refine pairs_give_back (c := runCpuIteration^[4] callAndKeep) (k := 0) (by rw [hbytes]; decide) ?_
    (by decide +kernel)
  rw [hbytes]
  refine .pair (c := runCpuIteration^[3] callAndKeep) (by rw [hbytes']; decide) ?_
    (by decide +kernel) (.done _ _)
  rw [hbytes']
  exact htxa

end NesEmulator
