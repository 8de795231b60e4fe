import NesEmulator.CycleCount

/-!
Branches.

A branch is taken or not by one status flag. When it is taken the page of the target is
compared with that of the byte behind the next instruction: the program counter has been
moved past the operand already, and is moved on once more for the comparison.
-/

namespace NesEmulator

open Lib.Bits

/-- The eight conditional branches. -/
def Instruction.conditional : Instruction → Bool
  | .bcc | .bcs | .bne | .beq | .bpl | .bmi | .bvc | .bvs => true
  | _ => false

/-- Where a branch goes when it is taken: the next instruction plus the signed offset byte. -/
def branchTarget (bus : Bus) : U16 :=
  bus.cpu.programCounter + 2 + (readMem bus (bus.cpu.programCounter + 1)).signExtend 16

/-- One of two instructions branches, and the other one does nothing. -/
def OneBranches (f g : Bus → U16 → Bus) (bus : Bus) : Prop :=
  ∀ a, branch bus a ≠ bus ∧
    ((f bus a = branch bus a ∧ g bus a = bus) ∨ (f bus a = bus ∧ g bus a = branch bus a))

/-- What is wanted of a branch at the program counter. -/
structure BranchesAsTimed (bus : Bus) : Prop where
  untaken : (fetched bus).instruction.taken bus.cpu = false →
    (runCpuIteration bus).cpu.programCounter = bus.cpu.programCounter + 2 ∧
      (runCpuIteration bus).cpu.cycles = bus.cpu.cycles + 2
  taken : (fetched bus).instruction.taken bus.cpu = true →
    (runCpuIteration bus).cpu.programCounter = branchTarget bus ∧
      (runCpuIteration bus).cpu.cycles = bus.cpu.cycles +
        if page (branchTarget bus) = page (bus.cpu.programCounter + 2) then 3 else 4
  stackPointer : (runCpuIteration bus).cpu.stackPointer = bus.cpu.stackPointer
  accumulator : (runCpuIteration bus).cpu.accumulator = bus.cpu.accumulator
  x : (runCpuIteration bus).cpu.x = bus.cpu.x
  y : (runCpuIteration bus).cpu.y = bus.cpu.y
  status : (runCpuIteration bus).cpu.status = bus.cpu.status
  cpuRam : (runCpuIteration bus).cpuRam = bus.cpuRam
  cartridge : (runCpuIteration bus).cartridge = bus.cartridge
  carry : OneBranches bccFn bcsFn bus
  zero : OneBranches bneFn beqFn bus
  negative : OneBranches bplFn bmiFn bus
  overflow : OneBranches bvcFn bvsFn bus

/-! ### Taking a branch -/

/-- A branch that is taken costs a cycle, and one more if the target is in another page than the
byte behind the program counter. -/
lemma branch_eq (bus : Bus) (a : U16) : branch bus a = bus.onCpu fun cpu =>
    { cpu with
      programCounter := cpu.programCounter + a
      cycles := cpu.cycles +
        if page (cpu.programCounter + 1) = page (cpu.programCounter + a) then 1 else 2 } := by
  have htwo : ∀ n : Usize, n + BitVec.ofNat 64 1 + BitVec.ofNat 64 1 = n + 2 := by grind
  have hpage := and_pageMask_eq_iff (bus.cpu.programCounter + 1) (bus.cpu.programCounter + a)
  unfold branch Bus.onCpu
  dsimp only [tick]
  by_cases h : page (bus.cpu.programCounter + 1) = page (bus.cpu.programCounter + a)
  · simp only [bne_iff_ne, ne_eq, hpage, h, not_true, if_false, if_true]
    rfl
  · simp only [bne_iff_ne, ne_eq, hpage, h, not_false_eq_true, if_true, if_false, htwo]

lemma branch_ne (bus : Bus) (a : U16) : branch bus a ≠ bus := by
  intro h
  have hcycles : (branch bus a).cpu.cycles = bus.cpu.cycles := congrArg (fun b => b.cpu.cycles) h
  rw [branch_eq] at hcycles
  revert hcycles
  dsimp only [onCpu_cpu]
  split <;> bv_omega

lemma oneBranches_not (bus : Bus) (c : Bool) :
    OneBranches (fun b => branchIf (!c) b) (fun b => branchIf c b) bus := by
  refine fun a => ⟨branch_ne bus a, ?_⟩
  cases c
  · exact Or.inl ⟨rfl, rfl⟩
  · exact Or.inr ⟨rfl, rfl⟩

/-! ### An iteration on a branch -/

set_option maxRecDepth 4000 in
lemma opcodes_relative : ∀ code ∈ opcodes.toList, code.addressingMode = .relative →
    code.cycles = 2 ∧ instructionHasAdditionalCycleOnPageCrossing code.instruction = false := by
  decide +kernel

lemma tickedCycles_relative {bus : Bus} (h : (fetched bus).addressingMode = .relative) :
    tickedCycles bus = 2 := by
  obtain ⟨code, hmem, -, hi, -, hcycles, hmode⟩ := getNextOpcode_row bus bus.cpu.programCounter
  rw [← fetched] at hi hcycles hmode
  obtain ⟨htwo, hnone⟩ := opcodes_relative code hmem (hmode.symm.trans h)
  rw [tickedCycles, hi, hnone, hcycles, htwo]
  rfl

lemma signExtend_offset (b : U8) :
    (if b.setWidth 16 &&& (0x80 : U16) != 0 then b.setWidth 16 ||| (0xFF00 : U16)
      else b.setWidth 16) = b.signExtend 16 := by
  revert b
  decide

lemma operandAddress_relative {bus : Bus} (h : (fetched bus).addressingMode = .relative) :
    operandAddress bus = (readMem bus (bus.cpu.programCounter + 1)).signExtend 16 := by
  have hbyte : (fetched bus).byte = readMem bus (bus.cpu.programCounter + 1) :=
    fetched_byte h (by decide)
  unfold operandAddress decoded getOperandAddress
  rw [h, hbyte]
  exact signExtend_offset _

/-- **A turn of the loop on a branch.** -/
theorem runCpuIteration_branch {bus : Bus} (h : (fetched bus).addressingMode = .relative) :
    runCpuIteration bus = bus.onCpu fun cpu =>
      if (fetched bus).instruction.taken bus.cpu then
        { cpu with
          programCounter := branchTarget bus
          cycles := cpu.cycles +
            if page (bus.cpu.programCounter + 3) = page (branchTarget bus) then 3 else 4 }
      else
        { cpu with
          programCounter := cpu.programCounter + 2
          cycles := cpu.cycles + 2 } := by
  have hover : steppedOver bus = bus.skip 2 := by
    rw [steppedOver_eq, fetched_bytes h]
    rfl
  have htarget : bus.cpu.programCounter + 2 + operandAddress bus = branchTarget bus := by
    rw [operandAddress_relative h]
    rfl
  have hnext : bus.cpu.programCounter + 2 + 1 = bus.cpu.programCounter + 3 := BitVec.add_assoc ..
  have hcycles : ∀ n k : Usize, n + k + BitVec.ofNat 64 2 = n + (k + 2) := by grind
  have htaken : (fetched bus).instruction.taken (bus.skip 2).cpu =
      (fetched bus).instruction.taken bus.cpu := rfl
  rw [runCpuIteration_tick, fetched_call h, relative_call (fetched_fits rfl h),
    tickedCycles_relative h, hover, htaken]
  cases (fetched bus).instruction.taken bus.cpu
  · rfl
  · rw [branchIf, if_pos rfl, branch_eq]
    simp only [Bus.onCpu, Bus.skip, tick, if_true, htarget, hnext, hcycles]
    by_cases hpage : page (bus.cpu.programCounter + 3) = page (branchTarget bus)
    · simp only [hpage, if_true]
      rfl
    · simp only [hpage, if_false]
      rfl

/-! ### The comparison of pages -/

lemma toNat_signExtend (b : U8) :
    (b.signExtend 16).toNat = if b.toNat < 128 then b.toNat else 0xFF00 + b.toNat := by
  revert b
  decide

/-- The wrong byte is asked for its page: that shows where it begins a page. -/
lemma page_next_iff (pc : U16) (b : U8) :
    (page (pc + 3) = page (pc + 2 + b.signExtend 16) ↔
        page (pc + 2 + b.signExtend 16) = page (pc + 2)) ↔ pc.toNat % 256 ≠ 0xFD := by
  have := pc.isLt
  have := b.isLt
  have hb := toNat_signExtend b
  unfold page
  rw [BitVec.toNat_add, BitVec.toNat_add, BitVec.toNat_add, hb]
  change ((pc.toNat + 3) % 2 ^ 16 / 256 = ((pc.toNat + 2) % 2 ^ 16 + _) % 2 ^ 16 / 256 ↔
    ((pc.toNat + 2) % 2 ^ 16 + _) % 2 ^ 16 / 256 = (pc.toNat + 2) % 2 ^ 16 / 256) ↔ _
  split <;> omega

lemma three_four_iff {p q : Prop} [Decidable p] [Decidable q] (n : Usize) :
    n + (if p then 3 else 4) = n + (if q then 3 else 4) ↔ (p ↔ q) := by
  by_cases hp : p <;> by_cases hq : q <;> simp [hp, hq]

lemma conditional_relative {bus : Bus} (h : (fetched bus).instruction.conditional = true) :
    (fetched bus).addressingMode = .relative := by
  have hfits := getNextOpcode_fits bus bus.cpu.programCounter
  rw [← fetched] at hfits
  generalize (fetched bus).instruction = i at h hfits
  cases i
  case bcc | bcs | bne | beq | bpl | bmi | bvc | bvs => exact of_decide_eq_true hfits
  all_goals simp [Instruction.conditional] at h

/-- What a branch leaves alone. -/
lemma runCpuIteration_branch_frame {bus : Bus} (h : (fetched bus).addressingMode = .relative) :
    ∃ pc cycles, runCpuIteration bus =
      bus.onCpu fun cpu => { cpu with programCounter := pc, cycles := cycles } := by
  rw [runCpuIteration_branch h]
  cases (fetched bus).instruction.taken bus.cpu
  · exact ⟨_, _, rfl⟩
  · exact ⟨_, _, rfl⟩

/-- **Branch semantics and timing.** A branch does what is wanted exactly if it is not taken, or
the next instruction does not begin at the last byte of a page. -/
theorem branches_as_timed_iff {bus : Bus} (h : (fetched bus).instruction.conditional = true) :
    BranchesAsTimed bus ↔ ¬ ((fetched bus).instruction.taken bus.cpu = true ∧
      bus.cpu.programCounter.toNat % 256 = 0xFD) := by
  have hmode := conditional_relative h
  have hiter := runCpuIteration_branch hmode
  have hpage := page_next_iff bus.cpu.programCounter (readMem bus (bus.cpu.programCounter + 1))
  constructor
  · rintro hwanted ⟨htaken, hlow⟩
    have hcycles := (hwanted.taken htaken).2
    rw [hiter, onCpu_cpu, if_pos htaken] at hcycles
    exact hpage.mp ((three_four_iff _).mp hcycles) hlow
  · intro hcond
    obtain ⟨pc, cycles, hframe⟩ := runCpuIteration_branch_frame hmode
    refine ⟨fun huntaken => ?_, fun htaken => ?_, ?_, ?_, ?_, ?_, ?_, ?_, ?_,
      oneBranches_not bus _, oneBranches_not bus _, oneBranches_not bus _, oneBranches_not bus _⟩
    · rw [hiter, onCpu_cpu, if_neg (by rw [huntaken]; exact Bool.false_ne_true)]
      exact ⟨rfl, rfl⟩
    · rw [hiter, onCpu_cpu, if_pos htaken]
      refine ⟨rfl, (three_four_iff _).mpr (hpage.mpr fun hlow => hcond ⟨htaken, hlow⟩)⟩
    all_goals
      rw [hframe]
      rfl

/-- A bus whose RAM is full of BCC, with the program counter at an address. -/
def allBcc (pc : U16) : Bus :=
  { freshBus (constantRom 0) with
    cpu := { (freshBus (constantRom 0)).cpu with programCounter := pc }
    cpuRam := fun _ => 0x90 }

theorem allBcc_iff : BranchesAsTimed (allBcc 0x0010) ↔
    ¬ ((fetched (allBcc 0x0010)).instruction.taken (allBcc 0x0010).cpu = true ∧
      (allBcc 0x0010).cpu.programCounter.toNat % 256 = 0xFD) :=
  branches_as_timed_iff (by decide)

/-- At 0x00FD a branch back to 0x008F, in the page of the next instruction, takes 4 cycles. -/
theorem allBcc_not_timed :
    (fetched (allBcc 0x00FD)).instruction.conditional = true ∧
      page (branchTarget (allBcc 0x00FD)) = page (0x00FD + 2) ∧
      (runCpuIteration (allBcc 0x00FD)).cpu.cycles = (allBcc 0x00FD).cpu.cycles + 4 ∧
      ¬ BranchesAsTimed (allBcc 0x00FD) := by
  refine ⟨by decide, by decide, by decide, fun hwanted => ?_⟩
  have hcycles := (hwanted.taken (by decide)).2
  exact absurd hcycles (by decide)

end NesEmulator
