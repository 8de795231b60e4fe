import NesEmulator.MachineRefinement
import NesEmulator.Lib.Contracts

/-!
A logic for programs.

What a program does is said of the machine of numbers, with the cycles that have passed, and holds
of the emulator: there is one rule for each addressing mode, and two for branches. A program that
comes to a BRK is left by `run_cpu`, so the rules are about what happens before.
-/

namespace NesEmulator

open Lib.Bits Lib.Contracts NumberMachine

/-- So many cycles behind `start`, with a machine to be seen. -/
structure At (start : Bus) (m : Machine busShows) (k : ℕ) (bus : Bus) : Prop where
  cartridge : bus.cartridge = start.cartridge
  machine : machine bus = m
  cycles : bus.cpu.cycles = start.cpu.cycles + BitVec.ofNat 64 k

/-- `run_cpu` goes on behind the next instruction. -/
def Continues (bus : Bus) : Prop := (fetched bus).instruction ≠ .brk

abbrev Runs (P Q : Bus → Prop) : Prop := LeadsTo runCpuIteration Continues P Q

lemma at_start (bus : Bus) : At bus (machine bus) 0 bus := ⟨rfl, rfl, (BitVec.add_zero _).symm⟩

/-- The run comes to a state in `Q`, and to `run_cpu` it makes no difference if it is called there
or here. -/
def ComesTo (bus : Bus) (Q : Bus → Prop) : Prop :=
  ∃ n, Q (runCpuIteration^[n] bus) ∧
    ∀ fuel, runCpu (n + fuel) bus = runCpu fuel (runCpuIteration^[n] bus)

theorem Runs.comesTo {P Q : Bus → Prop} (h : Runs P Q) {bus : Bus} (hbus : P bus) :
    ComesTo bus Q := by
  obtain ⟨n, hn, hq⟩ := h bus hbus
  refine ⟨n, hq, fun fuel => ?_⟩
  clear hq hbus
  induction n generalizing bus with
  | zero =>
    rw [Nat.zero_add]
    rfl
  | succ n ih =>
    have hfirst : ¬ (fetched bus).instruction = .brk := hn 0 (Nat.succ_pos n)
    rw [Nat.succ_add, runCpu, if_neg hfirst, Function.iterate_succ_apply]
    exact ih fun i hi => hn (i + 1) (Nat.succ_lt_succ hi)

/-! ### One instruction -/

section Step

variable (start : Bus) (m : Machine busShows) (k : ℕ)

lemma runs_step (h : m.fetch.1 ≠ .brk) :
    Runs (At start m k) (At start m.step (k + m.duration)) := by
  refine LeadsTo.step fun bus hbus => ?_
  obtain ⟨hcart, rfl, hcycles⟩ := hbus
  rw [machine_fetch] at h
  refine ⟨h, (runCpuIteration_cartridge bus).trans hcart, machine_runCpuIteration bus, ?_⟩
  rw [machine_duration, hcycles, BitVec.ofNat_add, BitVec.add_assoc]

/-- **An instruction** that is no branch, with its operand. -/
theorem runs_mode (i : Instruction) (mode : AddressingMode) {b : U8} {o : Operand}
    (hop : m.memory m.programCounter = b) (hrow : decode b = (i, mode))
    (hi : i ≠ .brk ∧ i ≠ .jam ∧ mode ≠ .relative) (ho : m.operand mode = o) : Runs (At start m k)
      (At start ((m.jump (m.programCounter + BitVec.ofNat 16 (mode.operandBytes + 1))).execute i o)
        (k + i.timing.cycles mode (m.indexCarry mode))) := by
  have hfetch : m.fetch = (i, mode) := by rw [Machine.fetch, hop, hrow]
  have hstep := runs_step start m k (by rw [hfetch]; exact hi.1)
  have hduration : m.duration = i.timing.cycles mode (m.indexCarry mode) := by
    rw [Machine.duration, hfetch]
    dsimp only
    rw [if_neg hi.2.2, if_neg hi.2.1]
  rwa [Machine.step, hfetch, ho, hduration] at hstep

/-- **A branch**, with its offset. -/
theorem runs_branch (i : Instruction) {b v : U8} (hop : m.memory m.programCounter = b)
    (hrow : decode b = (i, .relative)) (hi : condition i ≠ none)
    (hv : m.memory (m.programCounter + 1) = v) :
    Runs (At start m k) (if m.takes i
      then At start (m.jump (m.programCounter + 2 + v.signExtend 16))
        (k + if page (m.programCounter + 3) = page (m.programCounter + 2 + v.signExtend 16) then 3
          else 4)
      else At start (m.jump (m.programCounter + 2)) (k + 2)) := by
  have hfetch : m.fetch = (i, .relative) := by rw [Machine.fetch, hop, hrow]
  have hbrk : i ≠ .brk := by
    rintro rfl
    exact hi rfl
  have hoffset : BitVec.ofNat 16 (m.effectiveAddress .relative) = v.signExtend 16 := by
    apply BitVec.eq_of_toNat_eq
    have hlt := v.isLt
    rw [Machine.effectiveAddress, Machine.firstByte, hv, BitVec.toNat_ofNat, toNat_signExtend]
    split <;> omega
  have hoperand : (m.operand .relative).address = v.signExtend 16 := hoffset
  have hexecute : ∀ n : Machine busShows, ∀ o, n.execute i o =
      if n.takes i then n.jump (n.programCounter + o.address) else n := by
    intro n o
    cases i <;> first | rfl | exact absurd rfl hi
  have hstep := runs_step start m k (by rw [hfetch]; exact hbrk)
  rw [Machine.step, hfetch, hexecute, Machine.duration, hfetch] at hstep
  dsimp only at hstep
  rw [if_pos rfl, Machine.branchCycles, hoffset, hoperand] at hstep
  change LeadsTo _ _ _ (At start (if m.takes i then _ else _) _) at hstep
  split
  · next h =>
    rw [if_pos h, if_pos h] at hstep
    exact hstep
  · next h =>
    rw [if_neg h, if_neg h] at hstep
    exact hstep

/-- A branch that stays in its page, to a known address. -/
lemma runs_near (i : Instruction) {b v : U8} {a : U16} (hop : m.memory m.programCounter = b)
    (hrow : decode b = (i, .relative)) (hi : condition i ≠ none)
    (hv : m.memory (m.programCounter + 1) = v)
    (ha : m.programCounter + 2 + v.signExtend 16 = a) (hpage : page (m.programCounter + 3) = page a)
    {taken : Bool} (htaken : m.takes i = taken) :
    Runs (At start m k) (if taken then At start (m.jump a) (k + 3)
      else At start (m.jump (m.programCounter + 2)) (k + 2)) := by
  have hbranch := runs_branch start m k i hop hrow hi hv
  rwa [ha, if_pos hpage, htaken] at hbranch

end Step

/-! ### Operands -/

section Operands

variable {m : Machine busShows} {v hi : U8}

lemma operand_immediate : m.operand .immediate = .cell (m.programCounter + 1) := by
  have haddress :
      BitVec.ofNat 16 ((m.programCounter.toNat + 1) % 65536) = m.programCounter + 1 := by
    apply BitVec.eq_of_toNat_eq
    rw [BitVec.toNat_ofNat, BitVec.toNat_add]
    exact Nat.mod_mod _ _
  exact congrArg Operand.cell haddress

lemma operand_zeroPage (hv : m.memory (m.programCounter + 1) = v) :
    m.operand .zeroPage = .cell (v.setWidth 16) := by
  rw [← hv, ← BitVec.ofNat_toNat]
  rfl

lemma operand_zeroPageX (hv : m.memory (m.programCounter + 1) = v) :
    m.operand .zeroPageX = .cell ((v + m.register .x).setWidth 16) := by
  rw [← hv, ← BitVec.ofNat_toNat, BitVec.toNat_add]
  rfl

lemma operand_absolute (hv : m.memory (m.programCounter + 1) = v)
    (hhi : m.memory (m.programCounter + 2) = hi) : m.operand .absolute = .cell (hi ++ v) := by
  have haddress : BitVec.ofNat 16 (v.toNat + 256 * hi.toNat) = hi ++ v := by
    rw [Nat.add_comm, Nat.mul_comm, ← toNat_append, BitVec.ofNat_toNat, BitVec.setWidth_eq]
  rw [← haddress, ← hv, ← hhi]
  rfl

end Operands

/-! ### Subroutines -/

section Calls

open Machine

variable {start : Bus} {m g : Machine busShows} {k c : ℕ} {lo hi : U8}

/-- A store to the stack shows in the stack at its own place only. -/
lemma busShows_stack (s t : U8) : busShows (stackAddress s) (stackAddress t) = (s == t) := by
  have haddress : ∀ s : U8, (stackAddress s).toNat = 0x100 + s.toNat := by
    intro s
    rw [stackAddress, toNat_append]
    rfl
  have hs := s.isLt
  have ht := t.isLt
  rw [Bool.eq_iff_iff, beq_iff_eq, ← BitVec.toNat_inj, busShows, decide_eq_true_iff, haddress,
    haddress]
  omega

/-- A store to the stack does not show in the code. -/
lemma pushWord_memory (m : Machine busShows) (w : U16) {a : U16}
    (h : 0x200 ≤ a.toNat % 0x800 ∨ 0x2000 < a.toNat) : (m.pushWord w).memory a = m.memory a := by
  have hoff : ∀ s : U8, busShows (stackAddress s) a = false := by
    intro s
    have hs := s.isLt
    rw [busShows, decide_eq_false_iff_not, stackAddress, toNat_append]
    change ¬ (1 * 256 + s.toNat < 0x2000 ∧ _ ∧ (1 * 256 + s.toNat) % 0x800 = _)
    omega
  simp [pushWord, push, hoff]

lemma push_stackPointer (m : Machine busShows) (v : U8) :
    (m.push v).register .stackPointer = m.register .stackPointer - 1 := rfl

lemma push_memory (m : Machine busShows) (v t : U8) : (m.push v).memory (stackAddress t) =
    if m.register .stackPointer = t then v else m.memory (stackAddress t) := by
  simp [push, busShows_stack]

lemma topWord_pushWord (m : Machine busShows) (w : U16) : (m.pushWord w).topWord = w := by
  have hback : ∀ s : U8, s - 1 + 1 = s := fun s => BitVec.sub_add_cancel s 1
  have hne : ∀ s : U8, s - 1 ≠ s := by decide
  have hlow : (m.pushWord w).top = lowByte w := by
    rw [top, pushWord, push_stackPointer, hback, push_memory, if_pos rfl]
  have hhigh : (m.pushWord w).drop.top = highByte w := by
    change (m.pushWord w).memory (stackAddress ((m.pushWord w).register .stackPointer + 1 + 1)) = _
    rw [pushWord, push_stackPointer, push_stackPointer, hback, hback, push_memory,
      push_stackPointer, if_neg (hne _), push_memory, if_pos rfl]
  rw [topWord, hlow, hhigh]
  exact highByte_append_lowByte w

/-- **A call**: what a subroutine does up to its return is done between a JSR and the instruction
behind it. -/
theorem runs_call (hop : m.memory m.programCounter = 0x20)
    (hlo : m.memory (m.programCounter + 1) = lo) (hhi : m.memory (m.programCounter + 2) = hi)
    (hbody : Runs (At start ((m.pushWord (m.programCounter + 2)).jump (hi ++ lo)) (k + 6))
      (At start (g.dropWord.jump ((m.pushWord (m.programCounter + 2)).topWord + 1)) (k + 6 + c))) :
    Runs (At start m k) (At start (g.dropWord.jump (m.programCounter + 3)) (k + (6 + c))) := by
  have hjsr := runs_mode start m k .jsr .absolute hop rfl (by decide) (operand_absolute hlo hhi)
  have hback : m.programCounter + 3 - 1 = m.programCounter + 2 := by
    rw [BitVec.sub_eq_iff_eq_add, BitVec.add_assoc]
    rfl
  change Runs _ (At start ((m.pushWord (m.programCounter + 3 - 1)).jump (hi ++ lo)) (k + 6)) at hjsr
  rw [hback] at hjsr
  have hrun := hjsr.trans hbody
  have hnext : m.programCounter + 2 + 1 = m.programCounter + 3 := BitVec.add_assoc _ _ _
  rwa [topWord_pushWord, hnext, Nat.add_assoc] at hrun

end Calls

end NesEmulator
