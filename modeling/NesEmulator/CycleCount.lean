import NesEmulator.Frames

/-!
What an iteration costs.

The cost comes from the table, from the page crossing that `get_operand_address` reports, and
from the list of instructions for which a crossing counts. Together they follow the timing
rule of the 6502, which looks at the class of an instruction and at its mode only.
-/

namespace NesEmulator

open Lib.Bits

/-! ### The rule -/

inductive TimingClass
  | read | store | modify | push | pull | linkage | interrupt | jump | other
  deriving DecidableEq

/-- The class of an instruction; the branches and JAM have none of their own. -/
def Instruction.timing : Instruction → TimingClass
  | .lda | .ldx | .ldy | .adc | .sbc | .and | .ora | .eor | .cmp | .cpx | .cpy | .bit | .lax | .las
  | .nop | .anc | .alr | .arr | .ane | .lxa | .sbx => .read
  | .sta | .stx | .sty | .sax | .sha | .shx | .shy | .tas => .store
  | .asl | .lsr | .rol | .ror | .inc | .dec | .slo | .rla | .sre | .rra | .dcp | .isb => .modify
  | .pha | .php => .push
  | .pla | .plp => .pull
  | .jsr | .rts | .rti => .linkage
  | .brk => .interrupt
  | .jmp => .jump
  | _ => .other

/-- The cycles of a class in a mode, with `p = 1` where an index carries into the next page. A
class has no mode beside those that are listed for it. -/
def TimingClass.cycles : TimingClass → AddressingMode → ℕ → ℕ
  | .read, .immediate, _ => 2
  | .read, .zeroPage, _ => 3
  | .read, .zeroPageX, _ | .read, .zeroPageY, _ => 4
  | .read, .absolute, _ => 4
  | .read, .absoluteX, p | .read, .absoluteY, p => 4 + p
  | .read, .indirectX, _ => 6
  | .read, .indirectY, p => 5 + p
  | .store, .zeroPage, _ => 3
  | .store, .zeroPageX, _ | .store, .zeroPageY, _ => 4
  | .store, .absolute, _ => 4
  | .store, .absoluteX, _ | .store, .absoluteY, _ => 5
  | .store, .indirectX, _ | .store, .indirectY, _ => 6
  | .modify, .accumulator, _ => 2
  | .modify, .zeroPage, _ => 5
  | .modify, .zeroPageX, _ | .modify, .zeroPageY, _ => 6
  | .modify, .absolute, _ => 6
  | .modify, .absoluteX, _ | .modify, .absoluteY, _ => 7
  | .modify, .indirectX, _ | .modify, .indirectY, _ => 8
  | .push, .implied, _ => 3
  | .pull, .implied, _ => 4
  | .linkage, .absolute, _ | .linkage, .implied, _ => 6
  | .interrupt, .implied, _ => 7
  | .jump, .absolute, _ => 3
  | .jump, .indirect, _ => 5
  -- the NOP without an operand, and all that only moves registers and flags about
  | .read, .implied, _ | .other, .implied, _ => 2
  | _, _, _ => 0

/-- The index register of an indexed mode carries out of the low byte of the base address. -/
def indexCarry (bus : Bus) : ℕ :=
  let opcode := fetched bus
  match opcode.addressingMode with
  | .absoluteX => if 256 ≤ opcode.byte.toNat + bus.cpu.x.toNat then 1 else 0
  | .absoluteY => if 256 ≤ opcode.byte.toNat + bus.cpu.y.toNat then 1 else 0
  | .indirectY =>
    if 256 ≤ (readMem bus (opcode.byte.setWidth 16)).toNat + bus.cpu.y.toNat then 1 else 0
  | _ => 0

/-! ### The rows -/

def AddressingMode.carries : AddressingMode → Bool
  | .absoluteX | .absoluteY | .indirectY => true
  | _ => false

set_option maxRecDepth 4000 in
/-- **The rows follow the rule.** -/
theorem opcodes_timing : ∀ code ∈ opcodes.toList,
    code.addressingMode ≠ .relative → code.instruction ≠ .jam →
      ∀ p < 2, (code.addressingMode.carries = false → p = 0) →
        code.instruction.timing.cycles code.addressingMode p =
          if instructionHasAdditionalCycleOnPageCrossing code.instruction
          then code.cycles + p else code.cycles := by
  decide +kernel

/-! ### The page crossing -/

lemma pageCrossed (hi lo index : U8) :
    (if ((hi ++ lo : U16) &&& 0xFF00) = ((hi ++ lo : U16) + index.setWidth 16) &&& 0xFF00
      then 0 else 1) = if 256 ≤ lo.toNat + index.toNat then 1 else 0 := by
  have hpage : ((hi ++ lo : U16) &&& 0xFF00) = ((hi ++ lo : U16) + index.setWidth 16) &&& 0xFF00 ↔
      lo.toNat + index.toNat < 256 := by
    rw [and_pageMask_eq_iff, page_append_add]
  by_cases h : lo.toNat + index.toNat < 256
  · rw [if_pos (hpage.mpr h), if_neg (by omega)]
  · rw [if_neg (fun e => h (hpage.mp e)), if_pos (by omega)]

/-- What `get_operand_address` reports. -/
lemma decoded_fst (bus : Bus) : (decoded bus).1 = indexCarry bus := by
  unfold decoded getOperandAddress indexCarry
  dsimp only
  cases (fetched bus).addressingMode
  case absoluteX => exact pageCrossed _ _ _
  case absoluteY => exact pageCrossed _ _ _
  case indirect => dsimp only; split <;> rfl
  case indirectY =>
    -- the high byte that is compared is that of the base address
    dsimp only
    rw [readMem_skip, readMem_skip, shiftLeft_or_eq_append,
      shiftLeft_eq_append_and _ (readMem bus ((fetched bus).byte.setWidth 16))]
    exact pageCrossed _ _ _
  all_goals rfl

lemma indexCarry_lt (bus : Bus) : indexCarry bus < 2 := by
  unfold indexCarry
  dsimp only
  split
  case h_4 => exact Nat.zero_lt_two
  all_goals split <;> decide

lemma indexCarry_of_not_carries (bus : Bus)
    (h : (fetched bus).addressingMode.carries = false) : indexCarry bus = 0 := by
  unfold indexCarry
  dsimp only
  cases hmode : (fetched bus).addressingMode
  case absoluteX | absoluteY | indirectY => simp [hmode, AddressingMode.carries] at h
  all_goals rfl

/-! ### An iteration -/

lemma runCpuIteration_cycles (bus : Bus) : (runCpuIteration bus).cpu.cycles =
    ((fetched bus).instructionFn.call (steppedOver bus) (operandAddress bus)).cpu.cycles +
      BitVec.ofNat 64 (tickedCycles bus) :=
  rfl

lemma steppedOver_cycles (bus : Bus) : (steppedOver bus).cpu.cycles = bus.cpu.cycles := by
  rw [steppedOver_eq]
  rfl

lemma branches_fn {i : Instruction} {mode : AddressingMode} (hfits : i.fits mode)
    (hmode : mode ≠ .relative) : (i.fn mode).branches = false := by
  cases i
  case bcc | bcs | beq | bmi | bne | bpl | bvc | bvs =>
    exact absurd (of_decide_eq_true hfits) hmode
  case asl | lsr | rol | ror => cases mode <;> rfl
  all_goals rfl

lemma tickedCycles_eq {bus : Bus} (hbranch : (fetched bus).addressingMode ≠ .relative)
    (hjam : (fetched bus).instruction ≠ .jam) : tickedCycles bus =
      (fetched bus).instruction.timing.cycles (fetched bus).addressingMode (indexCarry bus) := by
  obtain ⟨code, hmem, -, hi, -, hcycles, hmode⟩ := getNextOpcode_row bus bus.cpu.programCounter
  rw [← fetched] at hi hcycles hmode
  have hzero := indexCarry_of_not_carries bus
  rw [tickedCycles, decoded_fst, hcycles]
  rw [hi] at hjam ⊢
  rw [hmode] at hbranch hzero ⊢
  rw [opcodes_timing code hmem hbranch hjam _ (indexCarry_lt bus) hzero]

/-- **Cycle counts follow the timing rule.** An iteration on any instruction but a branch and JAM
adds what its class, its mode and the carry of the index into the high byte give. -/
theorem cycles_follow_rule (bus : Bus) (hbranch : (fetched bus).addressingMode ≠ .relative)
    (hjam : (fetched bus).instruction ≠ .jam) :
    (runCpuIteration bus).cpu.cycles = bus.cpu.cycles + BitVec.ofNat 64
      ((fetched bus).instruction.timing.cycles (fetched bus).addressingMode (indexCarry bus)) := by
  have hfits := getNextOpcode_fits bus bus.cpu.programCounter
  have hfn : (fetched bus).instructionFn.branches = false := by
    rw [fetched_call rfl]
    exact branches_fn hfits hbranch
  rw [runCpuIteration_cycles, call_cycles hfn, steppedOver_cycles, tickedCycles_eq hbranch hjam]

/-- LDA with an indexed operand, its base address at the end of a page. -/
def ldaCrossing : Bus :=
  { freshBus (constantRom 0) with
    cpu := { (freshBus (constantRom 0)).cpu with x := 1 }
    cpuRam := fun k => if k = 0 then 0xBD else 0xFF }

theorem ldaCrossing_cycles : (runCpuIteration ldaCrossing).cpu.cycles = 0 + BitVec.ofNat 64 5 :=
  cycles_follow_rule ldaCrossing (by decide) (by decide)

end NesEmulator
