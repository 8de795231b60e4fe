import NesEmulator.Frames

/-!
What a step writes.

The function behind an instruction names the cells it may write; said by the instruction and
its mode instead, they are the operand of a store or of a shift in memory, and the bytes
below the stack pointer that a push, a call or an interrupt takes.
-/

namespace NesEmulator

/-- The cells that an instruction may change in a mode, with the operand address `a`, while the
stack pointer is `s`. -/
def Instruction.mayChange (i : Instruction) (mode : AddressingMode) (a : U16) (s : U8)
    (k : Fin 0x800) : Prop :=
  match i with
  | .sta | .stx | .sty | .sax | .inc | .dec | .slo | .rla | .sre | .rra | .dcp | .isb =>
    a.toNat < 0x2000 ∧ (k : ℕ) = a.toNat % 0x800
  | .asl | .lsr | .rol | .ror =>
    mode ≠ .accumulator ∧ a.toNat < 0x2000 ∧ (k : ℕ) = a.toNat % 0x800
  | .pha | .php => (k : ℕ) = 0x100 + s.toNat
  | .jsr => (k : ℕ) = 0x100 + s.toNat ∨ (k : ℕ) = 0x100 + (s - 1).toNat
  | .brk =>
    (k : ℕ) = 0x100 + s.toNat ∨ (k : ℕ) = 0x100 + (s - 1).toNat ∨
      (k : ℕ) = 0x100 + (s - 2).toNat
  | _ => False

section Cells

variable {a : U16} {s : U8} {k : Fin 0x800}

lemma mem_writtenCell : k ∈ (writtenCell a).toList ↔
    a.toNat < 0x2000 ∧ (k : ℕ) = a.toNat % 0x800 := by
  rw [Option.mem_toList, writtenCell, ← ramCell_val, Fin.val_inj]
  split
  · next h => simp only [h, Option.some.injEq, true_and, eq_comm]
  · next h => simp only [h, reduceCtorEq, false_and]

lemma eq_stackCell : k = stackCell s ↔ (k : ℕ) = 0x100 + s.toNat := Fin.ext_iff

/-- The functions write what their instructions may change. -/
lemma mayChange_of_mem_cells {i : Instruction} {mode : AddressingMode}
    (h : k ∈ (i.fn mode).cells a s) : i.mayChange mode a s k := by
  cases i
  -- the shifts and rotates have a second function, for the accumulator
  case asl | lsr | rol | ror =>
    by_cases hmode : mode = .accumulator
    · subst hmode
      simp [Instruction.fn, InstructionFn.cells] at h
    · refine ⟨hmode, mem_writtenCell.mp ?_⟩
      cases mode <;> first | exact h | exact absurd rfl hmode
  case sta | stx | sty | sax | inc | dec | slo | rla | sre | rra | dcp | isb =>
    exact mem_writtenCell.mp h
  case pha | php | jsr | brk =>
    simpa [Instruction.fn, InstructionFn.cells, Instruction.mayChange, eq_stackCell] using h
  all_goals simp [Instruction.fn, InstructionFn.cells] at h

end Cells

/-- **Memory frame of a step.** An iteration leaves the cartridge alone, and of RAM it changes at
most the cells that the instruction at the program counter may change. -/
theorem step_memory_frame (bus : Bus) : (runCpuIteration bus).cartridge = bus.cartridge ∧
    ∀ k, (runCpuIteration bus).cpuRam k = bus.cpuRam k ∨
      (fetched bus).instruction.mayChange (fetched bus).addressingMode (operandAddress bus)
        bus.cpu.stackPointer k := by
  refine ⟨runCpuIteration_cartridge bus, fun k => ?_⟩
  by_cases hk : k ∈ (fetched bus).instructionFn.cells (operandAddress bus) bus.cpu.stackPointer
  · rw [fetched_call rfl] at hk
    exact Or.inr (mayChange_of_mem_cells hk)
  · exact Or.inl (runCpuIteration_cpuRam hk)

end NesEmulator
