import NesEmulator.BranchTiming
import NesEmulator.ListingCoverage

/-!
The listing and the execution find the same instructions.

Above RAM no store is seen, so an instruction is still the one that was listed when it is
executed. And as long as nothing jumps, both go on to the byte behind it.
-/

namespace NesEmulator.Disassembler

open Lib.Sweep

/-- The instruction at the program counter lies above RAM and not across the end of the address
space, and the next one is executed next. -/
structure GoesOn (bus : Bus) : Prop where
  above : 0x2000 < bus.cpu.programCounter.toNat
  within : bus.cpu.programCounter.toNat + (fetched bus).bytes ≤ 0x10000
  notJump : (fetched bus).instruction ∉ [.jmp, .jsr, .rts, .rti, .brk]
  notTaken : (fetched bus).instruction.taken bus.cpu = false

/-! ### One instruction -/

set_option maxRecDepth 4000 in
lemma opcodes_transfers : ∀ code ∈ opcodes.toList, code.instructionFn.transfers = true →
    code.instruction ∈ [.jmp, .jsr, .rts, .rti, .brk] ∨ code.addressingMode = .relative := by
  decide +kernel

/-- The address behind an instruction that does not jump. -/
theorem GoesOn.programCounter {bus : Bus} (h : GoesOn bus) :
    (runCpuIteration bus).cpu.programCounter =
      bus.cpu.programCounter + BitVec.ofNat 16 (fetched bus).bytes := by
  by_cases hmode : (fetched bus).addressingMode = .relative
  · have hbytes : (fetched bus).bytes = 2 := fetched_bytes hmode
    rw [runCpuIteration_branch hmode, onCpu_cpu, h.notTaken, hbytes]
    rfl
  · have hstay : (fetched bus).instructionFn.transfers = false := by
      obtain ⟨code, hmem, hfn, hi, -, -, hm⟩ := getNextOpcode_row bus bus.cpu.programCounter
      rw [← fetched] at hfn hi hm
      rw [hfn, Bool.eq_false_iff]
      intro htransfers
      rcases opcodes_transfers code hmem htransfers with hjump | hrelative
      · exact h.notJump (hi ▸ hjump)
      · exact hmode (hm.trans hrelative)
    rw [runCpuIteration_programCounter, call_programCounter hstay, steppedOver_eq]
    rfl

/-- Above RAM an instruction is the same on every bus with this cartridge. -/
lemma getNextOpcode_above {b c : Bus} (hcart : c.cartridge = b.cartridge) {pc : U16}
    (h : 0x2000 < pc.toNat) (hwithin : pc.toNat + (getNextOpcode c pc).bytes ≤ 0x10000) :
    getNextOpcode c pc = getNextOpcode b pc := by
  refine (getNextOpcode_congr fun i hi => readMem_above hcart ?_).symm
  rw [BitVec.toNat_add, BitVec.toNat_ofNat]
  omega

/-! ### A run -/

section Run

variable {bus : Bus} {n j : ℕ}

/-- At the program counter of a run there is the instruction that was listed. -/
lemma fetched_listed {i : ℕ} (h : GoesOn (runCpuIteration^[i] bus)) :
    fetched (runCpuIteration^[i] bus) =
      getNextOpcode bus (runCpuIteration^[i] bus).cpu.programCounter :=
  getNextOpcode_above (iterate_cartridge bus i) h.above h.within

lemma address_toNat (a : U16) : address a.toNat = a := BitVec.ofNat_toNat _ _

/-- **In step**: the counter of the listing goes with the program counter. -/
theorem linePc_run (hstart : linePc bus j = bus.cpu.programCounter.toNat)
    (hrun : ∀ i < n, GoesOn (runCpuIteration^[i] bus)) {i : ℕ} (hi : i < n) :
    linePc bus (j + i) = (runCpuIteration^[i] bus).cpu.programCounter.toNat := by
  induction i with
  | zero => exact hstart
  | succ i ih =>
    have hpc := ih (by omega)
    have hthis := hrun i (by omega)
    have hnext := (hrun (i + 1) hi).above
    have hwithin := hthis.within
    have hlength : lengthAt bus (linePc bus (j + i)) = (fetched (runCpuIteration^[i] bus)).bytes := by
      rw [lengthAt, hpc, address_toNat, fetched_listed hthis]
    rw [← Nat.add_assoc, linePc_succ, hlength, hpc]
    rw [Function.iterate_succ_apply', hthis.programCounter, BitVec.toNat_add, BitVec.toNat_ofNat]
      at hnext ⊢
    -- at 0x10000 the next instruction would be at address 0
    omega

end Run

/-- **The listing and the execution agree**: as long as a run goes on above RAM, it executes the
lines of the listing one after the other. -/
theorem listing_agrees (bus : Bus) (n j : ℕ) (l : Line) (hline : (codeLines bus 0)[j]? = some l)
    (hstart : address l.pc = bus.cpu.programCounter)
    (hrun : ∀ i < n, GoesOn (runCpuIteration^[i] bus)) : ∀ i < n, ∃ m : Line,
      (codeLines bus 0)[j + i]? = some m ∧
        (disassembleCode bus)[j + i]? = some (codeText bus m.pc m.opcode) ∧
        m.pc = (runCpuIteration^[i] bus).cpu.programCounter.toNat ∧
        m.opcode = fetched (runCpuIteration^[i] bus) := by
  intro i hi
  have hfirst : 0x2000 < bus.cpu.programCounter.toNat := (hrun 0 (by omega)).above
  have hle := (codeLines_eq_some.mp hline).1
  have hj : linePc bus j = bus.cpu.programCounter.toNat := by
    rw [pc_of_line hline] at hstart
    rw [← hstart] at hfirst ⊢
    rw [address, BitVec.toNat_ofNat] at hfirst ⊢
    omega
  have hpc := linePc_run hj hrun hi
  have hlt := (runCpuIteration^[i] bus).cpu.programCounter.isLt
  have hnext : (codeLines bus 0)[j + i]? = some (codeLine bus (linePc bus (j + i))) :=
    codeLines_eq_some.mpr ⟨by omega, rfl⟩
  refine ⟨_, hnext, ?_, hpc, ?_⟩
  · rw [disassembleCode, List.getElem?_map, hnext, Option.map_some, text_of_line hnext]
  · rw [opcode_of_line hnext, pc_of_line hnext, fetched_listed (hrun i hi), hpc, address_toNat]

/-- At an `ISB` of the open bus, which counts in RAM. -/
def atIsb : Bus := { allLda with cpu := { allLda.cpu with programCounter := 0x2002, x := 1 } }

lemma linePc_atIsb : linePc atIsb 0x1001 = 0x2002 := by
  have hlength : lengthAt atIsb = lengthAt allLda := rfl
  have hopen := linePc_allLda_open
  unfold linePc at hopen ⊢
  rw [hlength, hopen]

lemma atIsb_goesOn : ∀ i < 2, GoesOn (runCpuIteration^[i] atIsb)
  | 0, _ => ⟨by decide, by decide, by decide, by decide⟩
  | 1, _ => ⟨by decide, by decide, by decide, by decide⟩

/-- The second instruction is on the next line, and the first one has changed RAM. -/
theorem atIsb_agrees : (runCpuIteration^[1] atIsb).cpuRam 0 ≠ atIsb.cpuRam 0 ∧
    ∃ m : Line, (codeLines atIsb 0)[0x1001 + 1]? = some m ∧
      (disassembleCode atIsb)[0x1001 + 1]? = some (codeText atIsb m.pc m.opcode) ∧
      m.pc = (runCpuIteration^[1] atIsb).cpu.programCounter.toNat ∧
      m.opcode = fetched (runCpuIteration^[1] atIsb) := by
  have hline : (codeLines atIsb 0)[0x1001]? = some (codeLine atIsb 0x2002) := by
    rw [codeLines_eq_some, linePc_atIsb]
    exact ⟨by decide, rfl⟩
  exact ⟨by decide, listing_agrees atIsb 2 0x1001 _ hline rfl atIsb_goesOn 1 (by decide)⟩

end NesEmulator.Disassembler
