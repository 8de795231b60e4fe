import NesEmulator.MachineRefinement
import NesEmulator.Listing
import NesEmulator.PrgBounds

/-!
From the file to the trace.

`main` loads a cartridge, lists it, resets the CPU, puts the program counter to `0xC000` and
runs. All that it prints depends on what the processor can see; and of a file that is its
PRG ROM, through the window: the slice of the file that `load_cartridge` takes for it. A file that
is missing or not accepted leaves no PRG ROM; there the model reads zeros, while the source reads
through a null pointer before it prints anything.
-/

namespace NesEmulator

open Disassembler

/-! ### What `main` does -/

/-- `Bus bus = {}`, with the cartridge of a file. -/
def attached (file : Option (List U8)) : Bus :=
  busLoadCartridge (freshBus emptyCartridge) (loadCartridge file)

/-- The bus that `main` calls `run_cpu` with. -/
def mainBus (file : Option (List U8)) : Bus :=
  (busReset (attached file)).onCpu fun cpu => { cpu with programCounter := 0xC000 }

/-- The line that the loop prints before it executes an instruction. -/
def traceLine (bus : Bus) : List Piece := disassembleCpu bus (fetched bus)

/-- The lines that `run_cpu` prints in its first `fuel` turns. -/
def runCpuTrace : ℕ → Bus → List (List Piece)
  | 0, _ => []
  | fuel + 1, bus =>
    traceLine bus :: if (fetched bus).instruction = .brk then []
      else runCpuTrace fuel (runCpuIteration bus)

/-! ### Buses that look the same -/

/-- The processor sees the same on both, and its cycle counter stands at the same number. -/
structure Twins (b c : Bus) : Prop where
  machine : machine c = machine b
  cycles : c.cpu.cycles = b.cpu.cycles

namespace Twins

variable {b c : Bus} (h : Twins b c)
include h

lemma readMem : NesEmulator.readMem c = NesEmulator.readMem b :=
  congrArg NumberMachine.Machine.memory h.machine

lemma cpu : c.cpu = b.cpu :=
  cpu_eq (congrArg NumberMachine.Machine.programCounter h.machine)
    (congrArg NumberMachine.Machine.register h.machine)
    (congrArg NumberMachine.Machine.flag h.machine) h.cycles

lemma cpuRam : c.cpuRam = b.cpuRam := cpuRam_of_readMem h.readMem

/-- What of the bus can be told apart at the end of a run. -/
lemma state : (c.cpu, c.cpuRam) = (b.cpu, b.cpuRam) := by rw [h.cpu, h.cpuRam]

lemma getNextOpcode (pc : U16) : getNextOpcode c pc = getNextOpcode b pc := by
  rw [getNextOpcode_eq, getNextOpcode_eq, h.readMem]

lemma fetched : fetched c = fetched b := by
  unfold NesEmulator.fetched
  rw [h.getNextOpcode, h.cpu]

lemma traceLine : traceLine c = traceLine b := by
  unfold NesEmulator.traceLine disassembleCpu frontColumns byteColumn memoryColumn operandColumn
    Disassembler.getOperandAddress
  rw [h.fetched, h.cpu, h.readMem]

lemma step : Twins (runCpuIteration b) (runCpuIteration c) := by
  refine ⟨?_, ?_⟩
  · rw [machine_runCpuIteration, machine_runCpuIteration, h.machine]
  · rw [machine_duration, machine_duration, h.machine, h.cycles]

lemma reset : Twins (busReset b) (busReset c) := by
  refine ⟨by rw [machine_busReset, machine_busReset, h.machine], ?_⟩
  exact congrArg (· + BitVec.ofNat 64 7) h.cycles

lemma jump (pc : U16) : Twins (b.onCpu fun cpu => { cpu with programCounter := pc })
    (c.onCpu fun cpu => { cpu with programCounter := pc }) :=
  ⟨by rw [machine_jump, machine_jump, h.machine], h.cycles⟩

end Twins

/-- **A run prints the same** on twins, and ends in the same state. -/
theorem Twins.run {b c : Bus} (h : Twins b c) (fuel : ℕ) :
    runCpuTrace fuel c = runCpuTrace fuel b ∧
      (runCpu fuel c).map (fun d => (d.cpu, d.cpuRam)) =
        (runCpu fuel b).map fun d => (d.cpu, d.cpuRam) := by
  induction fuel generalizing b c with
  | zero => exact ⟨rfl, rfl⟩
  | succ fuel ih =>
    obtain ⟨htrace, hrun⟩ := ih h.step
    rw [runCpuTrace, runCpuTrace, runCpu, runCpu, h.fetched, h.traceLine, htrace]
    refine ⟨rfl, ?_⟩
    split
    · exact congrArg some h.step.state
    · exact hrun

/-- **The listing** is made of what can be read. -/
theorem disassembleCode_congr {b c : Bus} (h : readMem c = readMem b) :
    disassembleCode c = disassembleCode b := by
  have hopcode : getNextOpcode c = getNextOpcode b := by
    funext pc
    rw [getNextOpcode_eq, getNextOpcode_eq, h]
  have hline : codeLine c = codeLine b := by
    funext pc
    unfold codeLine codeText memText
    rw [hopcode, h]
  have hlength : lengthAt c = lengthAt b := by
    funext pc
    rw [lengthAt, lengthAt, hopcode]
  have hlines : codeLines c 0 = codeLines b 0 := by
    apply List.ext_getElem?
    intro i
    rw [codeLines_getElem?, codeLines_getElem?, linePc, linePc, hlength, hline]
  rw [disassembleCode, disassembleCode, hlines]

/-! ### Files with the same program -/

/-- The loader takes the same PRG ROM from both files, or takes it twice from the second one if it
is a single page. -/
def SameProgram (f g : List U8) : Prop :=
  prgSlice g = prgSlice f ∨
    ((prgSlice f).length = prgRomPageSize ∧ prgSlice g = prgSlice f ++ prgSlice f)

lemma loaded_prgRom {f : List U8} (h : Accepted (some f)) :
    (loadCartridge (some f)).prgRom = prgSlice f ∧
      (loadCartridge (some f)).prgRomSize = (prgSlice f).length := by
  obtain ⟨bytes, hbytes, hvalid, hchr⟩ := h
  obtain rfl := Option.some.inj hbytes
  have hrom := (loadCartridge_holds hvalid hchr).2.2.1
  refine ⟨hrom, ?_⟩
  rw [← hrom]
  exact (Cartridge.prgRom_length _).symm

/-- A page and its repetition show the same through the window. -/
lemma cartRead_sameProgram {f g : List U8} (hf : Accepted (some f)) (hg : Accepted (some g))
    (h : SameProgram f g) (addr : U16) :
    cartRead (attached (some g)) addr = cartRead (attached (some f)) addr := by
  obtain ⟨hrom, hsize⟩ := loaded_prgRom hf
  obtain ⟨hrom', hsize'⟩ := loaded_prgRom hg
  have hf' : (attached (some f)).cartridge = loadCartridge (some f) := rfl
  have hg' : (attached (some g)).cartridge = loadCartridge (some g) := rfl
  rcases h with h | ⟨hpage, h⟩
  · unfold cartRead prgIndex
    rw [hf', hg', hrom, hrom', hsize, hsize', h]
  · by_cases hin : 0x8000 < addr.toNat ∧ addr.toNat < 0xFFFF
    · have hpage' : (prgSlice f).length = 0x4000 := hpage
      have hlength : (prgSlice f ++ prgSlice f).length ≠ 0x4000 := by
        rw [List.length_append]
        omega
      rw [cartRead, cartRead, prgIndex_eq_some hin.1 hin.2, prgIndex_eq_some hin.1 hin.2, hf', hg',
        hrom, hrom', hsize, hsize', h, if_neg hlength, if_pos hpage', Option.map_some,
        Option.map_some, List.getD_eq_getElem?_getD, List.getD_eq_getElem?_getD]
      congr 2
      rcases Nat.lt_or_ge (addr.toNat - 0x8000) 0x4000 with hlow | hhigh
      · rw [List.getElem?_append_left (by omega), Nat.mod_eq_of_lt hlow]
      · have hindex : addr.toNat - 0x8000 - (prgSlice f).length =
            (addr.toNat - 0x8000) % 0x4000 := by
          omega
        rw [List.getElem?_append_right (by omega), hindex]
    · rw [cartRead, cartRead, prgIndex_eq_none (by omega), prgIndex_eq_none (by omega)]
      rfl

lemma twins_attached {f g : List U8} (hf : Accepted (some f)) (hg : Accepted (some g))
    (h : SameProgram f g) : Twins (attached (some f)) (attached (some g)) := by
  refine ⟨machine_eq rfl (fun _ => rfl) (fun _ => rfl) fun a => ?_, rfl⟩
  change readMem (attached (some g)) a = readMem (attached (some f)) a
  rcases Nat.lt_or_ge 0x2000 a.toNat with hgt | hle
  · rw [readMem_of_gt hgt, readMem_of_gt hgt, cartRead_sameProgram hf hg h]
  · rw [readMem_of_le hle, readMem_of_le hle]
    rfl

/-- **The program alone counts.** Two images with the same PRG ROM, or one with a page and one with
this page twice, are the same to `main`: the listing, every line of the trace, whether and
when `run_cpu` returns, and the registers, flags, cycles and RAM that it leaves. No trainer, CHR
ROM, mapper or mirroring makes a difference. -/
theorem same_program_same_emulation {f g : List U8} (hf : Accepted (some f))
    (hg : Accepted (some g)) (h : SameProgram f g) :
    disassembleCode (attached (some g)) = disassembleCode (attached (some f)) ∧
      ∀ fuel, runCpuTrace fuel (mainBus (some g)) = runCpuTrace fuel (mainBus (some f)) ∧
        (runCpu fuel (mainBus (some g))).map (fun d => (d.cpu, d.cpuRam)) =
          (runCpu fuel (mainBus (some f))).map fun d => (d.cpu, d.cpuRam) := by
  have htwins := twins_attached hf hg h
  exact ⟨disassembleCode_congr htwins.readMem, fun fuel => (htwins.reset.jump 0xC000).run fuel⟩

/-- A file with this PRG ROM, in so many pages, with a byte for the mapper and a page of CHR ROM. -/
def programFile (pages flags7 : U8) (prg : List U8) : List U8 :=
  nesMagic ++ [pages, 1, 0, flags7] ++ List.replicate 8 0 ++
    (prg ++ List.replicate chrRomPageSize 0)

section ProgramFile

variable {pages : U8} {prg : List U8} (hprg : prg.length = pages.toNat * prgRomPageSize)
  (flags7 : U8)

lemma headerOf_programFile (pages flags7 : U8) (prg : List U8) :
    headerOf (programFile pages flags7 prg) = ⟨nesMagic, pages, 1, 0, flags7⟩ := rfl

lemma startPrgRom_programFile (pages flags7 : U8) (prg : List U8) :
    (headerOf (programFile pages flags7 prg)).startPrgRom = 16 := by
  simp [headerOf_programFile, Header.startPrgRom, F6.trainer, sizeofHeader]

include hprg

lemma accepted_programFile (h : 1 ≤ pages.toNat) :
    Accepted (some (programFile pages flags7 prg)) := by
  have hlength : (programFile pages flags7 prg).length = 16 + (prg.length + chrRomPageSize) := by
    simp only [programFile, List.length_append, List.length_replicate, List.length_cons,
      List.length_nil, nesMagic]
  have hchr : (headerOf (programFile pages flags7 prg)).chrRomSize = 1 * chrRomPageSize := rfl
  have hsize : (headerOf (programFile pages flags7 prg)).prgRomSize =
      pages.toNat * prgRomPageSize := rfl
  refine ⟨_, rfl, ⟨rfl, h, ?_⟩, Nat.le_refl 1⟩
  rw [startPrgRom_programFile, hsize, hchr, hlength, hprg, Nat.one_mul, Nat.add_assoc]

lemma prgSlice_programFile : prgSlice (programFile pages flags7 prg) = prg := by
  have hdrop : (programFile pages flags7 prg).drop 16 =
      prg ++ List.replicate chrRomPageSize 0 := rfl
  have hsize : (headerOf (programFile pages flags7 prg)).prgRomSize =
      pages.toNat * prgRomPageSize := rfl
  rw [prgSlice, startPrgRom_programFile, hsize, hdrop, List.take_left' hprg]

end ProgramFile

/-- So many pages of one byte, with a byte for the mapper, and a page of CHR ROM. -/
def pagesFile (pages : U8) (flags7 value : U8) : List U8 :=
  nesMagic ++ [pages, 1, 0, flags7] ++ List.replicate 8 0 ++
    (List.replicate (pages.toNat * prgRomPageSize) value ++ List.replicate chrRomPageSize 0)

lemma accepted_pagesFile {pages : U8} (h : 1 ≤ pages.toNat) (flags7 value : U8) :
    Accepted (some (pagesFile pages flags7 value)) :=
  accepted_programFile List.length_replicate flags7 h

lemma prgSlice_pagesFile (pages flags7 value : U8) :
    prgSlice (pagesFile pages flags7 value) =
      List.replicate (pages.toNat * prgRomPageSize) value :=
  prgSlice_programFile List.length_replicate flags7

/-- One page, and two pages of another mapper. -/
lemma sameProgram_pagesFile : SameProgram (pagesFile 1 0 0xEA) (pagesFile 2 0x0F 0xEA) := by
  refine Or.inr ⟨?_, ?_⟩
  · rw [prgSlice_pagesFile, List.length_replicate]
    rfl
  · rw [prgSlice_pagesFile, prgSlice_pagesFile, List.replicate_append_replicate]
    rfl

theorem pagesFile_same_emulation :
    disassembleCode (attached (some (pagesFile 2 0x0F 0xEA))) =
        disassembleCode (attached (some (pagesFile 1 0 0xEA))) ∧
      runCpuTrace 100 (mainBus (some (pagesFile 2 0x0F 0xEA))) =
        runCpuTrace 100 (mainBus (some (pagesFile 1 0 0xEA))) := by
  have h := same_program_same_emulation (accepted_pagesFile (by decide) 0 0xEA)
    (accepted_pagesFile (by decide) 0x0F 0xEA) sameProgram_pagesFile
  exact ⟨h.1, (h.2 100).1⟩

end NesEmulator
