import NesEmulator.ImageRuns
import NesEmulator.ListingDecoding

/-!
The listing as an image of the memory.

Every line shows the bytes of its instruction, and the instructions lie one behind the other. So
the byte columns of all lines, read from the top, are the memory; and two files that `main` lists
alike are emulated alike.
-/

namespace NesEmulator.Disassembler

open Lib.Sweep

/-- The bytes that a line shows; a blank column shows none. -/
def readLine (line : String) : List U8 :=
  [7, 10, 13].filterMap fun i => (parseHex (column line i 2)).map (BitVec.ofNat 8)

/-- The bytes of all lines, from the top. -/
def readListing (lines : List String) : List U8 := lines.flatMap readLine

section Lines

variable (bus : Bus) (pc : ℕ)

lemma lengthAt_cases : lengthAt bus pc = 1 ∨ lengthAt bus pc = 2 ∨ lengthAt bus pc = 3 := by
  have hle := operandBytes_le (getNextOpcode bus (address pc)).addressingMode
  rw [lengthAt, getNextOpcode_bytes]
  omega

/-- The byte columns of a line. -/
lemma codeLine_columns :
    column (codeLine bus pc).text 7 2 = byteText bus (0 < lengthAt bus pc) (pc + 0) ∧
      column (codeLine bus pc).text 10 2 = byteText bus (1 < lengthAt bus pc) (pc + 1) ∧
      column (codeLine bus pc).text 13 2 = byteText bus (2 < lengthAt bus pc) (pc + 2) := by
  have hline : (codeLine bus pc).text = codeText bus pc (getNextOpcode bus (address pc)) := rfl
  obtain ⟨-, -, hfirst, hsecond, hthird, -⟩ := codeText_column bus pc _ hline
  refine ⟨?_, hsecond, hthird⟩
  rw [hfirst, byteText, if_pos (lengthAt_pos bus pc), Nat.add_zero]

/-- **The bytes of a line** are those at its addresses. -/
lemma readLine_codeLine : readLine (codeLine bus pc).text =
    (List.range' pc (lengthAt bus pc)).map fun a => readMem bus (address a) := by
  obtain ⟨hfirst, hsecond, hthird⟩ := codeLine_columns bus pc
  have hread : ∀ {i k : ℕ},
      column (codeLine bus pc).text i 2 = byteText bus (k < lengthAt bus pc) (pc + k) →
      (parseHex (column (codeLine bus pc).text i 2)).map (BitVec.ofNat 8) =
        if k < lengthAt bus pc then some (readMem bus (address (pc + k))) else none := by
    intro i k hcolumn
    have hreads := byteText_reads bus (k < lengthAt bus pc) (pc + k)
    rw [hcolumn]
    split at hreads
    · next h => rw [hreads, if_pos h, Option.map_some, BitVec.ofNat_toNat, BitVec.setWidth_eq]
    · next h =>
      rw [hreads, if_neg h]
      rfl
  simp only [readLine, List.filterMap_cons, List.filterMap_nil, hread hfirst, hread hsecond,
    hread hthird]
  rcases lengthAt_cases bus pc with h | h | h <;> rw [h] <;> rfl

end Lines

/-- The listing, read from the top: memory up to its end and, if the last instruction goes around
the end, some bytes of it again. -/
lemma readListing_eq (bus : Bus) : ∃ n, 0x10000 < n ∧
    readListing (disassembleCode bus) =
      (List.range n).map fun a => readMem bus (address a) := by
  have hlines := @Sweeps.flatMap Line U8 _ _ _ _ (codeLines_sweeps bus) (lengthAt_pos bus)
    (fun a => readMem bus (address a)) (fun l => readLine l.text) (readLine_codeLine bus) 0
    (Nat.zero_le _)
  obtain ⟨n, hn, hread⟩ := hlines
  rw [Nat.zero_add] at hn
  refine ⟨n, hn, ?_⟩
  rw [readListing, disassembleCode, List.flatMap_map, hread, List.range_eq_range']

lemma take_readListing (bus : Bus) : (readListing (disassembleCode bus)).take 0x10000 =
    (List.range 0x10000).map fun a => readMem bus (BitVec.ofNat 16 a) := by
  obtain ⟨n, hn, h⟩ := readListing_eq bus
  rw [h, ← List.map_take, List.take_range, Nat.min_eq_left hn.le]
  rfl

lemma readMem_of_listing {b c : Bus} (h : disassembleCode c = disassembleCode b) (a : U16) :
    readMem c a = readMem b a := by
  have himage := take_readListing c
  rw [h, take_readListing b, List.map_inj_left] at himage
  have ha := himage a.toNat (List.mem_range.mpr a.isLt)
  rw [BitVec.ofNat_toNat, BitVec.setWidth_eq] at ha
  exact ha.symm

/-- **The listing can be read back**: its first 0x10000 bytes are the memory, address by address;
so the listings of two buses are the same exactly if every address reads the same on both. -/
theorem listing_read_back (bus : Bus) :
    (readListing (disassembleCode bus)).take 0x10000 =
        ((List.range 0x10000).map fun a => readMem bus (BitVec.ofNat 16 a)) ∧
      ∀ c, disassembleCode c = disassembleCode bus ↔ ∀ a, readMem c a = readMem bus a := by
  refine ⟨take_readListing bus, fun c => ⟨readMem_of_listing, fun h => ?_⟩⟩
  exact disassembleCode_congr (funext h)

/-- **The listing says it all.** Two files that `main` lists alike, it also runs alike: every line
of the trace is the same, whether and when `run_cpu` returns, and the registers, flags, cycles
and RAM that it leaves. (The source lists no file that is missing or not accepted.) -/
theorem same_listing_same_emulation {f g : Option (List U8)}
    (h : disassembleCode (attached g) = disassembleCode (attached f)) (fuel : ℕ) :
    runCpuTrace fuel (mainBus g) = runCpuTrace fuel (mainBus f) ∧
      (runCpu fuel (mainBus g)).map (fun d => (d.cpu, d.cpuRam)) =
        (runCpu fuel (mainBus f)).map fun d => (d.cpu, d.cpuRam) := by
  have hread := readMem_of_listing h
  have htwins : Twins (attached f) (attached g) :=
    ⟨machine_eq rfl (fun _ => rfl) (fun _ => rfl) hread, rfl⟩
  exact (htwins.reset.jump 0xC000).run fuel

/-- A page of PRG ROM is listed as this page twice. -/
theorem pagesFile_same_listing :
    runCpuTrace 100 (mainBus (some (pagesFile 2 0x0F 0xEA))) =
      runCpuTrace 100 (mainBus (some (pagesFile 1 0 0xEA))) := by
  have htwins := twins_attached (accepted_pagesFile (by decide) 0 0xEA)
    (accepted_pagesFile (by decide) 0x0F 0xEA) sameProgram_pagesFile
  exact (same_listing_same_emulation (disassembleCode_congr htwins.readMem) 100).1

/-! ### What it shows of a file -/

/-- The byte of the PRG ROM, as the loader takes it from the file, that belongs `i` bytes behind the
start of the window. -/
def windowByte (file : List U8) (i : ℕ) : U8 :=
  (prgSlice file).getD (if (prgSlice file).length = prgRomPageSize then i % prgRomPageSize else i) 0

/-- The addresses strictly inside the window. -/
lemma exists_window {a : U16} (h : 0x8000 < a.toNat ∧ a.toNat < 0xFFFF) :
    ∃ i, a = BitVec.ofNat 16 (0x8000 + i) ∧ 0 < i ∧ i < 0x7FFF := by
  refine ⟨a.toNat - 0x8000, ?_, by omega, by omega⟩
  rw [Nat.add_sub_cancel' (by omega), BitVec.ofNat_toNat, BitVec.setWidth_eq]

/-- Strictly inside the window the processor sees the PRG ROM. -/
lemma readMem_attached {f : List U8} (hf : Accepted (some f)) {i : ℕ} (hpos : 0 < i)
    (hlt : i < 0x7FFF) :
    readMem (attached (some f)) (BitVec.ofNat 16 (0x8000 + i)) = windowByte f i := by
  obtain ⟨hrom, hsize⟩ := loaded_prgRom hf
  have haddress : (BitVec.ofNat 16 (0x8000 + i)).toNat = 0x8000 + i := by
    rw [BitVec.toNat_ofNat]
    omega
  have hcart : (attached (some f)).cartridge = loadCartridge (some f) := rfl
  have hindex := @prgIndex_eq_some (attached (some f)) (BitVec.ofNat 16 (0x8000 + i)) (by omega)
    (by omega)
  rw [haddress, Nat.add_sub_cancel_left, hcart, hsize] at hindex
  rw [readMem_of_gt (by omega), cartRead, hindex, hcart, hrom]
  rfl

/-- And nowhere else. -/
lemma readMem_attached_outside {f g : List U8} {a : U16}
    (h : ¬ (0x8000 < a.toNat ∧ a.toNat < 0xFFFF)) :
    readMem (attached (some g)) a = readMem (attached (some f)) a := by
  have hlt := a.isLt
  rcases Nat.lt_or_ge 0x2000 a.toNat with hgt | hle
  · rw [readMem_of_gt hgt, readMem_of_gt hgt, cartRead, cartRead, prgIndex_eq_none (by omega),
      prgIndex_eq_none (by omega)]
    rfl
  · rw [readMem_of_le hle, readMem_of_le hle]
    rfl

/-- **What the listing shows of a file**: two accepted images are listed alike exactly if they have
the same bytes in the window, without its first and its last address. -/
theorem same_listing_iff {f g : List U8} (hf : Accepted (some f)) (hg : Accepted (some g)) :
    disassembleCode (attached (some g)) = disassembleCode (attached (some f)) ↔
      ∀ i, 0 < i → i < 0x7FFF → windowByte g i = windowByte f i := by
  constructor
  · intro h i hpos hlt
    rw [← readMem_attached hf hpos hlt, ← readMem_attached hg hpos hlt]
    exact readMem_of_listing h _
  · intro h
    refine disassembleCode_congr (funext fun a => ?_)
    by_cases hin : 0x8000 < a.toNat ∧ a.toNat < 0xFFFF
    · obtain ⟨i, rfl, hpos, hlt⟩ := exists_window hin
      rw [readMem_attached hf hpos hlt, readMem_attached hg hpos hlt]
      exact h i hpos hlt
    · exact readMem_attached_outside hin

/-- The pages of one byte. -/
lemma windowByte_pagesFile {pages : U8} (hpages : 1 ≤ pages.toNat) (value : U8) {i : ℕ}
    (hlt : i < 0x7FFF) : windowByte (pagesFile pages 0 value) i = value := by
  have hbyte : ∀ {n k : ℕ}, k < n → (List.replicate n value).getD k 0 = value := by
    intro n k hk
    rw [List.getD_eq_getElem?_getD, List.getElem?_replicate_of_lt hk]
    rfl
  rw [windowByte, prgSlice_pagesFile, List.length_replicate, prgRomPageSize]
  refine hbyte ?_
  split <;> omega

/-- In three pages of one byte as in one. -/
theorem pagesFile_same_window :
    disassembleCode (attached (some (pagesFile 3 0 0xEA))) =
      disassembleCode (attached (some (pagesFile 1 0 0xEA))) := by
  refine (same_listing_iff (accepted_pagesFile (by decide) 0 0xEA)
    (accepted_pagesFile (by decide) 0 0xEA)).mpr fun i hpos hlt => ?_
  rw [windowByte_pagesFile (by decide) 0xEA hlt, windowByte_pagesFile (by decide) 0xEA hlt]

lemma getElem?_readListing (bus : Bus) {a : ℕ} (ha : a < 0x10000) :
    (readListing (disassembleCode bus))[a]? = some (readMem bus (BitVec.ofNat 16 a)) := by
  obtain ⟨n, hn, h⟩ := readListing_eq bus
  rw [h, List.getElem?_map, List.getElem?_range (by omega)]
  rfl

/-- The page that a listing shows: its last byte is in the lower half of the window, and what is in
front of it in the upper half. -/
def readPage (lines : List String) : List U8 :=
  ((readListing lines).drop 0xC000).take 0x3FFF ++ ((readListing lines).drop 0xBFFF).take 1

/-- **A page can be read back** from the listing that `main` makes of an image from which the loader
takes one page. -/
theorem page_read_back {f : List U8} (hf : Accepted (some f))
    (hpage : (prgSlice f).length = prgRomPageSize) :
    readPage (disassembleCode (attached (some f))) = prgSlice f := by
  have hlength : (prgSlice f).length = 0x4000 := hpage
  have hbyte : ∀ i, 0 < i → i < 0x7FFF →
      (readListing (disassembleCode (attached (some f))))[0x8000 + i]? =
        (prgSlice f)[i % 0x4000]? := by
    intro i hpos hlt
    have hmod : i % 0x4000 < (prgSlice f).length := by omega
    rw [getElem?_readListing _ (by omega), readMem_attached hf hpos hlt, windowByte, if_pos hpage,
      prgRomPageSize, List.getD_eq_getElem?_getD, List.getElem?_eq_getElem hmod]
    rfl
  have hfront : (((readListing (disassembleCode (attached (some f)))).drop 0xC000).take
      0x3FFF).length = 0x3FFF := by
    obtain ⟨n, hn, h⟩ := readListing_eq (attached (some f))
    rw [List.length_take, List.length_drop, h, List.length_map, List.length_range]
    omega
  apply List.ext_getElem?
  intro j
  rcases Nat.lt_trichotomy j 0x3FFF with hj | rfl | hj
  · have haddress : 0xC000 + j = 0x8000 + (0x4000 + j) := by omega
    have hindex : (0x4000 + j) % 0x4000 = j := by omega
    rw [readPage, List.getElem?_append_left (by omega), List.getElem?_take_of_lt hj,
      List.getElem?_drop, haddress, hbyte _ (by omega) (by omega), hindex]
  · rw [readPage, List.getElem?_append_right (by omega), hfront, Nat.sub_self,
      List.getElem?_take_of_lt (by omega), List.getElem?_drop]
    exact hbyte 0x3FFF (by decide) (by decide)
  · have hshort : (readPage (disassembleCode (attached (some f)))).length ≤ 0x4000 := by
      rw [readPage, List.length_append, hfront, List.length_take]
      omega
    rw [List.getElem?_eq_none (by omega), List.getElem?_eq_none (by omega)]

/-- A page that counts its bytes. -/
def countingPage : List U8 := (List.range prgRomPageSize).map (BitVec.ofNat 8)

theorem countingPage_read_back :
    readPage (disassembleCode (attached (some (programFile 1 0 countingPage)))) =
      countingPage := by
  have hlength : countingPage.length = (1 : U8).toNat * prgRomPageSize := by
    rw [countingPage, List.length_map, List.length_range]
    rfl
  have hslice := prgSlice_programFile hlength 0
  have hpage : (prgSlice (programFile 1 0 countingPage)).length = prgRomPageSize :=
    (congrArg List.length hslice).trans hlength
  have hread := page_read_back (accepted_programFile hlength 0 (by decide)) hpage
  rwa [hslice] at hread

end NesEmulator.Disassembler
