import NesEmulator.ListingAgreement
import NesEmulator.ListingImage
import NesEmulator.Locality
import NesEmulator.Lib.Text

/-!
The text of the trace.

Every line has its columns at the same places, however long the operand is, and every number is
as wide as its column. So a line can be read back, and with it the state of the CPU.
-/

namespace NesEmulator.Disassembler

open Lib.Sweep Lib.Text NumberMachine

/-! ### Printing -/

/-- What `printf` makes of a piece. -/
def Piece.chars : Piece → List Char
  | .text s => s.toList
  | .hex width value => (padded 16 width value).map hexDigit
  | .dec value => (numeral 10 value).map hexDigit

def printed (pieces : List Piece) : List Char := pieces.flatMap Piece.chars

/-- The text that `run_cpu` prints in its first `fuel` turns. -/
def runCpuText (fuel : ℕ) (bus : Bus) : List Char := (runCpuTrace fuel bus).flatMap printed

lemma printed_append (ps qs : List Piece) : printed (ps ++ qs) = printed ps ++ printed qs :=
  List.flatMap_append

lemma printed_spaces (n : ℕ) : printed (List.replicate n (.text " ")) = List.replicate n ' ' := by
  induction n with
  | zero => rfl
  | succ n ih =>
    rw [List.replicate_succ, List.replicate_succ, ← ih]
    rfl

/-! ### Widths -/

def Piece.width : Piece → ℕ
  | .text s => s.toList.length
  | .hex width _ => width
  | .dec value => (numeral 10 value).length

/-- The number is as wide as its column. -/
def Piece.Fits : Piece → Prop
  | .hex width value => 0 < width ∧ value < 16 ^ width
  | _ => True

lemma printed_length {pieces : List Piece} (h : ∀ p ∈ pieces, p.Fits) :
    (printed pieces).length = (pieces.map Piece.width).sum := by
  have hwidth : ∀ p : Piece, p.Fits → p.chars.length = p.width := by
    rintro (s | ⟨w, v⟩ | v) hp
    · rfl
    · exact (List.length_map _).trans (padded_length (by decide) hp.1 hp.2)
    · exact List.length_map _
  rw [printed, List.length_flatMap]
  exact congrArg List.sum (List.map_congr_left fun p hp => hwidth p (h p hp))

lemma fits_text (s : String) : (Piece.text s).Fits := trivial
lemma fits_byte (v : U8) : (Piece.hex 2 v.toNat).Fits := ⟨by decide, v.isLt⟩
lemma fits_word (v : U16) : (Piece.hex 4 v.toNat).Fits := ⟨by decide, v.isLt⟩
lemma fits_low (v : ℕ) : (Piece.hex 2 (v &&& 0xFF)).Fits :=
  ⟨by decide, Nat.lt_of_le_of_lt Nat.and_le_right (by decide)⟩

section Line

variable (bus : Bus)

lemma operand_fits (opcode : OpCode) (addr : U16) :
    ∀ p ∈ (operandColumn bus opcode addr).1, p.Fits := by
  have hlow : (Piece.hex 2 (addr &&& 0x00FF).toNat).Fits := by
    rw [BitVec.toNat_and]
    exact fits_low _
  have htarget : ∀ v, (Piece.hex 4 (v &&& 0xFFFF)).Fits := fun v =>
    ⟨by decide, Nat.lt_of_le_of_lt Nat.and_le_right (by decide)⟩
  unfold operandColumn
  cases opcode.addressingMode <;>
    simp only [List.forall_mem_cons, List.not_mem_nil, and_true, true_and,
      false_imp_iff, implies_true, fits_text]
  case absolute => exact fits_word _
  case absoluteX | absoluteY | indirect => exact ⟨fits_word _, fits_word _⟩
  case immediate => exact fits_byte _
  case indirectX => exact ⟨fits_byte _, fits_low _, fits_word _⟩
  case indirectY => exact ⟨fits_byte _, fits_word _, fits_word _⟩
  case relative => exact htarget _
  case zeroPage => exact hlow
  case zeroPageX | zeroPageY => exact ⟨fits_byte _, hlow⟩

lemma operand_width (opcode : OpCode) (addr : U16) :
    (printed (operandColumn bus opcode addr).1).length = (operandColumn bus opcode addr).2 := by
  rw [printed_length (operand_fits bus opcode addr)]
  unfold operandColumn
  cases opcode.addressingMode <;> rfl

lemma memory_width (opcode : OpCode) (addr : U16) :
    (printed (memoryColumn bus opcode addr).1).length = (memoryColumn bus opcode addr).2 := by
  rw [printed_length]
  · unfold memoryColumn
    split
    · split <;> rfl
    · rfl
  · unfold memoryColumn
    split
    · split
      · simp only [List.forall_mem_cons, List.not_mem_nil, false_imp_iff, implies_true, and_true]
        exact ⟨trivial, fits_byte _⟩
      · simp
    · simp

lemma columns_fit (opcode : OpCode) (addr : U16) :
    (operandColumn bus opcode addr).2 + (memoryColumn bus opcode addr).2 ≤ 28 := by
  have hoperand : (operandColumn bus opcode addr).2 ≤ 21 := by
    unfold operandColumn
    cases opcode.addressingMode <;> dsimp only <;> omega
  have hmemory : (memoryColumn bus opcode addr).2 ≤ 5 := by
    unfold memoryColumn
    split
    · split <;> dsimp only <;> omega
    · dsimp only
      omega
  omega

/-- One of the byte columns. -/
def shownByte (i : ℕ) : List Char :=
  if i < (fetched bus).bytes
  then (Piece.hex 2 (readMem bus (bus.cpu.programCounter + BitVec.ofNat 16 i)).toNat).chars
  else [' ', ' ']

lemma bytes_cases :
    (fetched bus).bytes = 1 ∨ (fetched bus).bytes = 2 ∨ (fetched bus).bytes = 3 := by
  rw [fetched_bytes rfl]
  cases (fetched bus).addressingMode <;> decide

lemma byteColumn_text : printed (byteColumn bus (fetched bus)) =
    shownByte bus 0 ++ ([' '] ++ (shownByte bus 1 ++ ([' '] ++ shownByte bus 2))) := by
  have hpc : bus.cpu.programCounter + BitVec.ofNat 16 0 = bus.cpu.programCounter :=
    BitVec.add_zero _
  unfold byteColumn shownByte
  rw [hpc]
  rcases bytes_cases bus with h | h | h <;> rw [h] <;> simp [printed, Piece.chars]

/-- The operand, and what is behind it up to the registers. -/
def operandPart : List Char :=
  let addr := getOperandAddress bus (fetched bus)
  let (operand, operandLen) := operandColumn bus (fetched bus) addr
  let (memory, memoryLen) := memoryColumn bus (fetched bus) addr
  printed (operand ++ memory) ++ List.replicate (28 - (operandLen + memoryLen)) ' '

lemma operandPart_length : (operandPart bus).length = 28 := by
  unfold operandPart
  dsimp only
  have hfit := columns_fit bus (fetched bus) (getOperandAddress bus (fetched bus))
  rw [List.length_append, printed_append, List.length_append, operand_width, memory_width,
    List.length_replicate]
  omega

/-- Behind the bytes there is a mark for the opcodes that are not official. -/
def mark : List Char :=
  if opcodeIsIllegal (readMem bus bus.cpu.programCounter) then ['*'] else [' ']

lemma mark_length : (mark bus).length = 1 := by
  unfold mark
  split <;> rfl

/-- A line, without the end of line. -/
def lineText : List Char :=
  (Piece.hex 4 bus.cpu.programCounter.toNat).chars ++ ([' ', ' '] ++ (shownByte bus 0 ++ ([' '] ++
    (shownByte bus 1 ++ ([' '] ++ (shownByte bus 2 ++ ([' '] ++ (mark bus ++
      ((getInstructionMnemonic (fetched bus).instruction).toList ++ ([' '] ++
        (operandPart bus ++ printed (registerColumn bus.cpu))))))))))))

lemma printed_front : printed (frontColumns bus (fetched bus)) =
    (Piece.hex 4 bus.cpu.programCounter.toNat).chars ++ ([' ', ' '] ++ (shownByte bus 0 ++
      ([' '] ++ (shownByte bus 1 ++ ([' '] ++ (shownByte bus 2 ++ ([' '] ++ (mark bus ++
        ((getInstructionMnemonic (fetched bus).instruction).toList ++ [' ']))))))))) := by
  have hmark : (if opcodeIsIllegal (readMem bus bus.cpu.programCounter)
      then "*" else " ").toList = mark bus := by
    unfold mark
    split <;> rfl
  have hspaces : " ".toList = [' '] ∧ "  ".toList = [' ', ' '] := by decide
  unfold frontColumns
  dsimp only
  simp only [printed_append, byteColumn_text, List.append_assoc]
  simp only [printed, Piece.chars, List.flatMap_cons, List.flatMap_nil, List.append_nil,
    List.append_assoc, hmark, hspaces]

lemma printed_traceLine : printed (traceLine bus) = lineText bus ++ ['\n'] := by
  have hend : printed [.text "\n"] = ['\n'] := by decide
  unfold traceLine disassembleCpu lineText operandPart
  dsimp only
  simp only [printed_append, printed_spaces, hend, printed_front, List.append_assoc]

lemma hex_length {w v : ℕ} (h : (Piece.hex w v).Fits) : (Piece.hex w v).chars.length = w :=
  (List.length_map _).trans (padded_length (by decide) h.1 h.2)

lemma shownByte_length (i : ℕ) : (shownByte bus i).length = 2 := by
  unfold shownByte
  split
  · exact hex_length (fits_byte _)
  · rfl

end Line

/-! ### Reading -/

/-- The value of a column of hexadecimal digits. -/
def readHex (i n : ℕ) (line : List Char) : Option ℕ := parseHex (field i n line)

/-- The bytes of the instruction in a line. -/
def readBytes (line : List Char) : List U8 :=
  [6, 9, 12].filterMap fun i => (readHex i 2 line).map (BitVec.ofNat 8)

/-- The state of the CPU in a line. -/
def readCpu (line : List Char) : Option CPU := do
  let pc ← readHex 0 4 line
  let a ← readHex 50 2 line
  let x ← readHex 55 2 line
  let y ← readHex 60 2 line
  let p ← readHex 65 2 line
  let s ← readHex 71 2 line
  let cycles ← ((line.drop 78).mapM hexVal).map (value 10)
  pure
    { programCounter := BitVec.ofNat 16 pc
      stackPointer := BitVec.ofNat 8 s
      accumulator := BitVec.ofNat 8 a
      x := BitVec.ofNat 8 x
      y := BitVec.ofNat 8 y
      cycles := BitVec.ofNat 64 cycles
      status := BitVec.ofNat 8 p }

lemma parseHex_hex {w v : ℕ} : parseHex (Piece.hex w v).chars = some v := by
  rw [Piece.chars, parseHex, mapM_hexVal (padded_lt (by decide)), Option.map_some]
  exact congrArg some value_padded

lemma parse_dec {v : ℕ} : ((Piece.dec v).chars.mapM hexVal).map (value 10) = some v := by
  have hlt : ∀ d ∈ numeral 10 v, d < 16 := fun d hd =>
    (numeral_lt (by decide) d hd).trans (by decide)
  rw [Piece.chars, mapM_hexVal hlt, Option.map_some, value_numeral]

section Read

variable (bus : Bus)

/-- The columns of a line. -/
lemma lineText_fields :
    field 0 4 (lineText bus) = (Piece.hex 4 bus.cpu.programCounter.toNat).chars ∧
      field 6 2 (lineText bus) = shownByte bus 0 ∧ field 9 2 (lineText bus) = shownByte bus 1 ∧
        field 12 2 (lineText bus) = shownByte bus 2 ∧
          field 16 3 (lineText bus) =
              (getInstructionMnemonic (fetched bus).instruction).toList ∧
            (lineText bus).drop 48 = printed (registerColumn bus.cpu) := by
  have hline : (lineText bus).drop 0 = lineText bus := rfl
  unfold lineText at hline ⊢
  obtain ⟨hpc, h⟩ := field_eq hline (hex_length (fits_word _))
  obtain ⟨-, h⟩ := field_eq h rfl
  obtain ⟨hfirst, h⟩ := field_eq h (shownByte_length bus 0)
  obtain ⟨-, h⟩ := field_eq h rfl
  obtain ⟨hsecond, h⟩ := field_eq h (shownByte_length bus 1)
  obtain ⟨-, h⟩ := field_eq h rfl
  obtain ⟨hthird, h⟩ := field_eq h (shownByte_length bus 2)
  obtain ⟨-, h⟩ := field_eq h rfl
  obtain ⟨-, h⟩ := field_eq h (mark_length bus)
  obtain ⟨hmnemonic, h⟩ := field_eq h (mnemonic_length (fetched bus).instruction)
  obtain ⟨-, h⟩ := field_eq h rfl
  obtain ⟨-, h⟩ := field_eq h (operandPart_length bus)
  exact ⟨hpc, hfirst, hsecond, hthird, hmnemonic, h⟩

lemma registerColumn_text (cpu : CPU) : printed (registerColumn cpu) =
    "A:".toList ++ ((Piece.hex 2 cpu.accumulator.toNat).chars ++ (" X:".toList ++
      ((Piece.hex 2 cpu.x.toNat).chars ++ (" Y:".toList ++ ((Piece.hex 2 cpu.y.toNat).chars ++
        (" P:".toList ++ ((Piece.hex 2 cpu.status.toNat).chars ++ (" SP:".toList ++
          ((Piece.hex 2 cpu.stackPointer.toNat).chars ++ (" CYC:".toList ++
            (Piece.dec cpu.cycles.toNat).chars)))))))))) := by
  simp only [printed, registerColumn, List.flatMap_cons, List.flatMap_nil, List.append_nil]
  rfl

lemma ofNat_toNat_eq {w : ℕ} (v : BitVec w) : BitVec.ofNat w v.toNat = v := by
  rw [BitVec.ofNat_toNat, BitVec.setWidth_eq]

/-- **The state of the CPU** is in the line. -/
theorem readCpu_lineText : readCpu (lineText bus) = some bus.cpu := by
  obtain ⟨hpc, -, -, -, -, h⟩ := lineText_fields bus
  rw [registerColumn_text] at h
  obtain ⟨-, h⟩ := field_eq (n := 2) h rfl
  obtain ⟨ha, h⟩ := field_eq h (hex_length (fits_byte _))
  obtain ⟨-, h⟩ := field_eq (n := 3) h rfl
  obtain ⟨hx, h⟩ := field_eq h (hex_length (fits_byte _))
  obtain ⟨-, h⟩ := field_eq (n := 3) h rfl
  obtain ⟨hy, h⟩ := field_eq h (hex_length (fits_byte _))
  obtain ⟨-, h⟩ := field_eq (n := 3) h rfl
  obtain ⟨hp, h⟩ := field_eq h (hex_length (fits_byte _))
  obtain ⟨-, h⟩ := field_eq (n := 4) h rfl
  obtain ⟨hs, h⟩ := field_eq h (hex_length (fits_byte _))
  obtain ⟨-, h⟩ := field_eq (n := 5) h rfl
  have hread : ∀ {i n v : ℕ}, field i n (lineText bus) = (Piece.hex n v).chars →
      readHex i n (lineText bus) = some v := fun hfield =>
    (congrArg parseHex hfield).trans parseHex_hex
  have ha : readHex 50 2 (lineText bus) = _ := hread ha
  have hx : readHex 55 2 (lineText bus) = _ := hread hx
  have hy : readHex 60 2 (lineText bus) = _ := hread hy
  have hp : readHex 65 2 (lineText bus) = _ := hread hp
  have hs : readHex 71 2 (lineText bus) = _ := hread hs
  have hcycles : (((lineText bus).drop 78).mapM hexVal).map (value 10) =
      some bus.cpu.cycles.toNat :=
    (congrArg (fun cs : List Char => (cs.mapM hexVal).map (value 10)) h).trans parse_dec
  rw [readCpu, hread hpc, ha, hx, hy, hp, hs, hcycles]
  simp only [Option.bind_eq_bind, Option.bind_some, ofNat_toNat_eq]
  rfl

/-- The bytes of the instruction at the program counter. -/
def instructionBytes : List U8 :=
  (List.range (fetched bus).bytes).map fun i =>
    readMem bus (bus.cpu.programCounter + BitVec.ofNat 16 i)

/-- **The instruction** is in the line. -/
theorem readBytes_lineText : readBytes (lineText bus) = instructionBytes bus := by
  obtain ⟨-, hfirst, hsecond, hthird, -, -⟩ := lineText_fields bus
  have hread : ∀ {p i : ℕ}, field p 2 (lineText bus) = shownByte bus i →
      (readHex p 2 (lineText bus)).map (BitVec.ofNat 8) = if i < (fetched bus).bytes
        then some (readMem bus (bus.cpu.programCounter + BitVec.ofNat 16 i)) else none := by
    intro p i hfield
    rw [readHex, hfield, shownByte]
    split
    · rw [parseHex_hex, Option.map_some, ofNat_toNat_eq]
    · rfl
  simp only [readBytes, instructionBytes, List.filterMap_cons, List.filterMap_nil, hread hfirst,
    hread hsecond, hread hthird]
  rcases bytes_cases bus with h | h | h <;> rw [h] <;> rfl

/-! ### Lines -/

lemma hexDigit_ne {r : ℕ} (h : r < 16) : hexDigit r ≠ '\n' := by
  revert r
  decide

/-- A text without an end of line, or a number. -/
def Piece.plain : Piece → Bool
  | .text s => !s.toList.contains '\n'
  | _ => true

lemma newline_digits {ds : List ℕ} (h : ∀ d ∈ ds, d < 16) : '\n' ∉ ds.map hexDigit := by
  intro hmem
  obtain ⟨d, hd, heq⟩ := List.mem_map.mp hmem
  exact hexDigit_ne (h d hd) heq

lemma newline_chars {p : Piece} (h : p.plain = true) : '\n' ∉ p.chars := by
  rcases p with s | ⟨w, v⟩ | v
  · simpa [Piece.plain, Piece.chars] using h
  · exact newline_digits (padded_lt (by decide))
  · exact newline_digits fun d hd => (numeral_lt (by decide) d hd).trans (by decide)

lemma newline_printed {pieces : List Piece} (h : pieces.all Piece.plain = true) :
    '\n' ∉ printed pieces := by
  intro hmem
  obtain ⟨p, hp, hchar⟩ := List.mem_flatMap.mp hmem
  exact newline_chars (List.all_eq_true.mp h p hp) hchar

lemma newline_operandPart : '\n' ∉ operandPart bus := by
  have hoperand : ∀ addr, (operandColumn bus (fetched bus) addr).1.all Piece.plain = true := by
    intro addr
    unfold operandColumn
    cases (fetched bus).addressingMode <;> rfl
  have hmemory : ∀ addr, (memoryColumn bus (fetched bus) addr).1.all Piece.plain = true := by
    intro addr
    unfold memoryColumn
    split
    · split <;> rfl
    · rfl
  intro h
  unfold operandPart at h
  dsimp only at h
  rcases List.mem_append.mp h with h | h
  · refine newline_printed ?_ h
    rw [List.all_append, hoperand, hmemory]
    rfl
  · exact absurd (List.mem_replicate.mp h).2 (by decide)

lemma newline_mnemonic (i : Instruction) : '\n' ∉ (getInstructionMnemonic i).toList := by
  cases i <;> decide

lemma newline_shownByte (i : ℕ) : '\n' ∉ shownByte bus i := by
  unfold shownByte
  split
  · exact newline_chars rfl
  · decide

/-- A line has no end of line in it. -/
lemma newline_lineText : '\n' ∉ lineText bus := by
  have hmark : '\n' ∉ mark bus := by
    unfold mark
    split <;> decide
  unfold lineText
  simp only [List.mem_append, not_or]
  exact ⟨newline_chars rfl, by decide, newline_shownByte bus 0, by decide,
    newline_shownByte bus 1, by decide, newline_shownByte bus 2, by decide, hmark,
    newline_mnemonic _, by decide, newline_operandPart bus, newline_printed rfl⟩

end Read

/-- The buses before each turn of a call of `run_cpu`, so many at most. -/
def runCpuStates : ℕ → Bus → List Bus
  | 0, _ => []
  | fuel + 1, bus =>
    bus :: if (fetched bus).instruction = .brk then []
      else runCpuStates fuel (runCpuIteration bus)

lemma runCpuTrace_eq (fuel : ℕ) (bus : Bus) :
    runCpuTrace fuel bus = (runCpuStates fuel bus).map traceLine := by
  induction fuel generalizing bus with
  | zero => rfl
  | succ fuel ih =>
    rw [runCpuTrace, runCpuStates, List.map_cons, ih]
    split <;> rfl

lemma runCpuText_eq (fuel : ℕ) (bus : Bus) :
    runCpuText fuel bus = (runCpuStates fuel bus).flatMap fun b => lineText b ++ ['\n'] := by
  rw [runCpuText, runCpuTrace_eq, List.flatMap_map]
  exact congrArg (List.flatMap · _) (funext printed_traceLine)

lemma splitLines_runCpuText (fuel : ℕ) (bus : Bus) :
    splitLines (runCpuText fuel bus) = (runCpuStates fuel bus).map lineText := by
  rw [runCpuText_eq, splitLines_flatMap _ fun b _ => newline_lineText b]

/-- **The trace can be read back.** From the text that a call of `run_cpu` prints, cut at its ends
of line, the bytes of every instruction that is executed and the state of the CPU before it can
be read, cycles included; so two calls that print the same go through the same states. -/
theorem trace_read_back (fuel : ℕ) (bus : Bus) :
    (splitLines (runCpuText fuel bus)).map (fun line => (readBytes line, readCpu line)) =
        (runCpuStates fuel bus).map (fun b => (instructionBytes b, some b.cpu)) ∧
      ∀ c, runCpuText fuel c = runCpuText fuel bus →
        (runCpuStates fuel c).map Bus.cpu = (runCpuStates fuel bus).map Bus.cpu := by
  refine ⟨?_, fun c hc => ?_⟩
  · rw [splitLines_runCpuText, List.map_map]
    refine List.map_congr_left fun b _ => ?_
    exact congrArg₂ Prod.mk (readBytes_lineText b) (readCpu_lineText b)
  · have hread : ∀ b, (splitLines (runCpuText fuel b)).map readCpu =
        ((runCpuStates fuel b).map Bus.cpu).map some := by
      intro b
      rw [splitLines_runCpuText, List.map_map, List.map_map]
      exact List.map_congr_left fun b _ => readCpu_lineText b
    have hsome := hread c
    rw [hc, hread bus] at hsome
    exact List.map_injective_iff.mpr (Option.some_injective CPU) hsome.symm

/-- A file with a page of PRG ROM prints the same as one with this page twice. -/
theorem pagesFile_read_back :
    (runCpuStates 100 (mainBus (some (pagesFile 2 0x0F 0xEA)))).map Bus.cpu =
      (runCpuStates 100 (mainBus (some (pagesFile 1 0 0xEA)))).map Bus.cpu := by
  have htwins := twins_attached (accepted_pagesFile (by decide) 0 0xEA)
    (accepted_pagesFile (by decide) 0x0F 0xEA) sameProgram_pagesFile
  have htrace := ((htwins.reset.jump 0xC000).run 100).1
  exact (trace_read_back 100 _).2 _ (congrArg (List.flatMap printed) htrace)

/-! ### Against the listing -/

/-- The lines of the listing and of the trace show the same address, bytes and mnemonic. -/
structure SameCode (line : String) (text : List Char) : Prop where
  address : field 0 4 text = column line 0 4
  first : field 6 2 text = column line 7 2
  second : field 9 2 text = column line 10 2
  third : field 12 2 text = column line 13 2
  mnemonic : field 16 3 text = column line 18 3

/-- Both formats of a number are the same where it fits. -/
lemma hex_decToHex {w v : ℕ} (h : (Piece.hex w v).Fits) :
    (Piece.hex w v).chars = (decToHex v w).toList := by
  have hhex : IsHex (String.ofList (Piece.hex w v).chars) w v := by
    rw [IsHex, String.toList_ofList]
    exact ⟨hex_length h, parseHex_hex⟩
  rw [← (isHex_iff h.2).mp hhex, String.toList_ofList]

lemma column_mnemonic (bus : Bus) (pc : ℕ) (opcode : OpCode) :
    column (codeText bus pc opcode) 18 3 = (getInstructionMnemonic opcode.instruction).toList := by
  have hline := codeText_columns bus pc opcode
  obtain ⟨-, h⟩ := column_eq (i := 0) hline (addressText_isHex pc).1
  obtain ⟨-, h⟩ := column_eq h rfl
  obtain ⟨-, h⟩ := column_eq h (memText_isHex bus pc).1
  obtain ⟨-, h⟩ := column_eq h rfl
  obtain ⟨-, h⟩ := column_eq h (byteText_length bus _ _)
  obtain ⟨-, h⟩ := column_eq h rfl
  obtain ⟨-, h⟩ := column_eq h (byteText_length bus _ _)
  obtain ⟨-, h⟩ := column_eq h rfl
  exact (column_eq h (mnemonic_length opcode.instruction)).1

/-- A byte of the trace is the byte of the listing. -/
lemma shownByte_listed {b s : Bus} {i : ℕ}
    (hsame : i < (fetched s).bytes →
      readMem s (s.cpu.programCounter + BitVec.ofNat 16 i) =
        readMem b (s.cpu.programCounter + BitVec.ofNat 16 i)) :
    shownByte s i =
      byteText b ((fetched s).bytes ≥ i + 1) (s.cpu.programCounter.toNat + i) := by
  have haddress : address (s.cpu.programCounter.toNat + i) =
      s.cpu.programCounter + BitVec.ofNat 16 i := by
    rw [address_add, address, ofNat_toNat_eq]
  unfold shownByte byteText
  refine ite_congr rfl (fun hshown => ?_) fun _ => rfl
  rw [memText, haddress, hsame hshown, hex_decToHex (fits_byte _)]

/-- What is executed is what was listed, if the bytes have not changed. -/
lemma sameCode {b s : Bus} (hfetched : getNextOpcode b s.cpu.programCounter = fetched s)
    (hsame : ∀ i < (fetched s).bytes,
      readMem s (s.cpu.programCounter + BitVec.ofNat 16 i) =
        readMem b (s.cpu.programCounter + BitVec.ofNat 16 i)) :
    SameCode (codeLine b s.cpu.programCounter.toNat).text (lineText s) := by
  have hpc : address s.cpu.programCounter.toNat = s.cpu.programCounter := ofNat_toNat_eq _
  have hline : (codeLine b s.cpu.programCounter.toNat).text =
      codeText b s.cpu.programCounter.toNat (fetched s) := by
    rw [codeLine, hpc, hfetched]
  obtain ⟨-, haddress, hfirst, hsecond, hthird, -⟩ := codeText_column b _ _ hline
  obtain ⟨hpc', hfirst', hsecond', hthird', hmnemonic, -⟩ := lineText_fields s
  have hone : (fetched s).bytes ≥ 0 + 1 := by
    rcases bytes_cases s with h | h | h <;> omega
  refine ⟨?_, ?_, ?_, ?_, ?_⟩
  · rw [hpc', haddress, hpc, hex_decToHex (fits_word _)]
  · rw [hfirst', hfirst, shownByte_listed (hsame 0)]
    exact if_pos hone
  · rw [hsecond', hsecond, shownByte_listed (hsame 1)]
  · rw [hthird', hthird, shownByte_listed (hsame 2)]
  · rw [hmnemonic, hline, column_mnemonic]

lemma runCpuStates_getElem {fuel n : ℕ} {bus s : Bus}
    (h : (runCpuStates fuel bus)[n]? = some s) : s = runCpuIteration^[n] bus := by
  induction fuel generalizing bus n with
  | zero => cases h
  | succ fuel ih =>
    rcases n with _ | n
    · exact (Option.some.inj h).symm
    · rw [runCpuStates, List.getElem?_cons_succ] at h
      split at h
      · cases h
      · rw [Function.iterate_succ_apply]
        exact ih h

lemma getElem?_runCpuStates {fuel n : ℕ} (bus : Bus) (hn : n < fuel)
    (hgo : ∀ i < n, (fetched (runCpuIteration^[i] bus)).instruction ≠ .brk) :
    (runCpuStates fuel bus)[n]? = some (runCpuIteration^[n] bus) := by
  induction fuel generalizing bus n with
  | zero => omega
  | succ fuel ih =>
    rcases n with _ | n
    · rfl
    · have hfirst : (fetched bus).instruction ≠ .brk := hgo 0 (Nat.succ_pos n)
      rw [runCpuStates, List.getElem?_cons_succ, if_neg hfirst, Function.iterate_succ_apply]
      exact ih _ (Nat.lt_of_succ_lt_succ hn) fun i hi => hgo (i + 1) (Nat.succ_lt_succ hi)

/-- A line depends on its counter as an address only. -/
lemma text_of_address {b : Bus} {l : Line} (hl : l ∈ codeLines b 0) :
    l.text = (codeLine b (address l.pc).toNat).text := by
  obtain ⟨i, hi⟩ := List.mem_iff_getElem?.mp hl
  have hagain : address (address l.pc).toNat = address l.pc := ofNat_toNat_eq _
  have hbehind : ∀ k, address ((address l.pc).toNat + k) = address (l.pc + k) := fun k => by
    rw [address_add, address_add, hagain]
  rw [text_of_line hi, opcode_of_line hi, codeLine]
  simp only [codeText, memText, hagain, hbehind]

/-- **The trace follows the listing.** Whenever `main` executes an instruction whose bytes are all
as they were at the start, be it that they lie above RAM or that no store has shown there since,
the line that is printed about it has the address, the bytes and the mnemonic of every line that
`disassemble_code` has made at that address before. (Of a file that is missing or not accepted the
source prints nothing: it reads through a null pointer.) -/
theorem trace_follows_listing (file : Option (List U8)) {fuel n : ℕ} {s : Bus}
    (hs : (runCpuStates fuel (mainBus file))[n]? = some s)
    (hkept : ∀ i < (fetched s).bytes,
      0x2000 < (s.cpu.programCounter + BitVec.ofNat 16 i).toNat ∨
        ¬ (machine (mainBus file)).ShownBefore n (s.cpu.programCounter + BitVec.ofNat 16 i)) :
    ∀ l ∈ codeLines (attached file) 0, address l.pc = s.cpu.programCounter →
      SameCode l.text (lineText s) := by
  intro l hl hpc
  have hrun : s = runCpuIteration^[n] (mainBus file) := runCpuStates_getElem hs
  have hcart : s.cartridge = (attached file).cartridge := by
    rw [hrun]
    exact iterate_cartridge (mainBus file) n
  have hread : ∀ i < (fetched s).bytes,
      readMem s (s.cpu.programCounter + BitVec.ofNat 16 i) =
        readMem (attached file) (s.cpu.programCounter + BitVec.ofNat 16 i) := by
    intro i hi
    rcases hkept i hi with habove | hkept
    · exact readMem_above hcart habove
    · rw [hrun] at hkept ⊢
      rw [(readMem_run rfl (fun _ _ => rfl) Machine.loadsFrom_input _).2 hkept]
      exact readMem_congr rfl rfl _
  rw [text_of_address hl, hpc]
  exact sameCode (getNextOpcode_congr hread) hread

lemma mainBus_cartridge (file : Option (List U8)) :
    (mainBus file).cartridge = (attached file).cartridge := rfl

lemma lengthAt_attached_ram {f : List U8} {pc : ℕ} (h : pc ≤ 0x2000) :
    lengthAt (attached (some f)) pc = 1 := by
  have haddr : (address pc).toNat = pc := Nat.mod_eq_of_lt (by omega)
  rw [lengthAt_eq, readMem_of_le (by omega)]
  rfl

lemma lengthAt_attached_open {f : List U8} {pc : ℕ} (h : 0x2000 < pc) (h' : pc ≤ 0x8000) :
    lengthAt (attached (some f)) pc = 3 := by
  have haddr : (address pc).toNat = pc := Nat.mod_eq_of_lt (by omega)
  have hnone : prgIndex (attached (some f)) (address pc) = none := prgIndex_eq_none (by omega)
  rw [lengthAt_eq, readMem_of_gt (by omega), cartRead, hnone]
  rfl

lemma lengthAt_pagesFile {i : ℕ} (hpos : 0 < i) (hlt : i < 0x7FFF) :
    lengthAt (attached (some (pagesFile 1 0 0x48))) (0x8000 + i) = 1 := by
  rw [lengthAt_eq, address, readMem_attached (accepted_pagesFile (by decide) 0 0x48) hpos hlt,
    windowByte_pagesFile (by decide) 0x48 hlt]
  rfl

/-- `BRK` in RAM and `ISB` on the open bus, and then the page. -/
lemma linePc_pagesFile {i : ℕ} (hi : i < 0x7FFF) :
    linePc (attached (some (pagesFile 1 0 0x48))) (i + 0x4001) = 0x8001 + i := by
  have hram : ∀ i < 0x2001, lengthAt (attached (some (pagesFile 1 0 0x48))) (0 + i * 1) = 1 :=
    fun i hi => lengthAt_attached_ram (by omega)
  have hopen : ∀ i < 0x2000,
      lengthAt (attached (some (pagesFile 1 0 0x48))) (0x2001 + i * 3) = 3 :=
    fun i hi => lengthAt_attached_open (by omega) (by omega)
  have hrom : ∀ j < i, lengthAt (attached (some (pagesFile 1 0 0x48))) (0x8001 + j * 1) = 1 := by
    intro j hj
    have haddress : 0x8001 + j * 1 = 0x8000 + (j + 1) := by omega
    rw [haddress]
    exact lengthAt_pagesFile (by omega) (by omega)
  have hend := iterate_then_constant _
    (iterate_then_constant _ (iterate_of_constant _ hram) hopen) hrom
  unfold linePc
  rw [Nat.mul_one, Nat.mul_one] at hend
  exact hend

/-- `PHA` at the program counter. -/
lemma pushes {b : Bus} (h : readMem b b.cpu.programCounter = 0x48) :
    (fetched b).instruction ≠ .brk ∧
      (runCpuIteration b).cpu.programCounter = b.cpu.programCounter + 1 := by
  have hfetch : (machine b).fetch = (.pha, .implied) := congrArg decode h
  refine ⟨?_, ?_⟩
  · rw [machine_fetch] at hfetch
    rw [(Prod.mk.inj hfetch).1]
    decide
  · have hstep := congrArg Machine.programCounter (machine_runCpuIteration b)
    rw [Machine.step, hfetch] at hstep
    exact hstep

/-- From 0xC000 on the page is executed. -/
lemma pushes_pagesFile {n : ℕ} (hn : n < 0x3FFF) :
    (runCpuIteration^[n] (mainBus (some (pagesFile 1 0 0x48)))).cpu.programCounter =
        BitVec.ofNat 16 (0xC000 + n) ∧
      (fetched (runCpuIteration^[n] (mainBus (some (pagesFile 1 0 0x48))))).instruction ≠ .brk := by
  set b := mainBus (some (pagesFile 1 0 0x48))
  have hread : ∀ i < 0x3FFF,
      readMem (runCpuIteration^[i] b) (BitVec.ofNat 16 (0xC000 + i)) = 0x48 := by
    intro i hi
    have haddress : 0xC000 + i = 0x8000 + (0x4000 + i) := by omega
    have habove : 0x2000 < (BitVec.ofNat 16 (0xC000 + i)).toNat := by
      rw [BitVec.toNat_ofNat]
      omega
    have hcart : (runCpuIteration^[i] b).cartridge =
        (attached (some (pagesFile 1 0 0x48))).cartridge :=
      (iterate_cartridge b i).trans (mainBus_cartridge _)
    have haccepted : Accepted (some (pagesFile 1 0 0x48)) := accepted_pagesFile (by decide) 0 0x48
    have hrom := readMem_attached haccepted (i := 0x4000 + i) (by omega) (by omega)
    rw [readMem_above hcart habove, haddress, hrom]
    exact windowByte_pagesFile (by decide) 0x48 (by omega)
  have hpc : (runCpuIteration^[n] b).cpu.programCounter = BitVec.ofNat 16 (0xC000 + n) := by
    induction n with
    | zero => rfl
    | succ n ih =>
      have hlast := ih (by omega)
      rw [Function.iterate_succ_apply', (pushes (hlast ▸ hread n (by omega))).2, hlast]
      exact (BitVec.ofNat_add (0xC000 + n) 1).symm
  exact ⟨hpc, (pushes (hpc ▸ hread n hn)).1⟩

/-- The line that is printed behind a hundred stores. -/
theorem pagesFile_follows_listing :
    SameCode (codeLine (attached (some (pagesFile 1 0 0x48))) 0xC064).text
      (lineText (runCpuIteration^[100] (mainBus (some (pagesFile 1 0 0x48))))) := by
  have hpc := (pushes_pagesFile (n := 100) (by decide)).1
  have hstate := getElem?_runCpuStates (mainBus (some (pagesFile 1 0 0x48)))
    (Nat.lt_succ_self 100) fun i hi => (pushes_pagesFile (by omega)).2
  have hline : codeLine (attached (some (pagesFile 1 0 0x48))) 0xC064 ∈
      codeLines (attached (some (pagesFile 1 0 0x48))) 0 := by
    have hlisted := linePc_pagesFile (i := 0x4063) (by decide)
    exact List.mem_of_getElem? (codeLines_eq_some.mpr ⟨hlisted.le.trans (by decide),
      congrArg (codeLine _) hlisted.symm⟩)
  refine trace_follows_listing _ hstate (fun i hi => Or.inl ?_) _ hline hpc.symm
  have hstart : (BitVec.ofNat 16 (0xC000 + 100)).toNat = 0xC064 := rfl
  rw [hpc, BitVec.toNat_add, hstart, BitVec.toNat_ofNat]
  obtain h | h | h := bytes_cases (runCpuIteration^[100] (mainBus (some (pagesFile 1 0 0x48))))
  all_goals omega

end NesEmulator.Disassembler
