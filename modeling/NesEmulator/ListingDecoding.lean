import NesEmulator.HexFormat

/-!
Reading a line of the listing.

Every text in a line is padded by hand, so that the columns are at the same places for every
instruction: the address, three bytes, the mnemonic, and an operand of seven characters.
-/

namespace NesEmulator.Disassembler

open Lib.Bits

/-- So many characters of a line, from an index on. -/
def column (s : String) (i n : ℕ) : List Char := (s.toList.drop i).take n

/-- The hexadecimal digits behind the first dollar sign. -/
def digitsBehindDollar (cs : List Char) : List Char :=
  ((cs.dropWhile (· ≠ '$')).drop 1).takeWhile fun c => (hexVal c).isSome

/-- The number in the operand column. -/
def parseOperand (s : String) : Option ℕ := parseHex (digitsBehindDollar (column s 22 7))

/-- What can be read off the line for the instruction at an address. -/
structure DecodesBack (bus : Bus) (pc : U16) (line : String) : Prop where
  length : line.length = 33
  address : parseHex (column line 0 4) = some pc.toNat
  first : parseHex (column line 7 2) = some (readMem bus pc).toNat
  second : if (getNextOpcode bus pc).bytes ≥ 2
    then parseHex (column line 10 2) = some (readMem bus (pc + 1)).toNat
    else column line 10 2 = [' ', ' ']
  third : if (getNextOpcode bus pc).bytes ≥ 3
    then parseHex (column line 13 2) = some (readMem bus (pc + 2)).toNat
    else column line 13 2 = [' ', ' ']
  byteOperand : (getNextOpcode bus pc).addressingMode.operandBytes = 1 →
    parseOperand line = some (readMem bus (pc + 1)).toNat
  wordOperand : (getNextOpcode bus pc).addressingMode.operandBytes = 2 →
    parseOperand line =
      some ((readMem bus (pc + 1)).toNat + 256 * (readMem bus (pc + 2)).toNat)

/-! ### The operand column -/

section Operand

lemma hexVal_isSome {cs : List Char} {d : ℕ} (h : parseHex cs = some d) :
    ∀ c ∈ cs, (hexVal c).isSome := by
  rw [parseHex, Option.map_eq_some_iff] at h
  obtain ⟨ds, hds, -⟩ := h
  obtain ⟨hall, rfl⟩ := of_mapM_hexVal hds
  intro c hc
  obtain ⟨r, hr, rfl⟩ := List.mem_map.mp hc
  rw [hexVal_hexDigit (hall r hr)]
  rfl

/-- Digits between a dollar sign and a text that does not go on with one. -/
lemma digitsBehindDollar_eq {front digits back : List Char} (hfront : '$' ∉ front)
    (hdigits : ∀ c ∈ digits, (hexVal c).isSome)
    (hback : back.head?.all fun c => !(hexVal c).isSome) :
    digitsBehindDollar (front ++ '$' :: (digits ++ back)) = digits := by
  have hdrop : (front ++ '$' :: (digits ++ back)).dropWhile (· ≠ '$') =
      '$' :: (digits ++ back) := by
    rw [List.dropWhile_append_of_pos]
    · rfl
    · intro c hc
      exact decide_eq_true fun heq => hfront (heq ▸ hc)
  have hstop : back.takeWhile (fun c => (hexVal c).isSome) = [] := by
    cases back with
    | nil => rfl
    | cons c back =>
      rw [List.head?_cons, Option.all_some, Bool.not_eq_true'] at hback
      rw [List.takeWhile_cons, hback]
      rfl
  rw [digitsBehindDollar, hdrop, List.drop_succ_cons, List.drop_zero,
    List.takeWhile_append_of_pos hdigits, hstop, List.append_nil]

/-- What stands around the number of an operand: in front of its dollar sign, and behind it. -/
def operandFrame : AddressingMode → List Char × List Char
  | .absolute => ([], [' ', ' '])
  | .absoluteX => ([], [',', 'X'])
  | .absoluteY => ([], [',', 'Y'])
  | .immediate => (['#'], [' ', ' ', ' '])
  | .indirect => (['('], [')'])
  | .indirectX => (['('], [',', 'X', ')'])
  | .indirectY => (['('], [')', ',', 'Y'])
  | .relative | .zeroPage => ([], [' ', ' ', ' ', ' '])
  | .zeroPageX => ([], [',', 'X', ' ', ' '])
  | .zeroPageY => ([], [',', 'Y', ' ', ' '])
  | .accumulator | .implied => ([], [])

lemma operandFrame_spec {mode : AddressingMode} (h : mode.operandBytes ≠ 0) :
    '$' ∉ (operandFrame mode).1 ∧
      ((operandFrame mode).2.head?.all fun c => !(hexVal c).isSome) = true ∧
      (operandFrame mode).1.length + 1 + 2 * mode.operandBytes + (operandFrame mode).2.length =
        7 := by
  cases mode
  case accumulator | implied => exact absurd rfl h
  all_goals decide

/-- The number of an operand, as long as its bytes. -/
def operandNumber (opcode : OpCode) : ℕ :=
  if opcode.addressingMode.operandBytes = 1 then opcode.byte.toNat else opcode.word.toNat

variable {opcode : OpCode}

lemma operandNumber_lt (h : opcode.addressingMode.operandBytes ≠ 0) :
    operandNumber opcode < 16 ^ (2 * opcode.addressingMode.operandBytes) := by
  have hbyte := opcode.byte.isLt
  have hword := opcode.word.isLt
  have hle := operandBytes_le opcode.addressingMode
  unfold operandNumber
  split
  · next hone =>
    rw [hone]
    exact hbyte
  · next hone =>
    have htwo : opcode.addressingMode.operandBytes = 2 := by omega
    rw [htwo]
    exact hword

lemma operandText_eq (h : opcode.addressingMode.operandBytes ≠ 0) : (operandText opcode).toList =
    (operandFrame opcode.addressingMode).1 ++ '$' ::
      ((decToHex (operandNumber opcode) (2 * opcode.addressingMode.operandBytes)).toList ++
        (operandFrame opcode.addressingMode).2) := by
  unfold operandText operandNumber
  cases hmode : opcode.addressingMode
  case accumulator | implied => exact absurd (congrArg AddressingMode.operandBytes hmode) h
  all_goals simp [operandFrame, AddressingMode.operandBytes]

lemma operandText_length (opcode : OpCode) : (operandText opcode).toList.length = 7 := by
  by_cases h : opcode.addressingMode.operandBytes = 0
  · unfold operandText
    cases hmode : opcode.addressingMode <;> simp [hmode, AddressingMode.operandBytes] at h ⊢
  · obtain ⟨-, -, hlength⟩ := operandFrame_spec h
    have hdigits := (encodes (operandNumber_lt h)).value.1
    rw [operandText_eq h, List.length_append, List.length_cons, List.length_append, hdigits]
    omega

/-- **The number of an operand** can be read in its column. -/
lemma digitsBehindDollar_operandText (h : opcode.addressingMode.operandBytes ≠ 0) :
    parseHex (digitsBehindDollar (operandText opcode).toList) = some (operandNumber opcode) := by
  obtain ⟨hfront, hback, -⟩ := operandFrame_spec h
  have hvalue := (encodes (operandNumber_lt h)).value.2
  rw [operandText_eq h, digitsBehindDollar_eq hfront (hexVal_isSome hvalue) hback, hvalue]

end Operand

/-! ### The columns -/

section Columns

/-- Reading a line from the left, one text after the other. -/
lemma column_eq {s : String} {xs rest : List Char} {i n : ℕ} (h : s.toList.drop i = xs ++ rest)
    (hn : xs.length = n) : column s i n = xs ∧ s.toList.drop (i + n) = rest := by
  subst hn
  refine ⟨?_, ?_⟩
  · rw [column, h, List.take_left]
  · rw [← List.drop_drop, h, List.drop_left]

lemma mnemonic_length (i : Instruction) : (getInstructionMnemonic i).toList.length = 3 := by
  cases i <;> rfl

variable (bus : Bus) (pc : ℕ) (opcode : OpCode)

/-- One of the byte columns. -/
def byteText (shown : Prop) [Decidable shown] (a : ℕ) : List Char :=
  if shown then (memText bus a).toList else [' ', ' ']

/-- **The columns of a line**, with what separates them. -/
lemma codeText_columns : (codeText bus pc opcode).toList =
    (decToHex (address pc).toNat 4).toList ++ ([' ', ' ', ' '] ++ ((memText bus pc).toList ++
      ([' '] ++ (byteText bus (opcode.bytes ≥ 2) (pc + 1) ++ ([' '] ++
        (byteText bus (opcode.bytes ≥ 3) (pc + 2) ++ ([' ', ' ', ' '] ++
          ((getInstructionMnemonic opcode.instruction).toList ++ ([' '] ++
            ((operandText opcode).toList ++ [' ', ' ', ' ', ';'])))))))))) := by
  unfold codeText byteText
  by_cases h2 : opcode.bytes ≥ 2 <;> by_cases h3 : opcode.bytes ≥ 3
  all_goals simp [h2, h3]

lemma memText_isHex (a : ℕ) : IsHex (memText bus a) 2 (readMem bus (address a)).toNat :=
  (encodes (readMem bus (address a)).isLt).value

lemma byteText_length (shown : Prop) [Decidable shown] (a : ℕ) :
    (byteText bus shown a).length = 2 := by
  unfold byteText
  split
  · exact (memText_isHex bus a).1
  · rfl

lemma byteText_reads (shown : Prop) [Decidable shown] (a : ℕ) :
    if shown then parseHex (byteText bus shown a) = some (readMem bus (address a)).toNat
    else byteText bus shown a = [' ', ' '] := by
  unfold byteText
  split
  · exact (memText_isHex bus a).2
  · rfl

lemma address_add (k : ℕ) : address (pc + k) = address pc + BitVec.ofNat 16 k :=
  BitVec.ofNat_add ..

lemma addressText_isHex : IsHex (decToHex (address pc).toNat 4) 4 (address pc).toNat := by
  have hlt : (address pc).toNat < 16 ^ 4 := (address pc).isLt
  exact (encodes hlt).value

/-- The address, the bytes, and the operand are where they are looked for. -/
lemma codeText_column {line : String} (hline : line = codeText bus pc opcode) :
    line.length = 33 ∧ column line 0 4 = (decToHex (address pc).toNat 4).toList ∧
      column line 7 2 = (memText bus pc).toList ∧
      column line 10 2 = byteText bus (opcode.bytes ≥ 2) (pc + 1) ∧
      column line 13 2 = byteText bus (opcode.bytes ≥ 3) (pc + 2) ∧
      column line 22 7 = (operandText opcode).toList := by
  have hline' := codeText_columns bus pc opcode
  rw [← hline] at hline'
  obtain ⟨haddress, h⟩ := column_eq (i := 0) hline' (addressText_isHex pc).1
  obtain ⟨-, h⟩ := column_eq h rfl
  obtain ⟨hfirst, h⟩ := column_eq h (memText_isHex bus pc).1
  obtain ⟨-, h⟩ := column_eq h rfl
  obtain ⟨hsecond, h⟩ := column_eq h (byteText_length bus _ _)
  obtain ⟨-, h⟩ := column_eq h rfl
  obtain ⟨hthird, h⟩ := column_eq h (byteText_length bus _ _)
  obtain ⟨-, h⟩ := column_eq h rfl
  obtain ⟨-, h⟩ := column_eq h (mnemonic_length opcode.instruction)
  obtain ⟨-, h⟩ := column_eq h rfl
  obtain ⟨hoperand, h⟩ := column_eq h (operandText_length opcode)
  refine ⟨?_, haddress, hfirst, hsecond, hthird, hoperand⟩
  have hlength := congrArg List.length h
  rw [List.length_drop, String.length_toList] at hlength
  change line.length - 29 = 4 at hlength
  omega

/-- **A line of the listing** can be read, whatever the instruction. -/
lemma codeText_decodes {line : String}
    (hline : line = codeText bus pc (getNextOpcode bus (address pc))) :
    DecodesBack bus (address pc) line := by
  obtain ⟨hlength, haddress, hfirst, hsecond, hthird, hoperand⟩ := codeText_column bus pc _ hline
  have hsecond' := byteText_reads bus ((getNextOpcode bus (address pc)).bytes ≥ 2) (pc + 1)
  have hthird' := byteText_reads bus ((getNextOpcode bus (address pc)).bytes ≥ 3) (pc + 2)
  rw [← hsecond, address_add] at hsecond'
  rw [← hthird, address_add] at hthird'
  refine ⟨hlength, ?_, ?_, hsecond', hthird', fun hone => ?_, fun htwo => ?_⟩
  · rw [haddress]
    exact (addressText_isHex pc).2
  · rw [hfirst]
    exact (memText_isHex bus pc).2
  · rw [parseOperand, hoperand, digitsBehindDollar_operandText (by omega), operandNumber,
      if_pos hone, getNextOpcode_byte _ _ (by omega)]
  · rw [parseOperand, hoperand, digitsBehindDollar_operandText (by omega), operandNumber,
      if_neg (by omega), OpCode.word, toNat_append, getNextOpcode_byte _ _ (by omega),
      getNextOpcode_ignored _ _ (by omega)]
    congr 1
    omega

end Columns

/-- **The listing can be decoded back**: the line for every address, and every line that there
is. -/
theorem listing_decodes (bus : Bus) :
    (∀ pc : U16, DecodesBack bus pc (codeLine bus pc.toNat).text) ∧
      ∀ (i : ℕ) (line : String), (disassembleCode bus)[i]? = some line →
        DecodesBack bus (address (linePc bus i)) line := by
  refine ⟨fun pc => ?_, fun i line hline => ?_⟩
  · have hpc : address pc.toNat = pc := BitVec.ofNat_toNat ..
    have hdecodes : DecodesBack bus (address pc.toNat) (codeLine bus pc.toNat).text :=
      codeText_decodes bus pc.toNat rfl
    rwa [hpc] at hdecodes
  · rw [disassembleCode, List.getElem?_map, Option.map_eq_some_iff] at hline
    obtain ⟨l, hl, rfl⟩ := hline
    rw [← pc_of_line hl]
    refine codeText_decodes bus l.pc ?_
    rw [text_of_line hl, opcode_of_line hl]

end NesEmulator.Disassembler
