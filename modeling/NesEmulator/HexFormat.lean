import NesEmulator.Listing
import Mathlib.Data.Nat.Digits.Lemmas

/-!
Numbers in hexadecimal.

`dec_to_hex` fills its buffer from the end, first with the digits of the number and then with
zeros. What the two loops store is the padded list of digits, the last one first, and a buffer
that is filled from the end holds what was stored in reverse.
-/

namespace NesEmulator.Disassembler

/-! ### Reading a number -/

def hexVal (c : Char) : Option ℕ :=
  if '0' ≤ c ∧ c ≤ '9' then some (c.toNat - '0'.toNat)
  else if 'A' ≤ c ∧ c ≤ 'F' then some (c.toNat - 'A'.toNat + 10)
  else none

/-- The value of a text of hexadecimal digits, the most significant one first. -/
def parseHex (cs : List Char) : Option ℕ :=
  (cs.mapM hexVal).map fun ds => Nat.ofDigits 16 ds.reverse

/-- A text of so many hexadecimal digits, with this value. -/
def IsHex (s : String) (size d : ℕ) : Prop := s.toList.length = size ∧ parseHex s.toList = some d

/-- What is wanted of `dec_to_hex`. -/
structure Encodes (d size : ℕ) : Prop where
  turns : (hexWrites d size).length = size
  inside : ∀ write ∈ hexWrites d size, 0 ≤ write.1 ∧ write.1 < size
  once : ∀ k < size, ((hexWrites d size).map Prod.fst).count (k : ℤ) = 1
  value : IsHex (decToHex d size) size d
  unique : ∀ s, IsHex s size d → s = decToHex d size

/-! ### The two loops -/

/-- Stores of one character after the other, at falling indices. -/
def backward (size : ℕ) : ℕ → List Char → List (ℤ × Char)
  | _, [] => []
  | i, c :: cs => ((size : ℤ) - i - 1, c) :: backward size (i + 1) cs

section Loops

variable (size i : ℕ)

lemma backward_append (cs cs' : List Char) : backward size i (cs ++ cs') =
    backward size i cs ++ backward size (i + cs.length) cs' := by
  induction cs generalizing i with
  | nil => rfl
  | cons c cs ih =>
    rw [List.cons_append, backward, backward, ih, List.length_cons, Nat.add_right_comm,
      Nat.add_assoc]
    rfl

lemma backward_length (cs : List Char) : (backward size i cs).length = cs.length := by
  induction cs generalizing i with
  | nil => rfl
  | cons c cs ih => rw [backward, List.length_cons, List.length_cons, ih]

lemma backward_indices (cs : List Char) : (backward size i cs).map Prod.fst =
    (List.range cs.length).map fun j => (size : ℤ) - (i + j : ℕ) - 1 := by
  induction cs generalizing i with
  | nil => rfl
  | cons c cs ih =>
    rw [backward, List.map_cons, ih, List.length_cons, List.range_succ_eq_map, List.map_cons,
      List.map_map]
    congr 1
    refine List.map_congr_left fun j _ => ?_
    simp only [Function.comp_apply]
    omega

/-- The first loop goes through the digits of the number. -/
lemma digitWrites_eq (d : ℕ) :
    digitWrites size i d = backward size i ((Nat.digits 16 d).map hexDigit) := by
  induction d using Nat.strongRecOn generalizing i with
  | ind d ih =>
    rw [digitWrites]
    split
    · next h =>
      have hless : d / 16 < d := Nat.div_lt_self h (by decide)
      rw [Nat.digits_def' (by decide) h, List.map_cons, backward, ih _ hless]
    · next h =>
      obtain rfl : d = 0 := by omega
      rfl

/-- The second loop stores zeros. -/
lemma fillWrites_eq : fillWrites size i = backward size i (List.replicate (size - i) '0') := by
  induction h : size - i generalizing i with
  | zero =>
    rw [fillWrites, if_neg (by omega)]
    rfl
  | succ k ih =>
    rw [fillWrites, if_pos (by omega), ih (i + 1) (by omega), List.replicate_succ, backward]

end Loops

/-- **The two loops** store the padded digits. -/
theorem hexWrites_eq (d size : ℕ) :
    hexWrites d size = backward size 0 ((Nat.digitsAppend 16 size d).map hexDigit) := by
  have hzero : hexDigit 0 = '0' := rfl
  unfold hexWrites
  dsimp only
  rw [digitWrites_eq, fillWrites_eq, backward_length, List.length_map, Nat.digitsAppend,
    List.map_append, List.map_replicate, hzero, backward_append, List.length_map, Nat.zero_add]

/-! ### The buffer -/

/-- One store, behind a part of the buffer that has been stored already. -/
lemma storeChar_eq (front stored : List Char) (x c : Char) :
    storeChar (front ++ x :: stored)
        (((front ++ x :: stored).length : ℤ) - stored.length - 1, c) =
      front ++ c :: stored := by
  have hindex : ((front ++ x :: stored).length : ℤ) - stored.length - 1 =
      Int.ofNat front.length := by
    rw [Int.ofNat_eq_natCast, List.length_append, List.length_cons]
    omega
  rw [hindex]
  change (front ++ x :: stored).set front.length c = _
  rw [List.set_append_right _ _ (Nat.le_refl _), Nat.sub_self, List.set_cons_zero]

/-- **A buffer filled from the end** holds what has been stored in reverse, and in front of that
what it held before. -/
lemma foldl_backward (cs front stored : List Char) (h : cs.length ≤ front.length) :
    (backward (front ++ stored).length stored.length cs).foldl storeChar (front ++ stored) =
      front.take (front.length - cs.length) ++ (cs.reverse ++ stored) := by
  induction cs generalizing front stored with
  | nil => simp [backward]
  | cons c cs ih =>
    rcases List.eq_nil_or_concat' front with rfl | ⟨front, x, rfl⟩
    · cases h
    · rw [List.length_append, List.length_cons, List.length_singleton] at h
      have hlength : (front ++ c :: stored).length = (front ++ x :: stored).length := by simp
      rw [List.append_assoc, List.singleton_append, backward, List.foldl_cons, storeChar_eq,
        ← hlength, ← List.length_cons (a := c), ih front (c :: stored) (by omega)]
      have htake : (front ++ [x]).length - (c :: cs).length = front.length - cs.length := by simp
      rw [htake, List.take_append_of_le_length (by omega), List.reverse_cons, List.append_assoc]
      rfl

lemma decToHex_eq {d size : ℕ} (h : d < 16 ^ size) : decToHex d size =
    String.ofList ((Nat.digitsAppend 16 size d).map hexDigit).reverse := by
  have hlength : (Nat.digitsAppend 16 size d).length = size :=
    Nat.length_digitsAppend (by decide) size h
  have hfill := foldl_backward ((Nat.digitsAppend 16 size d).map hexDigit)
    (List.replicate size (Char.ofNat 0)) [] (by simp [hlength])
  rw [List.append_nil, List.length_replicate, List.length_nil, ← hexWrites_eq] at hfill
  rw [decToHex, hfill, List.length_map, hlength, Nat.sub_self, List.take_zero, List.nil_append,
    List.append_nil]

/-! ### Digits and values -/

lemma hexVal_hexDigit {r : ℕ} (h : r < 16) : hexVal (hexDigit r) = some r := by
  revert r
  decide

lemma hexDigit_of_hexVal {c : Char} {r : ℕ} (h : hexVal c = some r) : r < 16 ∧ hexDigit r = c := by
  unfold hexVal at h
  split at h
  · next hrange =>
    have hlo : 48 ≤ c.toNat := hrange.1
    have hhi : c.toNat ≤ 57 := hrange.2
    obtain rfl : c.toNat - 48 = r := Option.some.inj h
    refine ⟨by omega, ?_⟩
    rw [hexDigit, if_pos (by omega)]
    change Char.ofNat (48 + (c.toNat - 48)) = c
    rw [Nat.add_sub_cancel' hlo, Char.ofNat_toNat]
  · split at h
    · next hrange =>
      have hlo : 65 ≤ c.toNat := hrange.1
      have hhi : c.toNat ≤ 70 := hrange.2
      obtain rfl : c.toNat - 65 + 10 = r := Option.some.inj h
      refine ⟨by omega, ?_⟩
      rw [hexDigit, if_neg (by omega)]
      change Char.ofNat (65 + (c.toNat - 65 + 10 - 10)) = c
      rw [Nat.add_sub_cancel, Nat.add_sub_cancel' hlo, Char.ofNat_toNat]
    · cases h

lemma mapM_hexVal {ds : List ℕ} (h : ∀ r ∈ ds, r < 16) :
    (ds.map hexDigit).mapM hexVal = some ds := by
  induction ds with
  | nil => rfl
  | cons r ds ih =>
    rw [List.forall_mem_cons] at h
    rw [List.map_cons, List.mapM_cons, hexVal_hexDigit h.1, ih h.2]
    rfl

lemma of_mapM_hexVal {cs : List Char} {ds : List ℕ} (h : cs.mapM hexVal = some ds) :
    (∀ r ∈ ds, r < 16) ∧ cs = ds.map hexDigit := by
  induction cs generalizing ds with
  | nil =>
    obtain rfl : [] = ds := Option.some.inj h
    exact ⟨by simp, rfl⟩
  | cons c cs ih =>
    rw [List.mapM_cons, Option.bind_eq_bind, Option.bind_eq_some_iff] at h
    obtain ⟨r, hr, h⟩ := h
    rw [Option.bind_eq_bind, Option.bind_eq_some_iff] at h
    obtain ⟨ds', hds, h⟩ := h
    obtain rfl : r :: ds' = ds := Option.some.inj h
    obtain ⟨hlt, hdigit⟩ := hexDigit_of_hexVal hr
    obtain ⟨hall, hmap⟩ := ih hds
    refine ⟨List.forall_mem_cons.mpr ⟨hlt, hall⟩, ?_⟩
    rw [List.map_cons, hdigit, ← hmap]

/-- **Reading and writing** are inverse to each other. -/
theorem isHex_iff {s : String} {d size : ℕ} (h : d < 16 ^ size) :
    IsHex s size d ↔ s = decToHex d size := by
  have hbase : 1 < 16 := by decide
  obtain ⟨hinv, hinv'⟩ := Nat.setInvOn_digitsAppend_ofDigits hbase size
  rw [decToHex_eq h]
  constructor
  · rintro ⟨hlength, hparse⟩
    rw [parseHex, Option.map_eq_some_iff] at hparse
    obtain ⟨ds, hds, hvalue⟩ := hparse
    obtain ⟨hall, hmap⟩ := of_mapM_hexVal hds
    have hsize : ds.reverse.length = size := by
      rw [List.length_reverse, ← hlength, hmap, List.length_map]
    have hdigits : Nat.digitsAppend 16 size d = ds.reverse := by
      rw [← hvalue]
      exact hinv ⟨hsize, fun r hr => hall r (List.mem_reverse.mp hr)⟩
    rw [hdigits, List.map_reverse, List.reverse_reverse, ← hmap, String.ofList_toList]
  · rintro rfl
    have hlength := Nat.length_digitsAppend hbase size h
    refine ⟨by simp [hlength], ?_⟩
    have hall : ∀ r ∈ (Nat.digitsAppend 16 size d).reverse, r < 16 := fun r hr =>
      Nat.lt_of_mem_digitsAppend hbase size r (List.mem_reverse.mp hr)
    rw [parseHex, String.toList_ofList, ← List.map_reverse, mapM_hexVal hall, Option.map_some,
      List.reverse_reverse]
    exact congrArg some (hinv' h)

lemma hexWrites_indices {d size : ℕ} (h : d < 16 ^ size) : (hexWrites d size).map Prod.fst =
    (List.range size).map fun j : ℕ => (size : ℤ) - j - 1 := by
  rw [hexWrites_eq, backward_indices, List.length_map, Nat.length_digitsAppend (by decide) size h]
  refine List.map_congr_left fun j _ => ?_
  rw [Nat.zero_add]

lemma encodes {d size : ℕ} (h : d < 16 ^ size) : Encodes d size := by
  have hindices := hexWrites_indices h
  refine ⟨?_, fun write hwrite => ?_, fun k hk => ?_, (isHex_iff h).mpr rfl,
    fun s hs => (isHex_iff h).mp hs⟩
  · have hlength := congrArg List.length hindices
    rwa [List.length_map, List.length_map, List.length_range] at hlength
  · have hmem : write.1 ∈ (hexWrites d size).map Prod.fst := List.mem_map_of_mem hwrite
    rw [hindices, List.mem_map] at hmem
    obtain ⟨j, hj, hindex⟩ := hmem
    rw [List.mem_range] at hj
    omega
  · rw [hindices]
    refine List.count_eq_one_of_mem (List.nodup_range.map fun a b hab => by omega) ?_
    rw [List.mem_map]
    exact ⟨size - k - 1, List.mem_range.mpr (by omega), by omega⟩

/-! ### The calls -/

/-- A part of a line: a text that is there already, or a call of `dec_to_hex`. -/
inductive Part
  | text (s : String)
  | hex (d size : ℕ)

def Part.chars : Part → List Char
  | .text s => s.toList
  | .hex d size => (decToHex d size).toList

def operandParts (opcode : OpCode) : List Part :=
  let word := Part.hex opcode.word.toNat 4
  let byte := Part.hex opcode.byte.toNat 2
  match opcode.addressingMode with
  | .accumulator => [.text "A      "]
  | .absolute => [.text "$", word, .text "  "]
  | .absoluteX => [.text "$", word, .text ",X"]
  | .absoluteY => [.text "$", word, .text ",Y"]
  | .immediate => [.text "#$", byte, .text "   "]
  | .implied => [.text "       "]
  | .indirect => [.text "($", word, .text ")"]
  | .indirectX => [.text "($", byte, .text ",X)"]
  | .indirectY => [.text "($", byte, .text "),Y"]
  | .relative => [.text "$", byte, .text "    "]
  | .zeroPage => [.text "$", byte, .text "    "]
  | .zeroPageX => [.text "$", byte, .text ",X  "]
  | .zeroPageY => [.text "$", byte, .text ",Y  "]

def memPart (bus : Bus) (pc : ℕ) : Part := .hex (readMem bus (address pc)).toNat 2

/-- The parts of a line, in order. -/
def lineParts (bus : Bus) (pc : ℕ) (opcode : OpCode) : List Part :=
  [.hex (address pc).toNat 4, .text "   ", memPart bus pc, .text " ",
    if opcode.bytes ≥ 2 then memPart bus (pc + 1) else .text "  ", .text " ",
    if opcode.bytes ≥ 3 then memPart bus (pc + 2) else .text "  ", .text "   ",
    .text (getInstructionMnemonic opcode.instruction), .text " "] ++
    operandParts opcode ++ [.text "   ;"]

section Calls

variable (bus : Bus) (pc : ℕ) (opcode : OpCode)

lemma operandText_toList :
    (operandText opcode).toList = (operandParts opcode).flatMap Part.chars := by
  unfold operandText operandParts
  cases opcode.addressingMode <;> simp [Part.chars]

/-- **The parts of a line** make its text. -/
theorem codeText_toList :
    (codeText bus pc opcode).toList = (lineParts bus pc opcode).flatMap Part.chars := by
  unfold codeText lineParts memText memPart
  by_cases h2 : opcode.bytes ≥ 2 <;> by_cases h3 : opcode.bytes ≥ 3
  all_goals simp [h2, h3, operandText_toList, Part.chars]

/-- A byte fits two columns, and a word four. -/
def Part.Fits : Part → Prop
  | .text _ => True
  | .hex d size => d < 16 ^ size

lemma operandParts_fit {p : Part} (h : p ∈ operandParts opcode) : p.Fits := by
  have hword : (Part.hex opcode.word.toNat 4).Fits := opcode.word.isLt
  have hbyte : (Part.hex opcode.byte.toNat 2).Fits := opcode.byte.isLt
  have htext : ∀ s, (Part.text s).Fits := fun _ => trivial
  unfold operandParts at h
  cases hmode : opcode.addressingMode
  all_goals
    simp only [hmode, List.mem_cons, List.not_mem_nil, or_false] at h
    rcases h with rfl | rfl | rfl
    all_goals first | exact hword | exact hbyte | exact htext _

lemma lineParts_fit {p : Part} (h : p ∈ lineParts bus pc opcode) : p.Fits := by
  have haddress : (Part.hex (address pc).toNat 4).Fits := (address pc).isLt
  have hmem : ∀ a, (memPart bus a).Fits := fun a => (readMem bus (address a)).isLt
  have htext : ∀ s, (Part.text s).Fits := fun _ => trivial
  have hblank : ∀ n a, (if opcode.bytes ≥ n then memPart bus a else .text "  ").Fits := by
    intro n a
    split
    · exact hmem a
    · exact htext _
  rw [lineParts, List.mem_append, List.mem_append] at h
  rcases h with (h | h) | h
  · simp only [List.mem_cons, List.not_mem_nil, or_false] at h
    rcases h with rfl | rfl | rfl | rfl | rfl | rfl | rfl | rfl | rfl | rfl
    all_goals first | exact haddress | exact hmem _ | exact hblank _ _ | exact htext _
  · exact operandParts_fit opcode h
  · rw [List.mem_singleton] at h
    rw [h]
    exact htext _

end Calls

/-- **An exact encoder**: a number that fits has one text of the width, and that is written, each
position once. So the texts tell the numbers apart; and all the numbers of a listing fit. -/
theorem decToHex_exact :
    (∀ d size : ℕ, d < 16 ^ size → Encodes d size) ∧
      (∀ size d e : ℕ, d < 16 ^ size → e < 16 ^ size → decToHex d size = decToHex e size →
        d = e) ∧
      ∀ bus, ∀ line ∈ codeLines bus 0,
        line.text.toList = (lineParts bus line.pc line.opcode).flatMap Part.chars ∧
          ∀ d size, .hex d size ∈ lineParts bus line.pc line.opcode → d < 16 ^ size := by
  refine ⟨fun d size h => encodes h, fun size d e hd he heq => ?_, fun bus line hline => ?_⟩
  · have hvalue := (encodes hd).value.2
    rw [heq, (encodes he).value.2] at hvalue
    exact (Option.some.inj hvalue).symm
  · obtain ⟨i, hi⟩ := List.mem_iff_getElem?.mp hline
    rw [text_of_line hi]
    exact ⟨codeText_toList bus _ _, fun d size h => lineParts_fit bus _ _ h⟩

/-- The address of the reset vector, in four columns. -/
theorem decToHex_vector : 0xFFFC < 16 ^ 4 ∧ Encodes 0xFFFC 4 ∧ decToHex 0xFFFC 4 = "FFFC" := by
  have h : 0xFFFC < 16 ^ 4 := by decide
  have hdigits : Nat.digitsAppend 16 4 0xFFFC = [12, 15, 15, 15] := by simp [Nat.digitsAppend]
  refine ⟨h, decToHex_exact.1 0xFFFC 4 h, ?_⟩
  rw [decToHex_eq h, hdigits]
  rfl

end NesEmulator.Disassembler
