import NesEmulator.Decoding
import NesEmulator.Lib.Sweep

/-!
The listing of the whole address space.

`disassemble_code` decodes from address 0 on, one instruction behind the other, and makes a
line of text for each. Its counter is wider than an address and is cut at each use.
-/

namespace NesEmulator.Disassembler

open Lib.Sweep

/-! ### Numbers -/

def hexDigit (r : ℕ) : Char :=
  if r ≤ 9 then Char.ofNat ('0'.toNat + r) else Char.ofNat ('A'.toNat + (r - 10))

/-- The first loop, with the index at which each digit is stored. -/
def digitWrites (size i d : ℕ) : List (ℤ × Char) :=
  if d > 0 then ((size : ℤ) - i - 1, hexDigit (d % 16)) :: digitWrites size (i + 1) (d / 16) else []

/-- The second loop. -/
def fillWrites (size i : ℕ) : List (ℤ × Char) :=
  if i < size then ((size : ℤ) - i - 1, '0') :: fillWrites size (i + 1) else []

def hexWrites (d size : ℕ) : List (ℤ × Char) :=
  let digits := digitWrites size 0 d
  digits ++ fillWrites size digits.length

/-- A store into the string; one outside of it has no defined effect, and is dropped. -/
def storeChar (result : List Char) (write : ℤ × Char) : List Char :=
  match write with
  | (.ofNat k, c) => result.set k c
  | (.negSucc _, _) => result

/-- No caller passes a negative number. -/
def decToHex (d size : ℕ) : String :=
  String.ofList ((hexWrites d size).foldl storeChar (List.replicate size (Char.ofNat 0)))

/-! ### Lines -/

def operandText (opcode : OpCode) : String :=
  let word := decToHex opcode.word.toNat 4
  let byte := decToHex opcode.byte.toNat 2
  match opcode.addressingMode with
  | .accumulator => "A      "
  | .absolute => "$" ++ word ++ "  "
  | .absoluteX => "$" ++ word ++ ",X"
  | .absoluteY => "$" ++ word ++ ",Y"
  | .immediate => "#$" ++ byte ++ "   "
  | .implied => "       "
  | .indirect => "($" ++ word ++ ")"
  | .indirectX => "($" ++ byte ++ ",X)"
  | .indirectY => "($" ++ byte ++ "),Y"
  | .relative => "$" ++ byte ++ "    "
  | .zeroPage => "$" ++ byte ++ "    "
  | .zeroPageX => "$" ++ byte ++ ",X  "
  | .zeroPageY => "$" ++ byte ++ ",Y  "

/-- The counter as an address. -/
def address (pc : ℕ) : U16 := BitVec.ofNat 16 pc

def memText (bus : Bus) (pc : ℕ) : String := decToHex (readMem bus (address pc)).toNat 2

/-- The text that one turn of the loop makes. -/
def codeText (bus : Bus) (pc : ℕ) (opcode : OpCode) : String :=
  decToHex (address pc).toNat 4 ++ "   " ++ memText bus pc ++ " " ++
    (if opcode.bytes ≥ 2 then memText bus (pc + 1) else "  ") ++ " " ++
    (if opcode.bytes ≥ 3 then memText bus (pc + 2) else "  ") ++ "   " ++
    getInstructionMnemonic opcode.instruction ++ " " ++ operandText opcode ++ "   ;"

/-- A turn of the loop: the counter, the instruction, and the text that is made of it. -/
structure Line where
  pc : ℕ
  opcode : OpCode
  text : String

def codeLine (bus : Bus) (pc : ℕ) : Line :=
  let opcode := getNextOpcode bus (address pc)
  { pc, opcode, text := codeText bus pc opcode }

/-- The length of the instruction at an address. -/
def lengthAt (bus : Bus) (pc : ℕ) : ℕ := (getNextOpcode bus (address pc)).bytes

lemma lengthAt_eq (bus : Bus) (pc : ℕ) :
    lengthAt bus pc = (opcodes.get (readMem bus (address pc)).toFin).bytes := by
  rw [lengthAt, getNextOpcode_eq]

lemma lengthAt_pos (bus : Bus) (pc : ℕ) : 0 < lengthAt bus pc := by
  rw [lengthAt, getNextOpcode_bytes]
  exact Nat.succ_pos _

/-- The loop from a value of the counter on. -/
def codeLines (bus : Bus) (pc : ℕ) : List Line :=
  if pc ≤ 0x10000 then codeLine bus pc :: codeLines bus (pc + (codeLine bus pc).opcode.bytes)
  else []
termination_by 0x10001 - pc
decreasing_by
  have hpos := lengthAt_pos bus pc
  change 0x10001 - (pc + lengthAt bus pc) < 0x10001 - pc
  omega

def disassembleCode (bus : Bus) : List String := (codeLines bus 0).map Line.text

/-! ### The lines as a sweep -/

lemma codeLines_sweeps (bus : Bus) :
    Sweeps (lengthAt bus) (codeLine bus) 0x10000 (codeLines bus) := by
  intro pc
  rw [codeLines]
  rfl

/-- The counter at a line. -/
def linePc (bus : Bus) (i : ℕ) : ℕ := (next (lengthAt bus))^[i] 0

theorem codeLines_getElem? (bus : Bus) (i : ℕ) : (codeLines bus 0)[i]? =
    if linePc bus i ≤ 0x10000 then some (codeLine bus (linePc bus i)) else none :=
  (codeLines_sweeps bus).getElem? (lengthAt_pos bus) 0 i

section Lines

variable {bus : Bus}

lemma linePc_succ (i : ℕ) : linePc bus (i + 1) = linePc bus i + lengthAt bus (linePc bus i) :=
  next_iterate_succ ..

lemma linePc_strictMono : StrictMono (linePc bus) := iterate_strictMono (lengthAt_pos bus) 0

lemma codeLines_eq_some {i : ℕ} {l : Line} : (codeLines bus 0)[i]? = some l ↔
    linePc bus i ≤ 0x10000 ∧ l = codeLine bus (linePc bus i) := by
  rw [codeLines_getElem?]
  split
  · next h => simp [h, eq_comm]
  · next h => simp [h]

/-- A line that is there stands at its place of the sweep. -/
lemma pc_of_line {i : ℕ} {l : Line} (h : (codeLines bus 0)[i]? = some l) :
    l.pc = linePc bus i := by
  rw [codeLines_eq_some] at h
  rw [h.2]
  rfl

/-- The instruction that a line was made from. -/
lemma opcode_of_line {i : ℕ} {l : Line} (h : (codeLines bus 0)[i]? = some l) :
    l.opcode = getNextOpcode bus (address l.pc) := by
  rw [codeLines_eq_some] at h
  rw [h.2]
  rfl

lemma text_of_line {i : ℕ} {l : Line} (h : (codeLines bus 0)[i]? = some l) :
    l.text = codeText bus l.pc l.opcode := by
  rw [codeLines_eq_some] at h
  rw [h.2]
  rfl

end Lines

end NesEmulator.Disassembler
