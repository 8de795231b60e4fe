import NesEmulator.BranchTiming

/-!
Effective addresses.

`get_operand_address` masks here, truncates there, and has a case of its own for a pointer at
the end of a page. Said with numbers, every mode has one rule, and the rules differ in what
they wrap around: a byte, a page, or the address space.
-/

namespace NesEmulator

open Lib.Bits

/-! ### The rules -/

section Rules

variable (bus : Bus)

/-- A byte of page zero. -/
def pageZero (a : ℕ) : ℕ := (readMem bus (BitVec.ofNat 16 (a % 256))).toNat

/-- A pointer that lies in page zero, around its end if it has to. -/
def zeroPointer (a : ℕ) : ℕ := pageZero bus a + 256 * pageZero bus (a + 1)

/-- A pointer that lies in one page. -/
def pagePointer (w : U16) : ℕ :=
  (readMem bus w).toNat + 256 * (readMem bus ((w &&& 0xFF00) ||| ((w + 1) &&& 0x00FF))).toNat

/-- The first and the second byte behind the opcode. -/
def firstByte : ℕ := (readMem bus (bus.cpu.programCounter + 1)).toNat
def secondByte : ℕ := (readMem bus (bus.cpu.programCounter + 2)).toNat

/-- The operand address of a mode. An offset is a number of 16 bits with its sign. -/
def effectiveAddress : AddressingMode → ℕ
  | .accumulator | .implied => 0
  | .immediate => (bus.cpu.programCounter.toNat + 1) % 65536
  | .zeroPage => firstByte bus
  | .zeroPageX => (firstByte bus + bus.cpu.x.toNat) % 256
  | .zeroPageY => (firstByte bus + bus.cpu.y.toNat) % 256
  | .absolute => firstByte bus + 256 * secondByte bus
  | .absoluteX => (firstByte bus + 256 * secondByte bus + bus.cpu.x.toNat) % 65536
  | .absoluteY => (firstByte bus + 256 * secondByte bus + bus.cpu.y.toNat) % 65536
  | .indirect => pagePointer bus (BitVec.ofNat 16 (firstByte bus + 256 * secondByte bus))
  | .indirectX => zeroPointer bus (firstByte bus + bus.cpu.x.toNat)
  | .indirectY => (zeroPointer bus (firstByte bus) + bus.cpu.y.toNat) % 65536
  | .relative => if firstByte bus < 128 then firstByte bus else 0xFF00 + firstByte bus

end Rules

/-- The modes whose operand lies in page zero. -/
def AddressingMode.inPageZero : AddressingMode → Bool
  | .zeroPage | .zeroPageX | .zeroPageY => true
  | _ => false

/-! ### Pointers -/

section Pointers

variable {bus : Bus}

/-- A word of two bytes that are read one after the other. -/
lemma toNat_readWord (a b : U16) :
    (((readMem bus b).setWidth 16 <<< 8) ||| (readMem bus a).setWidth 16).toNat =
      (readMem bus a).toNat + 256 * (readMem bus b).toNat := by
  rw [shiftLeft_or_eq_append, toNat_append, Nat.mul_comm, Nat.add_comm]

/-- A pointer in page zero, as the source reads it. -/
lemma zeroPointer_eq {a : U16} {n : ℕ} (h : a.toNat = n % 256) :
    (((readMem bus ((a + 1) &&& 0x00FF)).setWidth 16 <<< 8) |||
      (readMem bus a).setWidth 16).toNat = zeroPointer bus n := by
  have hlow : a = BitVec.ofNat 16 (n % 256) := by
    apply BitVec.eq_of_toNat_eq
    rw [h, BitVec.toNat_ofNat]
    omega
  have hhigh : (a + 1) &&& 0x00FF = BitVec.ofNat 16 ((n + 1) % 256) := by
    apply BitVec.eq_of_toNat_eq
    rw [toNat_and_byteMask, BitVec.toNat_add, h, BitVec.toNat_ofNat]
    change (n % 256 + 1) % 65536 % 256 = _
    omega
  rw [toNat_readWord, hhigh, hlow]
  rfl

/-- The byte behind an address, without leaving its page. -/
lemma nextInPage (hi lo : U8) : ((hi ++ lo : U16) &&& 0xFF00) ||| (((hi ++ lo) + 1) &&& 0x00FF) =
    if lo = 0xFF then (hi ++ lo : U16) &&& 0xFF00 else (hi ++ lo) + 1 := by
  have hhi := hi.isLt
  have hlo := lo.isLt
  have hmask : ((hi ++ lo : U16) &&& 0xFF00).toNat = 2 ^ 8 * hi.toNat := by
    rw [toNat_and_pageMask, page, toNat_append]
    omega
  have hnext : ((hi ++ lo : U16) + 1).toNat = (hi.toNat * 256 + lo.toNat + 1) % 65536 := by
    rw [BitVec.toNat_add, toNat_append]
    rfl
  have hlast : lo = 0xFF ↔ lo.toNat = 255 := by
    rw [← BitVec.toNat_inj]
    rfl
  apply BitVec.eq_of_toNat_eq
  rw [BitVec.toNat_or, hmask, toNat_and_byteMask, hnext,
    ← Nat.two_pow_add_eq_or_of_lt (Nat.mod_lt _ (by decide))]
  split
  · next h =>
    have := hlast.mp h
    omega
  · next h =>
    have := mt hlast.mpr h
    rw [hnext]
    omega

/-- **One rule**: with its case for the end of a page, the source keeps a pointer in one page. -/
lemma pagePointer_eq (hi lo : U8) :
    (if lo = 0xFF then
        ((readMem bus ((hi ++ lo : U16) &&& 0xFF00)).setWidth 16 <<< 8) |||
          (readMem bus (hi ++ lo)).setWidth 16
      else
        ((readMem bus ((hi ++ lo : U16) + 1)).setWidth 16 <<< 8) |||
          (readMem bus (hi ++ lo)).setWidth 16).toNat = pagePointer bus (hi ++ lo) := by
  rw [pagePointer, nextInPage]
  split <;> rw [toNat_readWord]

end Pointers

/-! ### What is fetched and decoded -/

section Decode

variable {bus : Bus} {mode : AddressingMode}

lemma byte_toNat (h : (fetched bus).addressingMode = mode) (hmode : 1 ≤ mode.operandBytes) :
    (fetched bus).byte.toNat = firstByte bus := by
  rw [fetched_byte h hmode]
  rfl

/-- The two operand bytes make a word, the first one below. -/
lemma word_eq (h : (fetched bus).addressingMode = mode) (hmode : 2 ≤ mode.operandBytes) :
    (fetched bus).word = readMem bus (bus.cpu.programCounter + 2) ++
      readMem bus (bus.cpu.programCounter + 1) := by
  rw [OpCode.word, fetched_ignored h hmode, fetched_byte h (by omega)]

lemma word_toNat (h : (fetched bus).addressingMode = mode) (hmode : 2 ≤ mode.operandBytes) :
    (fetched bus).word.toNat = firstByte bus + 256 * secondByte bus := by
  rw [word_eq h hmode, toNat_append, firstByte, secondByte]
  omega

lemma word_add_toNat (h : (fetched bus).addressingMode = mode) (hmode : 2 ≤ mode.operandBytes)
    (index : U8) : ((fetched bus).word + index.setWidth 16).toNat =
      (firstByte bus + 256 * secondByte bus + index.toNat) % 65536 := by
  rw [word_eq h hmode, toNat_append_add, firstByte, secondByte]

/-- **One address for every mode.** -/
theorem operandAddress_toNat (bus : Bus) :
    (operandAddress bus).toNat = effectiveAddress bus (fetched bus).addressingMode := by
  unfold operandAddress decoded getOperandAddress
  have hbyte : ∀ mode, (fetched bus).addressingMode = mode → 1 ≤ mode.operandBytes →
      (fetched bus).byte.toNat = firstByte bus := fun _ => byte_toNat
  cases hmode : (fetched bus).addressingMode
  case accumulator => rfl
  case implied => rfl
  case immediate =>
    change (bus.cpu.programCounter + 1).toNat = _
    rw [BitVec.toNat_add]
    rfl
  case absolute => exact word_toNat hmode (by decide)
  case absoluteX => exact word_add_toNat hmode (by decide) _
  case absoluteY => exact word_add_toNat hmode (by decide) _
  case zeroPage =>
    have hlt := (fetched bus).byte.isLt
    dsimp only
    rw [BitVec.toNat_setWidth, Nat.mod_eq_of_lt (by omega)]
    exact hbyte _ hmode (by decide)
  case zeroPageX =>
    dsimp only
    rw [toNat_add_and_byteMask, hbyte _ hmode (by decide)]
    rfl
  case zeroPageY =>
    dsimp only
    rw [toNat_add_and_byteMask, hbyte _ hmode (by decide)]
    rfl
  case indirect =>
    have hword := word_eq hmode (by decide)
    have hpointer :
        BitVec.ofNat 16 (firstByte bus + 256 * secondByte bus) = (fetched bus).word := by
      rw [← word_toNat hmode (by decide)]
      exact BitVec.ofNat_toNat _ _
    rw [effectiveAddress, hpointer, hword, ← pagePointer_eq, ← hword,
      ← fetched_byte hmode (by decide)]
    dsimp only
    simp only [readMem_skip]
    split <;> rfl
  case indirectX =>
    dsimp only
    simp only [readMem_skip]
    refine zeroPointer_eq ?_
    rw [toNat_add_and_byteMask, hbyte _ hmode (by decide)]
    rfl
  case indirectY =>
    have hlt := (fetched bus).byte.isLt
    have hpointer : (((readMem bus (((fetched bus).byte.setWidth 16 + 1) &&& 0x00FF)).setWidth 16
          <<< 8) ||| (readMem bus ((fetched bus).byte.setWidth 16)).setWidth 16).toNat =
        zeroPointer bus (firstByte bus) := by
      refine zeroPointer_eq ?_
      rw [← hbyte _ hmode (by decide), BitVec.toNat_setWidth]
      omega
    have hindex := bus.cpu.y.isLt
    dsimp only
    simp only [readMem_skip]
    rw [BitVec.toNat_add, hpointer, BitVec.toNat_setWidth]
    change (_ + bus.cpu.y.toNat % 65536) % 65536 = _
    rw [effectiveAddress]
    omega
  case relative =>
    dsimp only
    rw [signExtend_offset, toNat_signExtend, hbyte _ hmode (by decide)]
    rfl

end Decode

/-- **Effective addresses.** What is fetched and decoded is the address of the rule for the mode;
the modes for page zero stay there, and the program counter ends behind the instruction. -/
theorem effective_addresses (bus : Bus) :
    (operandAddress bus).toNat = effectiveAddress bus (fetched bus).addressingMode ∧
      ((fetched bus).addressingMode.inPageZero = true → (operandAddress bus).toNat < 256) ∧
      (steppedOver bus).cpu.programCounter =
        bus.cpu.programCounter + BitVec.ofNat 16 (fetched bus).bytes := by
  refine ⟨operandAddress_toNat bus, fun hzero => ?_, ?_⟩
  · rw [operandAddress_toNat]
    cases hmode : (fetched bus).addressingMode
    case zeroPage => exact (readMem bus (bus.cpu.programCounter + 1)).isLt
    case zeroPageX => exact Nat.mod_lt _ (by decide)
    case zeroPageY => exact Nat.mod_lt _ (by decide)
    all_goals simp [hmode, AddressingMode.inPageZero] at hzero
  · rw [steppedOver_eq]
    rfl

end NesEmulator
