import NesEmulator.Arithmetic
import NesEmulator.Lib.Runs

/-!
Arithmetic on numbers of several bytes.

The carry flag takes the carry, or the missing borrow, from one byte to the next; loads and
stores leave it alone. A chain of additions or subtractions is one addition or subtraction
of little-endian numbers, and the flags behind it are those of the whole number.
-/

namespace NesEmulator

open Lib.LittleEndian Lib.Runs

/-- Where a byte of each operand lies, and where the byte of the result goes. -/
structure ByteCells where
  x : U16
  y : U16
  z : U16

/-- Storing the result of `c` disturbs neither the reading nor the result of `d`. -/
def ByteCells.Apart (c d : ByteCells) : Prop :=
  ramCell c.z ≠ ramCell d.z ∧ ramCell c.z ≠ ramCell d.x ∧ ramCell c.z ≠ ramCell d.y

def ByteCells.InRam (c : ByteCells) : Prop :=
  c.x.toNat < 0x2000 ∧ c.y.toNat < 0x2000 ∧ c.z.toNat < 0x2000

/-- Two numbers in RAM and the place of their result, the lowest bytes first. -/
structure Operands where
  cells : List ByteCells
  nonempty : cells ≠ []
  inRam : ∀ c ∈ cells, c.InRam
  apart : cells.Pairwise ByteCells.Apart

/-- Two bytes of the zero page, and another two, with the result in the place of the first. -/
example : Operands :=
  ⟨[⟨0x10, 0x20, 0x10⟩, ⟨0x11, 0x21, 0x11⟩], by decide, by unfold ByteCells.InRam; decide,
    by unfold ByteCells.Apart; decide⟩

/-- The bytes that the addresses show. -/
def bytesAt (bus : Bus) (addrs : List U16) : List U8 := addrs.map (readMem bus)

namespace Operands

variable (ops : Operands)

def xs (bus : Bus) : List U8 := bytesAt bus (ops.cells.map ByteCells.x)
def ys (bus : Bus) : List U8 := bytesAt bus (ops.cells.map ByteCells.y)
def zs (bus : Bus) : List U8 := bytesAt bus (ops.cells.map ByteCells.z)

end Operands

/-! ### One byte -/

/-- `lda_fn`, the arithmetic instruction and `sta_fn`. -/
def chainByte (fn : Bus → U16 → Bus) (bus : Bus) (c : ByteCells) : Bus :=
  staFn (fn (ldaFn bus c.x) c.y) c.z

section Chain

-- what `adc_fn` and `sbc_fn` do with the byte that they read
variable {fn : Bus → U16 → Bus} {f : U8 → U8}
  (hfn : ∀ bus a, fn bus a = addWithCarry bus ((f (readMem bus a)).setWidth 16))

/-- The byte that goes into the result. -/
def chainSum (f : U8 → U8) (bus : Bus) (c : ByteCells) : U8 :=
  readMem bus c.x + f (readMem bus c.y) + bus.cpu.carry

/-- A load leaves the carry alone. -/
lemma ldaFn_carryFlag (bus : Bus) (a : U16) :
    (ldaFn bus a).cpu.flag .carryFlag = bus.cpu.flag .carryFlag := by
  simp [ldaFn]

lemma sumByte_ldaFn (bus : Bus) (c : ByteCells) :
    sumByte (ldaFn bus c.x).cpu (f (readMem bus c.y)) = chainSum f bus c := by
  rw [sumByte, chainSum, CPU.carry, CPU.carry, ldaFn_carryFlag]
  rfl

include hfn

lemma chainByte_eq (bus : Bus) (c : ByteCells) : chainByte fn bus c =
    staFn (addWithCarry (ldaFn bus c.x) ((f (readMem bus c.y)).setWidth 16)) c.z := by
  rw [chainByte, hfn]
  rfl

lemma chainByte_cpuRam (bus : Bus) {c : ByteCells} (hc : c.InRam) :
    (chainByte fn bus c).cpuRam =
      Function.update bus.cpuRam (ramCell c.z) (chainSum f bus c) := by
  rw [chainByte_eq hfn, staFn, writeMem_of_lt _ hc.2.2, addWithCarry_accumulator, sumByte_ldaFn]
  rfl

lemma chainByte_carry (bus : Bus) (c : ByteCells) :
    (chainByte fn bus c).cpu.flag .carryFlag =
      BitVec.carry 8 (readMem bus c.x) (f (readMem bus c.y)) (bus.cpu.flag .carryFlag) := by
  rw [chainByte_eq hfn, staFn, writeMem_cpu, addWithCarry_carry, ldaFn_carryFlag]
  rfl

lemma chainByte_overflow (bus : Bus) (c : ByteCells) :
    (chainByte fn bus c).cpu.flag .overflowFlag =
      overflows (readMem bus c.x).msb (f (readMem bus c.y)).msb (chainSum f bus c).msb := by
  rw [chainByte_eq hfn, staFn, writeMem_cpu, addWithCarry_overflow, sumByte_ldaFn]
  rfl

lemma chainByte_negative (bus : Bus) (c : ByteCells) :
    (chainByte fn bus c).cpu.flag .negativeFlag = (chainSum f bus c).msb := by
  rw [chainByte_eq hfn, staFn, writeMem_cpu, addWithCarry_negative, sumByte_ldaFn]

lemma readMem_chainByte (bus : Bus) {c : ByteCells} (hc : c.InRam) {a : U16}
    (ha : a.toNat < 0x2000) (hne : ramCell c.z ≠ ramCell a) :
    readMem (chainByte fn bus c) a = readMem bus a := by
  rw [readMem_of_le (by omega), readMem_of_le (by omega), chainByte_cpuRam hfn bus hc]
  exact Function.update_of_ne hne.symm ..

/-! ### Many bytes -/

/-- The bytes that a chain adds. -/
def chainPairs (f : U8 → U8) (bus : Bus) (cells : List ByteCells) : List (U8 × U8) :=
  cells.map fun c => (readMem bus c.x, f (readMem bus c.y))

/-- A store at the head of a chain is not seen by the bytes that follow. -/
lemma chainPairs_chainByte (bus : Bus) {c : ByteCells} {cells : List ByteCells} (hc : c.InRam)
    (hram : ∀ d ∈ cells, d.InRam) (hapart : ∀ d ∈ cells, c.Apart d) :
    chainPairs f (chainByte fn bus c) cells = chainPairs f bus cells := by
  refine List.map_congr_left fun d hd => ?_
  obtain ⟨-, hx, hy⟩ := hapart d hd
  rw [readMem_chainByte hfn bus hc (hram d hd).1 hx,
    readMem_chainByte hfn bus hc (hram d hd).2.1 hy]

/-- The byte at the head of a chain is still there at its end. -/
lemma readMem_run_head (bus : Bus) {c : ByteCells} {cells : List ByteCells} (hc : c.InRam)
    (hram : ∀ d ∈ cells, d.InRam) (hapart : ∀ d ∈ cells, c.Apart d) :
    readMem (run (chainByte fn) (chainByte fn bus c) cells) c.z = chainSum f bus c := by
  have hz := hc.2.2
  have hkeep := run_frame (chainByte fn) (fun bus => readMem bus c.z) cells
    (fun d hd bus => readMem_chainByte hfn bus (hram d hd) hz (hapart d hd).1.symm)
    (chainByte fn bus c)
  rw [hkeep, readMem_of_le (by omega), chainByte_cpuRam hfn bus hc]
  exact Function.update_self ..

/-- **A chain of additions** puts the digits of the sum into the result, and leaves the carry, the
overflow and the sign of the whole. -/
theorem run_chainByte (bus : Bus) {cells : List ByteCells} (hram : ∀ c ∈ cells, c.InRam)
    (hapart : cells.Pairwise ByteCells.Apart) :
    let ps := chainPairs f bus cells
    let sum := add (bus.cpu.flag .carryFlag) ps
    let after := run (chainByte fn) bus cells
    bytesAt after (cells.map ByteCells.z) = sum.1 ∧ after.cpu.flag .carryFlag = sum.2 ∧
      (cells ≠ [] → after.cpu.flag .negativeFlag = sign sum.1 ∧ after.cpu.flag .overflowFlag =
        overflows (sign (ps.map Prod.fst)) (sign (ps.map Prod.snd)) (sign sum.1)) := by
  induction cells generalizing bus with
  | nil => exact ⟨rfl, rfl, fun h => absurd rfl h⟩
  | cons c cells ih =>
    rw [List.forall_mem_cons] at hram
    rw [List.pairwise_cons] at hapart
    have hhead := readMem_run_head hfn bus hram.1 hram.2 hapart.1
    obtain ⟨hbytes, hcarry, hflags⟩ := ih (chainByte fn bus c) hram.2 hapart.2
    rw [chainPairs_chainByte hfn bus hram.1 hram.2 hapart.1, chainByte_carry hfn]
      at hbytes hcarry hflags
    refine ⟨congrArg₂ List.cons hhead hbytes, hcarry, fun _ => ?_⟩
    rcases eq_or_ne cells [] with rfl | hne
    · exact ⟨chainByte_negative hfn bus c, chainByte_overflow hfn bus c⟩
    · obtain ⟨hnegative, hoverflow⟩ := hflags hne
      -- the signs are those of the bytes that follow
      have hpairs : chainPairs f bus cells ≠ [] := by simpa [chainPairs] using hne
      have hsum : (add (BitVec.carry 8 (readMem bus c.x) (f (readMem bus c.y))
          (bus.cpu.flag .carryFlag)) (chainPairs f bus cells)).1 ≠ [] := by
        rw [← List.length_pos_iff, add_length]
        exact List.length_pos_iff.mpr hpairs
      rw [chainPairs, List.map_cons, ← chainPairs, add_cons, List.map_cons, List.map_cons,
        sign_cons hsum, sign_cons (by simpa using hpairs), sign_cons (by simpa using hpairs)]
      exact ⟨hnegative, hoverflow⟩

end Chain

/-! ### Addition, subtraction and comparison -/

namespace Operands

variable (ops : Operands) (bus : Bus)

/-- `clc_fn`, and `adc_fn` for byte after byte. -/
def added : Bus := run (chainByte adcFn) (clcFn bus 0) ops.cells

/-- `sec_fn`, and `sbc_fn` for byte after byte. -/
def subtracted : Bus := run (chainByte sbcFn) (secFn bus 0) ops.cells

/-- The same with `cmp_fn` for the lowest byte, whose result is not stored. -/
def compared : Bus :=
  match ops.cells with
  | [] => bus
  | c :: cells => run (chainByte sbcFn) (cmpFn (ldaFn bus c.x) c.y) cells

/-- The chain adds. -/
structure Adds : Prop where
  sum : value (ops.zs (ops.added bus)) +
    ((ops.added bus).cpu.flag .carryFlag).toNat * 256 ^ ops.cells.length =
      value (ops.xs bus) + value (ops.ys bus)
  overflow : (ops.added bus).cpu.flag .overflowFlag = true ↔
    ¬ Fits 8 ops.cells.length (signed (ops.xs bus) + signed (ops.ys bus))
  negative : (ops.added bus).cpu.flag .negativeFlag = sign (ops.zs (ops.added bus))

/-- The chain subtracts, and compares. -/
structure Subtracts : Prop where
  difference : (value (ops.zs (ops.subtracted bus)) : ℤ) =
    ((value (ops.xs bus) : ℤ) - value (ops.ys bus)) % 256 ^ ops.cells.length
  carry : (ops.subtracted bus).cpu.flag .carryFlag = true ↔
    value (ops.ys bus) ≤ value (ops.xs bus)
  overflow : (ops.subtracted bus).cpu.flag .overflowFlag = true ↔
    ¬ Fits 8 ops.cells.length (signed (ops.xs bus) - signed (ops.ys bus))
  less : ((ops.subtracted bus).cpu.flag .negativeFlag !=
      (ops.subtracted bus).cpu.flag .overflowFlag) = true ↔
    signed (ops.xs bus) < signed (ops.ys bus)

/-- The comparison gives the flags of the subtraction. -/
structure Compares : Prop where
  carry : (ops.compared bus).cpu.flag .carryFlag = (ops.subtracted bus).cpu.flag .carryFlag
  negative : 2 ≤ ops.cells.length →
    (ops.compared bus).cpu.flag .negativeFlag = (ops.subtracted bus).cpu.flag .negativeFlag
  overflow : 2 ≤ ops.cells.length →
    (ops.compared bus).cpu.flag .overflowFlag = (ops.subtracted bus).cpu.flag .overflowFlag

/-- The pairs of bytes of the two operands. -/
def pairs : List (U8 × U8) := chainPairs id bus ops.cells

variable {ops bus}

variable (ops bus) in
lemma pairs_ne_nil : ops.pairs bus ≠ [] := by
  simpa [pairs, chainPairs] using ops.nonempty

@[simp] lemma pairs_length : (ops.pairs bus).length = ops.cells.length := List.length_map _

@[simp] lemma map_fst_pairs : (ops.pairs bus).map Prod.fst = ops.xs bus := by
  simp [pairs, chainPairs, xs, bytesAt]

@[simp] lemma map_snd_pairs : (ops.pairs bus).map Prod.snd = ops.ys bus := by
  simp [pairs, chainPairs, ys, bytesAt]

lemma chainPairs_not (cells : List ByteCells) : chainPairs (~~~·) bus cells =
    (chainPairs id bus cells).map fun p => (p.1, ~~~p.2) := by
  simp [chainPairs]

lemma adcFn_eq (bus : Bus) (a : U16) :
    adcFn bus a = addWithCarry bus ((id (readMem bus a)).setWidth 16) := rfl

lemma bound_eq (n : ℕ) : bound 8 n = 256 ^ n := rfl

theorem adds : ops.Adds bus := by
  obtain ⟨hbytes, hcarry, hflags⟩ := run_chainByte adcFn_eq (clcFn bus 0) ops.inRam ops.apart
  obtain ⟨hnegative, hoverflow⟩ := hflags ops.nonempty
  have hclear : (clcFn bus 0).cpu.flag .carryFlag = false := by simp [clcFn, putFlagFn]
  have hpairs : chainPairs id (clcFn bus 0) ops.cells = ops.pairs bus := rfl
  rw [hclear, hpairs] at hbytes hcarry hnegative hoverflow
  have hsum := value_add (show 0 < 8 by decide) false (ops.pairs bus)
  have hfits := overflows_add (show 0 < 8 by decide) false (pairs_ne_nil ops bus)
  simp only [map_fst_pairs, map_snd_pairs, pairs_length, Bool.toNat_false, Nat.add_zero] at *
  refine ⟨?_, ?_, ?_⟩
  · rw [zs, added, hbytes, hcarry, Nat.mul_comm, ← bound_eq, hsum]
  · rw [added, hoverflow, hfits]
    simp
  · rw [zs, added, hbytes, hnegative]

theorem subtracts : ops.Subtracts bus := by
  obtain ⟨hbytes, hcarry, hflags⟩ := run_chainByte sbcFn_eq (secFn bus 0) ops.inRam ops.apart
  obtain ⟨hnegative, hoverflow⟩ := hflags ops.nonempty
  have hset : (secFn bus 0).cpu.flag .carryFlag = true := by simp [secFn, putFlagFn]
  have hpairs : chainPairs (~~~·) (secFn bus 0) ops.cells =
      (ops.pairs bus).map fun p => (p.1, ~~~p.2) := chainPairs_not ops.cells
  have hys : ops.ys bus ≠ [] := by simpa [ys, bytesAt] using ops.nonempty
  rw [hset, hpairs, ← sub] at hbytes hcarry hnegative hoverflow
  rw [map_fst_not, map_snd_not, map_fst_pairs, map_snd_pairs, sign_not (by decide) hys] at hoverflow
  have hw : 0 < 8 := by decide
  have hemod := value_sub_emod hw (ops.pairs bus)
  have hborrow := sub_carry_iff hw (ops.pairs bus)
  have hfits := overflows_sub hw (pairs_ne_nil ops bus)
  have hless := signed_lt_iff hw (pairs_ne_nil ops bus)
  simp only [map_fst_pairs, map_snd_pairs, pairs_length] at hemod hborrow hfits hless
  refine ⟨?_, ?_, ?_, ?_⟩
  · rw [zs, subtracted, hbytes, hemod, bound_eq]
    norm_cast
  · rw [subtracted, hcarry, hborrow]
  · rw [subtracted, hoverflow, hfits]
  · rw [subtracted, hnegative, hoverflow, hless]

/-- Behind the lowest byte there is the same carry, and the bytes that follow are the same. -/
lemma compared_start (bus : Bus) {c : ByteCells} {cells : List ByteCells} (hc : c.InRam)
    (hram : ∀ d ∈ cells, d.InRam) (hapart : ∀ d ∈ cells, c.Apart d) :
    (cmpFn (ldaFn bus c.x) c.y).cpu.flag .carryFlag =
        (chainByte sbcFn (secFn bus 0) c).cpu.flag .carryFlag ∧
      chainPairs (~~~·) (cmpFn (ldaFn bus c.x) c.y) cells =
        chainPairs (~~~·) (chainByte sbcFn (secFn bus 0) c) cells := by
  have hset : (secFn bus 0).cpu.flag .carryFlag = true := by simp [secFn, putFlagFn]
  refine ⟨?_, ?_⟩
  · rw [chainByte_carry sbcFn_eq, hset, cmpFn, compare_carry]
    rfl
  · rw [chainPairs_chainByte sbcFn_eq _ hc hram hapart]
    rfl

theorem compares : ops.Compares bus := by
  obtain ⟨cells, hne, hram, hapart⟩ := ops
  cases cells with
  | nil => exact absurd rfl hne
  | cons c cells =>
    rw [List.forall_mem_cons] at hram
    rw [List.pairwise_cons] at hapart
    obtain ⟨hcarry, hpairs⟩ := compared_start bus hram.1 hram.2 hapart.1
    obtain ⟨-, hcarryC, hflagsC⟩ :=
      run_chainByte sbcFn_eq (cmpFn (ldaFn bus c.x) c.y) hram.2 hapart.2
    obtain ⟨-, hcarryS, hflagsS⟩ :=
      run_chainByte sbcFn_eq (chainByte sbcFn (secFn bus 0) c) hram.2 hapart.2
    rw [hcarry, hpairs] at hcarryC hflagsC
    have hmore : 2 ≤ (c :: cells).length → cells ≠ [] := by
      rintro hlen rfl
      simp at hlen
    refine ⟨hcarryC.trans hcarryS.symm, fun hlen => ?_, fun hlen => ?_⟩
    · exact (hflagsC (hmore hlen)).1.trans (hflagsS (hmore hlen)).1.symm
    · exact (hflagsC (hmore hlen)).2.trans (hflagsS (hmore hlen)).2.symm

end Operands

/-- **Multi-byte arithmetic.** A chain of ADC adds two numbers of any length, a chain of SBC
subtracts them, and a CMP in the place of the lowest SBC gives the same comparison. -/
theorem multi_byte_arithmetic (ops : Operands) (bus : Bus) :
    ops.Adds bus ∧ ops.Subtracts bus ∧ ops.Compares bus :=
  ⟨Operands.adds, Operands.subtracts, Operands.compares⟩

end NesEmulator
