import NesEmulator.MultiByteArithmetic

/-!
Shifts and rotates of numbers of several bytes.

The carry flag takes the bit that leaves one byte to the next one. Every shift and rotate
has a function for memory and one for the accumulator, and a byte that is loaded, shifted in
the accumulator and stored again makes no difference to memory or to the flags.
-/

namespace NesEmulator

open Lib.LittleEndian Lib.Runs

/-! ### The shifts and rotates -/

/-- A shift or rotate: its two functions, and what both make of a byte and the carry. -/
structure Shift where
  fn : Bus → U16 → Bus
  accFn : Bus → U16 → Bus
  digit : U8 → Bool → U8
  out : U8 → Bool
  fn_eq : ∀ bus a, fn bus a =
    putShifted bus a (digit (readMem bus a) (bus.cpu.flag .carryFlag)) (out (readMem bus a))
  accFn_eq : ∀ bus a, accFn bus a =
    putShiftedAcc bus (digit bus.cpu.accumulator (bus.cpu.flag .carryFlag))
      (out bus.cpu.accumulator)

lemma rolDigit_false (v : U8) : rolDigit v false = v <<< 1 := by
  revert v
  decide

lemma rorDigit_false (v : U8) : rorDigit v false = v >>> 1 := by
  revert v
  decide

namespace Shift

def asl : Shift where
  fn := aslFn
  accFn := aslAccFn
  digit v _ := rolDigit v false
  out v := v.msb
  fn_eq bus a := by rw [rolDigit_false, ← and_0x80_bne]; rfl
  accFn_eq bus a := by rw [rolDigit_false, ← and_0x80_bne]; rfl

def rol : Shift where
  fn := rolFn
  accFn := rolAccFn
  digit := rolDigit
  out v := v.msb
  fn_eq bus a := by rw [← and_0x80_bne]; rfl
  accFn_eq bus a := by rw [← and_0x80_bne]; rfl

def lsr : Shift where
  fn := lsrFn
  accFn := lsrAccFn
  digit v _ := rorDigit v false
  out v := v.getLsbD 0
  fn_eq bus a := by rw [rorDigit_false, ← and_0x01_bne]; rfl
  accFn_eq bus a := by rw [rorDigit_false, ← and_0x01_bne]; rfl

def ror : Shift where
  fn := rorFn
  accFn := rorAccFn
  digit := rorDigit
  out v := v.getLsbD 0
  fn_eq bus a := by rw [← and_0x01_bne]; rfl
  accFn_eq bus a := by rw [← and_0x01_bne]; rfl

end Shift

/-! ### One byte -/

section Byte

/-- A byte in memory, in place or through the accumulator. -/
def Shift.byte (s : Shift) (viaAcc : U16 → Bool) (bus : Bus) (a : U16) : Bus :=
  if viaAcc a then staFn (s.accFn (ldaFn bus a) 0) a else s.fn bus a

/-- The byte that a shift leaves. -/
def Shift.left (s : Shift) (bus : Bus) (a : U16) : U8 :=
  s.digit (readMem bus a) (bus.cpu.flag .carryFlag)

variable (s : Shift) (viaAcc : U16 → Bool) (bus : Bus) {a : U16}

lemma accFn_ldaFn (a : U16) :
    s.accFn (ldaFn bus a) 0 = putShiftedAcc (ldaFn bus a) (s.left bus a) (s.out (readMem bus a)) := by
  rw [s.accFn_eq, ldaFn_carryFlag]
  rfl

/-- On both ways the same byte is stored. -/
lemma byte_cpuRam (ha : a.toNat < 0x2000) : (s.byte viaAcc bus a).cpuRam =
    Function.update bus.cpuRam (ramCell a) (s.left bus a) := by
  unfold Shift.byte
  split
  · rw [accFn_ldaFn, staFn, writeMem_of_lt _ ha, putShiftedAcc_accumulator]
    rfl
  · rw [s.fn_eq, putShifted_cpuRam, writeMem_of_lt _ ha]
    rfl

/-- On both ways the flags are the same. -/
lemma byte_flag (a : U16) (f : StatusFlags) : (s.byte viaAcc bus a).cpu.flag f =
    if f = .negativeFlag then (s.left bus a).msb else if f = .zeroFlag then s.left bus a == 0
    else if f = .carryFlag then s.out (readMem bus a) else bus.cpu.flag f := by
  unfold Shift.byte
  split
  · rw [accFn_ldaFn, staFn, writeMem_cpu, putShiftedAcc_flag]
    cases f <;> simp [ldaFn]
  · rw [s.fn_eq, putShifted_flag]
    rfl

lemma byte_carry (a : U16) :
    (s.byte viaAcc bus a).cpu.flag .carryFlag = s.out (readMem bus a) := by
  rw [byte_flag]
  rfl

/-- The bytes of the other cells stay. -/
lemma readMem_byte (ha : a.toNat < 0x2000) {b : U16} (hb : b.toNat < 0x2000)
    (hne : ramCell a ≠ ramCell b) : readMem (s.byte viaAcc bus a) b = readMem bus b := by
  rw [readMem_of_le (by omega), readMem_of_le (by omega), byte_cpuRam s viaAcc bus ha]
  exact Function.update_of_ne hne.symm ..

end Byte

/-! ### Byte after byte -/

/-- An instruction for the first byte, and one for each of the others. -/
def chain (first rest : Shift) (viaAcc : U16 → Bool) (bus : Bus) : List U16 → Bus
  | [] => bus
  | a :: cells => run (rest.byte viaAcc) (first.byte viaAcc bus a) cells

section Chain

variable {viaAcc : U16 → Bool} {bus : Bus} {a : U16} {cells : List U16}

/-- A shift at the head is not seen by the bytes that follow. -/
lemma bytesAt_byte (s : Shift) (ha : a.toNat < 0x2000) (hram : ∀ b ∈ cells, b.toNat < 0x2000)
    (hne : ∀ b ∈ cells, ramCell a ≠ ramCell b) :
    bytesAt (s.byte viaAcc bus a) cells = bytesAt bus cells :=
  List.map_congr_left fun b hb => readMem_byte s viaAcc bus ha (hram b hb) (hne b hb)

/-- The byte at the head is still there at the end. -/
lemma readMem_run_byte (s rest : Shift) (ha : a.toNat < 0x2000)
    (hram : ∀ b ∈ cells, b.toNat < 0x2000) (hne : ∀ b ∈ cells, ramCell a ≠ ramCell b) :
    readMem (run (rest.byte viaAcc) (s.byte viaAcc bus a) cells) a = s.left bus a := by
  have hkeep := run_frame (rest.byte viaAcc) (fun bus => readMem bus a) cells
    (fun b hb bus => readMem_byte rest viaAcc bus (hram b hb) ha (hne b hb).symm)
    (s.byte viaAcc bus a)
  rw [hkeep, readMem_of_le (by omega), byte_cpuRam s viaAcc bus ha]
  exact Function.update_self ..

/-- **A chain of rotates** sends the carry through the bytes. -/
theorem run_byte (s : Shift) (viaAcc : U16 → Bool) (bus : Bus) (hram : ∀ a ∈ cells, a.toNat < 0x2000)
    (hdistinct : cells.Pairwise (ramCell · ≠ ramCell ·)) :
    bytesAt (run (s.byte viaAcc) bus cells) cells =
        (ripple s.digit s.out (bus.cpu.flag .carryFlag) (bytesAt bus cells)).1 ∧
      (run (s.byte viaAcc) bus cells).cpu.flag .carryFlag =
        (ripple s.digit s.out (bus.cpu.flag .carryFlag) (bytesAt bus cells)).2 := by
  induction cells generalizing bus with
  | nil => exact ⟨rfl, rfl⟩
  | cons a cells ih =>
    rw [List.forall_mem_cons] at hram
    rw [List.pairwise_cons] at hdistinct
    have hhead : readMem (run (s.byte viaAcc) (s.byte viaAcc bus a) cells) a = s.left bus a :=
      readMem_run_byte s s hram.1 hram.2 hdistinct.1
    have hrest : bytesAt (s.byte viaAcc bus a) cells = bytesAt bus cells :=
      bytesAt_byte s hram.1 hram.2 hdistinct.1
    obtain ⟨hbytes, hcarry⟩ := ih (s.byte viaAcc bus a) hram.2 hdistinct.2
    rw [byte_carry, hrest] at hbytes hcarry
    exact ⟨congrArg₂ List.cons hhead hbytes, hcarry⟩

/-- **A chain** is one of its second instruction, but for the bit that goes into the first byte. -/
theorem chain_bytes {first : Shift} (rest : Shift) (viaAcc : U16 → Bool) (bus : Bus)
    {enters : Bool → Bool} (hdigit : ∀ v c, first.digit v c = rest.digit v (enters c))
    (hout : first.out = rest.out) (hne : cells ≠ []) (hram : ∀ a ∈ cells, a.toNat < 0x2000)
    (hdistinct : cells.Pairwise (ramCell · ≠ ramCell ·)) :
    bytesAt (chain first rest viaAcc bus cells) cells =
        (ripple rest.digit rest.out (enters (bus.cpu.flag .carryFlag)) (bytesAt bus cells)).1 ∧
      (chain first rest viaAcc bus cells).cpu.flag .carryFlag =
        (ripple rest.digit rest.out (enters (bus.cpu.flag .carryFlag)) (bytesAt bus cells)).2 := by
  cases cells with
  | nil => exact absurd rfl hne
  | cons a cells =>
    rw [List.forall_mem_cons] at hram
    rw [List.pairwise_cons] at hdistinct
    have hhead : readMem (run (rest.byte viaAcc) (first.byte viaAcc bus a) cells) a =
        rest.digit (readMem bus a) (enters (bus.cpu.flag .carryFlag)) := by
      rw [readMem_run_byte first rest hram.1 hram.2 hdistinct.1, Shift.left, hdigit]
    obtain ⟨hbytes, hcarry⟩ := run_byte rest viaAcc (first.byte viaAcc bus a) hram.2 hdistinct.2
    rw [byte_carry, bytesAt_byte first hram.1 hram.2 hdistinct.1, hout] at hbytes hcarry
    exact ⟨congrArg₂ List.cons hhead hbytes, hcarry⟩

end Chain

/-! ### In place or through the accumulator -/

/-- Memory and the flags are the same. -/
structure SameResult (b c : Bus) : Prop where
  cpuRam : b.cpuRam = c.cpuRam
  flag : ∀ f, b.cpu.flag f = c.cpu.flag f

lemma SameResult.byte {b c : Bus} (h : SameResult b c) (s : Shift) (viaAcc viaAcc' : U16 → Bool)
    {a : U16} (ha : a.toNat < 0x2000) :
    SameResult (s.byte viaAcc b a) (s.byte viaAcc' c a) := by
  have hread : readMem b a = readMem c a := by
    rw [readMem_of_le (by omega), readMem_of_le (by omega), h.cpuRam]
  have hleft : s.left b a = s.left c a := by rw [Shift.left, Shift.left, hread, h.flag]
  refine ⟨?_, fun f => ?_⟩
  · rw [byte_cpuRam s viaAcc b ha, byte_cpuRam s viaAcc' c ha, h.cpuRam, hleft]
  · rw [byte_flag, byte_flag, hread, hleft, h.flag]

lemma SameResult.run {b c : Bus} (h : SameResult b c) (s : Shift) (viaAcc viaAcc' : U16 → Bool)
    {cells : List U16} (hram : ∀ a ∈ cells, a.toNat < 0x2000) :
    SameResult (run (s.byte viaAcc) b cells) (run (s.byte viaAcc') c cells) := by
  induction cells generalizing b c with
  | nil => exact h
  | cons a cells ih =>
    rw [List.forall_mem_cons] at hram
    exact ih (h.byte s viaAcc viaAcc' hram.1) hram.2

/-- **Each byte** of a chain may go either way. -/
theorem SameResult.chain {b c : Bus} (h : SameResult b c) (first rest : Shift)
    (viaAcc viaAcc' : U16 → Bool) {cells : List U16} (hram : ∀ a ∈ cells, a.toNat < 0x2000) :
    SameResult (chain first rest viaAcc b cells) (chain first rest viaAcc' c cells) := by
  cases cells with
  | nil => exact h
  | cons a cells =>
    rw [List.forall_mem_cons] at hram
    exact (h.byte first viaAcc viaAcc' hram.1).run rest viaAcc viaAcc' hram.2

/-! ### A number -/

/-- A number in RAM, the lowest byte first. -/
structure RamNumber where
  cells : List U16
  nonempty : cells ≠ []
  inRam : ∀ a ∈ cells, a.toNat < 0x2000
  distinct : cells.Pairwise (ramCell · ≠ ramCell ·)

/-- Two bytes of the zero page. -/
example : RamNumber := ⟨[0x10, 0x11], by simp, by simp, by simp [ramCell]⟩

namespace RamNumber

variable (n : RamNumber)

def bytes (bus : Bus) : List U8 := bytesAt bus n.cells
def value (bus : Bus) : ℕ := Lib.LittleEndian.value (n.bytes bus)

/-- From the lowest byte upwards. -/
def upwards (first rest : Shift) (viaAcc : U16 → Bool) (bus : Bus) : Bus :=
  chain first rest viaAcc bus n.cells

/-- From the highest byte downwards. -/
def downwards (first rest : Shift) (viaAcc : U16 → Bool) (bus : Bus) : Bus :=
  chain first rest viaAcc bus n.cells.reverse

/-- No byte goes through the accumulator. -/
def inPlace : U16 → Bool := fun _ => false

variable (viaAcc viaAcc' : U16 → Bool) (bus : Bus)

/-- ASL and ROL upwards double the number, LSR and ROR downwards halve it. -/
structure Shifts : Prop where
  doubled : n.value (n.upwards .asl .rol viaAcc bus) = 2 * n.value bus % 256 ^ n.cells.length
  topBit : (n.upwards .asl .rol viaAcc bus).cpu.flag .carryFlag =
    (n.value bus).testBit (8 * n.cells.length - 1)
  halved : n.value (n.downwards .lsr .ror viaAcc bus) = n.value bus / 2
  lowestBit : (n.downwards .lsr .ror viaAcc bus).cpu.flag .carryFlag = (n.value bus).testBit 0

/-- ROL upwards rotates the number through the carry, and ROR downwards rotates it back. -/
structure Rotates : Prop where
  rotated : n.value (n.upwards .rol .rol viaAcc bus) =
    (2 * n.value bus + (bus.cpu.flag .carryFlag).toNat) % 256 ^ n.cells.length
  topBit : (n.upwards .rol .rol viaAcc bus).cpu.flag .carryFlag =
    (n.value bus).testBit (8 * n.cells.length - 1)
  restored : n.bytes (n.downwards .ror .ror viaAcc' (n.upwards .rol .rol viaAcc bus)) = n.bytes bus
  carryRestored : (n.downwards .ror .ror viaAcc' (n.upwards .rol .rol viaAcc bus)).cpu.flag
    .carryFlag = bus.cpu.flag .carryFlag

/-- Through the accumulator or in place, the results are the same. -/
structure SameThroughAccumulator : Prop where
  doubled : SameResult (n.upwards .asl .rol viaAcc bus) (n.upwards .asl .rol inPlace bus)
  halved : SameResult (n.downwards .lsr .ror viaAcc bus) (n.downwards .lsr .ror inPlace bus)
  rotated : SameResult (n.upwards .rol .rol viaAcc bus) (n.upwards .rol .rol inPlace bus)
  restored : SameResult (n.downwards .ror .ror viaAcc' (n.upwards .rol .rol viaAcc bus))
    (n.downwards .ror .ror inPlace (n.upwards .rol .rol inPlace bus))

lemma bytes_ne_nil : n.bytes bus ≠ [] := by
  simpa [bytes, bytesAt] using n.nonempty

@[simp] lemma bytes_length : (n.bytes bus).length = n.cells.length := List.length_map _

/-- The bytes of the number and the carry. -/
def Shows (digits : List U8 × Bool) : Prop :=
  n.bytes bus = digits.1 ∧ bus.cpu.flag .carryFlag = digits.2

section

variable (first : Shift) (enters : Bool → Bool)

lemma upwards_shows (hdigit : ∀ v c, first.digit v c = rolDigit v (enters c))
    (hout : first.out = BitVec.msb) :
    n.Shows (n.upwards first .rol viaAcc bus)
      (rolUp (enters (bus.cpu.flag .carryFlag)) (n.bytes bus)) := by
  rw [← ripple_rolDigit]
  exact chain_bytes .rol viaAcc bus hdigit hout n.nonempty n.inRam n.distinct

lemma downwards_shows (hdigit : ∀ v c, first.digit v c = rorDigit v (enters c))
    (hout : first.out = (·.getLsbD 0)) :
    n.Shows (n.downwards first .ror viaAcc bus)
      (rorDown (enters (bus.cpu.flag .carryFlag)) (n.bytes bus)) := by
  have hreverse : ∀ bus, bytesAt bus n.cells.reverse = (n.bytes bus).reverse :=
    fun bus => List.map_reverse
  obtain ⟨hbytes, hcarry⟩ := chain_bytes .ror viaAcc bus hdigit hout
    (List.reverse_ne_nil_iff.mpr n.nonempty) (fun a ha => n.inRam a (List.mem_reverse.mp ha))
    (List.pairwise_reverse.mpr (n.distinct.imp Ne.symm))
  have hripple : ripple Shift.ror.digit Shift.ror.out (enters (bus.cpu.flag .carryFlag))
      (n.bytes bus).reverse = ((rorDown (enters (bus.cpu.flag .carryFlag)) (n.bytes bus)).1.reverse,
        (rorDown (enters (bus.cpu.flag .carryFlag)) (n.bytes bus)).2) :=
    ripple_rorDigit ..
  rw [hreverse, hreverse, hripple] at hbytes
  rw [hreverse, hripple] at hcarry
  exact ⟨List.reverse_injective hbytes, hcarry⟩

end

/-- The number and the carry behind a rotate to the left. -/
lemma Shows.left {c : Bool} {after : Bus} (h : n.Shows after (rolUp c (n.bytes bus))) :
    n.value after = (2 * n.value bus + c.toNat) % 256 ^ n.cells.length ∧
      after.cpu.flag .carryFlag = (n.value bus).testBit (8 * n.cells.length - 1) := by
  have hw : 0 < 8 := by decide
  have hvalue := value_rolUp_mod hw c (n.bytes bus)
  have htop := rolUp_carry c (bytes_ne_nil n bus)
  rw [sign_eq_testBit hw (bytes_ne_nil n bus), bytes_length] at htop
  rw [bytes_length] at hvalue
  refine ⟨?_, h.2.trans htop⟩
  rw [value, h.1, hvalue]
  rfl

theorem shifts : n.Shifts viaAcc bus := by
  have hw : 0 < 8 := by decide
  have hup := n.upwards_shows viaAcc bus .asl (fun _ => false) (fun _ _ => rfl) rfl
  obtain ⟨hdoubled, htop⟩ := Shows.left n bus hup
  obtain ⟨hbytes, hcarry⟩ :=
    n.downwards_shows viaAcc bus .lsr (fun _ => false) (fun _ _ => rfl) rfl
  have hhalf := value_rorDown_false hw (n.bytes bus)
  have hlow := rorDown_carry hw false (bytes_ne_nil n bus)
  refine ⟨hdoubled, htop, ?_, hcarry.trans hlow⟩
  rw [value, hbytes, hhalf]
  rfl

theorem rotates : n.Rotates viaAcc viaAcc' bus := by
  have hw : 0 < 8 := by decide
  have hup := n.upwards_shows viaAcc bus .rol id (fun _ _ => rfl) rfl
  obtain ⟨hrotated, htop⟩ := Shows.left n bus hup
  obtain ⟨hbytes, hcarry⟩ := n.downwards_shows viaAcc' (n.upwards .rol .rol viaAcc bus) .ror id
    (fun _ _ => rfl) rfl
  -- the rotate to the right starts from what the one to the left has left
  rw [hup.1, hup.2, id, rorDown_rolUp hw] at hbytes hcarry
  exact ⟨hrotated, htop, hbytes, hcarry⟩

theorem sameThroughAccumulator : n.SameThroughAccumulator viaAcc viaAcc' bus := by
  have hrefl : SameResult bus bus := ⟨rfl, fun _ => rfl⟩
  have hdown : ∀ a ∈ n.cells.reverse, a.toNat < 0x2000 :=
    fun a ha => n.inRam a (List.mem_reverse.mp ha)
  have hrotated := hrefl.chain .rol .rol viaAcc inPlace n.inRam
  exact ⟨hrefl.chain .asl .rol viaAcc inPlace n.inRam, hrefl.chain .lsr .ror viaAcc inPlace hdown,
    hrotated, hrotated.chain .ror .ror viaAcc' inPlace hdown⟩

end RamNumber

/-- **Multi-byte shifts.** A chain of shifts doubles or halves a number of any length, a chain of
rotates can be undone, and any of the bytes may go through the accumulator. -/
theorem multi_byte_shifts (n : RamNumber) (viaAcc viaAcc' : U16 → Bool) (bus : Bus) :
    n.Shifts viaAcc bus ∧ n.Rotates viaAcc viaAcc' bus ∧
      n.SameThroughAccumulator viaAcc viaAcc' bus :=
  ⟨n.shifts viaAcc bus, n.rotates viaAcc viaAcc' bus, n.sameThroughAccumulator viaAcc viaAcc' bus⟩

end NesEmulator
