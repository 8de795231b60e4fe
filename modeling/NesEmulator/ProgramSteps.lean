import NesEmulator.EffectiveAddress
import NesEmulator.Arithmetic
import NesEmulator.Lib.Traces

/-!
Programs, one instruction after the other.

A program lies above RAM, where no run changes it. Of a bus a program sees its registers, two
flags and RAM; for each instruction, in the mode that is needed, there is one lemma about what
it makes of what is seen.
-/

namespace NesEmulator

open Lib.Traces

/-- What a program without stack operations works on. -/
@[ext]
structure View where
  programCounter : U16
  accumulator : U8
  x : U8
  y : U8
  carry : Bool
  zero : Bool
  cpuRam : Fin 0x800 → U8

def view (bus : Bus) : View where
  programCounter := bus.cpu.programCounter
  accumulator := bus.cpu.accumulator
  x := bus.cpu.x
  y := bus.cpu.y
  carry := bus.cpu.flag .carryFlag
  zero := bus.cpu.flag .zeroFlag
  cpuRam := bus.cpuRam

/-- The bytes of a program lie one after the other from an address on, above RAM. -/
def CodeAt (bus : Bus) : U16 → List U8 → Prop
  | _, [] => True
  | pc, b :: bs => (0x2000 < pc.toNat ∧ readMem bus pc = b) ∧ CodeAt bus (pc + 1) bs

/-- A run that began with the bus `start` has come to a view. -/
def Shows (start : Bus) (s : View) (bus : Bus) : Prop :=
  bus.cartridge = start.cartridge ∧ view bus = s

/-- The instruction that the next step executes. -/
def executed (bus : Bus) : Instruction := (fetched bus).instruction

/-- The run from `P` executes the instructions of a list, and leads to `Q`. -/
abbrev Executes (P : Bus → Prop) (is : List Instruction) (Q : Bus → Prop) : Prop :=
  Does runCpuIteration executed P is Q

/-! ### Code -/

section Code

variable {start : Bus} {pc : U16}

lemma codeAt_append (xs : List U8) {ys : List U8} (h : CodeAt start pc (xs ++ ys)) :
    CodeAt start pc xs ∧ CodeAt start (pc + BitVec.ofNat 16 xs.length) ys := by
  induction xs generalizing pc with
  | nil =>
    refine ⟨trivial, ?_⟩
    rw [List.length_nil, BitVec.add_zero]
    exact h
  | cons x xs ih =>
    obtain ⟨hx, hrest⟩ := h
    obtain ⟨hxs, hys⟩ := ih hrest
    refine ⟨⟨hx, hxs⟩, ?_⟩
    rw [List.length_cons, Nat.add_comm, BitVec.ofNat_add, ← BitVec.add_assoc]
    exact hys

lemma codeAt_of_readMem {bytes : List U8} (hlow : 0x2000 < pc.toNat)
    (hhigh : pc.toNat + bytes.length ≤ 0x10000)
    (h : ∀ i (hi : i < bytes.length), readMem start (pc + BitVec.ofNat 16 i) = bytes[i]) :
    CodeAt start pc bytes := by
  induction bytes generalizing pc with
  | nil => trivial
  | cons b bs ih =>
    have hfirst := h 0 (by simp)
    rw [BitVec.add_zero] at hfirst
    refine ⟨⟨hlow, hfirst⟩, ?_⟩
    rcases bs with _ | ⟨c, bs⟩
    · trivial
    · have hnext : (pc + 1).toNat = pc.toNat + 1 := by
        rw [List.length_cons, List.length_cons] at hhigh
        rw [BitVec.toNat_add]
        change (pc.toNat + 1) % 0x10000 = _
        omega
      refine ih (by omega) (by rw [List.length_cons] at hhigh; omega) fun i hi => ?_
      have hsucc : pc + 1 + BitVec.ofNat 16 i = pc + BitVec.ofNat 16 (i + 1) := by
        rw [Nat.add_comm i 1, BitVec.ofNat_add, BitVec.add_assoc]
        rfl
      rw [hsucc]
      exact h (i + 1) (Nat.succ_lt_succ hi)

/-- Whatever the run has done, the code still reads the same. -/
lemma Shows.readMem_code {s : View} {bus : Bus} (h : Shows start s bus) {b : U8}
    (hcode : 0x2000 < pc.toNat ∧ readMem start pc = b) : readMem bus pc = b := by
  rw [← hcode.2]
  exact readMem_above h.1 hcode.1

end Code

/-! ### Views -/

section Views

variable (bus : Bus) (v m : U8)

lemma view_putAccumulator : view (putAccumulator bus v) =
    { view bus with accumulator := v, zero := v == 0 } := by
  refine View.ext rfl rfl rfl rfl ?_ ?_ rfl
  · simp [view]
  · simp [view]

lemma view_putX : view (putX bus v) = { view bus with x := v, zero := v == 0 } := by
  refine View.ext rfl rfl rfl rfl ?_ ?_ rfl
  · simp [view]
  · simp [view]

lemma view_putY : view (putY bus v) = { view bus with y := v, zero := v == 0 } := by
  refine View.ext rfl rfl rfl rfl ?_ ?_ rfl
  · simp [view]
  · simp [view]

/-- The sum that an addition leaves. -/
def View.sum (s : View) (m : U8) : U8 := s.accumulator + m + (BitVec.ofBool s.carry).setWidth 8

lemma view_addWithCarry : view (addWithCarry bus (m.setWidth 16)) =
    { view bus with
      accumulator := (view bus).sum m
      carry := BitVec.carry 8 (view bus).accumulator m (view bus).carry
      zero := (view bus).sum m == 0 } := by
  refine View.ext ?_ (addWithCarry_accumulator bus m) ?_ ?_ (addWithCarry_carry bus m)
    (addWithCarry_zero bus m) rfl
  · simp [view, addWithCarry]
  · exact addWithCarry_register (r := .x) bus _ (by decide)
  · exact addWithCarry_register (r := .y) bus _ (by decide)

lemma view_writeMem {a : U16} (h : a.toNat < 0x2000) : view (writeMem bus a v) =
    { view bus with cpuRam := Function.update (view bus).cpuRam (ramCell a) v } := by
  rw [writeMem_of_lt v h]
  rfl

lemma view_clcFn (a : U16) : view (clcFn bus a) = { view bus with carry := false } := by
  refine View.ext ?_ (setFlag_register _ _ _ .accumulator) (setFlag_register _ _ _ .x)
    (setFlag_register _ _ _ .y) ?_ ?_ rfl
  · exact setFlag_programCounter ..
  · simp [view, clcFn, putFlagFn]
  · simp [view, clcFn, putFlagFn]

lemma view_branchIf (c : Bool) (a : U16) : view (branchIf c bus a) =
    { view bus with
      programCounter :=
        if c then (view bus).programCounter + a else (view bus).programCounter } := by
  cases c
  · rfl
  · rw [branchIf, if_pos rfl, branch_eq]
    rfl

end Views

/-! ### Steps -/

section Rows

variable {bus : Bus} {b : U8}

/-- The row of an opcode byte. -/
lemma fetched_row (h : readMem bus bus.cpu.programCounter = b) :
    (fetched bus).instructionFn = (opcodes.get b.toFin).instructionFn ∧
      (fetched bus).instruction = (opcodes.get b.toFin).instruction ∧
      (fetched bus).addressingMode = (opcodes.get b.toFin).addressingMode := by
  rw [fetched, getNextOpcode_eq, h]
  exact ⟨rfl, rfl, rfl⟩

lemma operandAddress_immediate (h : (fetched bus).addressingMode = .immediate) :
    operandAddress bus = bus.cpu.programCounter + 1 := by
  unfold operandAddress decoded getOperandAddress
  rw [h]
  rfl

lemma operandAddress_absolute (h : (fetched bus).addressingMode = .absolute) :
    operandAddress bus = readMem bus (bus.cpu.programCounter + 2) ++
      readMem bus (bus.cpu.programCounter + 1) := by
  rw [← word_eq h (by decide)]
  unfold operandAddress decoded getOperandAddress
  rw [h]

lemma view_steppedOver {mode : AddressingMode} (h : (fetched bus).addressingMode = mode) :
    view (steppedOver bus) = { view bus with
      programCounter := (view bus).programCounter + BitVec.ofNat 16 (mode.operandBytes + 1) } := by
  rw [steppedOver_eq, fetched_bytes h]
  rfl

end Rows

section Steps

variable {start : Bus} {s : View}

/-- One step on a row of the table. -/
lemma executes_row {b : U8} {i : Instruction} {fn : InstructionFn} {mode : AddressingMode}
    {s' : View} (hcode : 0x2000 < s.programCounter.toNat ∧ readMem start s.programCounter = b)
    (hrow : (opcodes.get b.toFin).instructionFn = fn ∧ (opcodes.get b.toFin).instruction = i ∧
      (opcodes.get b.toFin).addressingMode = mode)
    (hcall : ∀ bus, Shows start s bus → (fetched bus).addressingMode = mode →
      view (fn.call (steppedOver bus) (operandAddress bus)) = s') :
    Executes (Shows start s) [i] (Shows start s') := by
  refine Does.step fun bus hs => ?_
  obtain ⟨hfn, hi, hmode⟩ := fetched_row (hs.2 ▸ hs.readMem_code hcode)
  rw [hrow.1] at hfn
  rw [hrow.2.1] at hi
  rw [hrow.2.2] at hmode
  refine ⟨hi, (runCpuIteration_cartridge bus).trans hs.1, ?_⟩
  rw [← hcall bus hs hmode, runCpuIteration_tick, hfn]
  rfl

/-- What an immediate operand reads. -/
lemma Shows.immediate {bus : Bus} (hs : Shows start s bus) {v : U8}
    (hv : 0x2000 < (s.programCounter + 1).toNat ∧ readMem start (s.programCounter + 1) = v)
    (hmode : (fetched bus).addressingMode = .immediate) :
    readMem (steppedOver bus) (operandAddress bus) = v := by
  have hread := hs.readMem_code hv
  obtain ⟨-, rfl⟩ := hs
  rw [readMem_steppedOver, operandAddress_immediate hmode]
  exact hread

/-- The address of an absolute operand. -/
lemma Shows.absolute {bus : Bus} (hs : Shows start s bus) {lo hi : U8}
    (hcode : CodeAt start (s.programCounter + 1) [lo, hi])
    (hmode : (fetched bus).addressingMode = .absolute) : operandAddress bus = hi ++ lo := by
  obtain ⟨hlo, hhi, -⟩ := hcode
  have hlo' := hs.readMem_code hlo
  have hhi' := hs.readMem_code hhi
  obtain ⟨-, rfl⟩ := hs
  rw [BitVec.add_assoc] at hhi'
  rw [operandAddress_absolute hmode, ← hlo', ← hhi']
  rfl

/-- What an absolute operand in RAM reads. -/
lemma Shows.readMem_absolute {bus : Bus} (hs : Shows start s bus) {lo hi : U8}
    (hcode : CodeAt start (s.programCounter + 1) [lo, hi])
    (hmode : (fetched bus).addressingMode = .absolute) (hram : (hi ++ lo : U16).toNat < 0x2000) :
    readMem (steppedOver bus) (operandAddress bus) = s.cpuRam (ramCell (hi ++ lo)) := by
  rw [hs.absolute hcode hmode, readMem_steppedOver, readMem_of_le (by omega), ← hs.2]
  rfl

variable {pc : U16} {a x y v lo hi : U8} {c z : Bool} {ram : Fin 0x800 → U8}

theorem executes_ldx (h : CodeAt start pc [0xa2, v]) :
    Executes (Shows start ⟨pc, a, x, y, c, z, ram⟩) [.ldx]
      (Shows start ⟨pc + 2, a, v, y, c, v == 0, ram⟩) := by
  obtain ⟨hop, hv, -⟩ := h
  refine executes_row hop ⟨rfl, rfl, rfl⟩ fun bus hs hmode => ?_
  change view (putX (steppedOver bus) (readMem (steppedOver bus) (operandAddress bus))) = _
  rw [hs.immediate hv hmode, view_putX, view_steppedOver hmode, hs.2]
  rfl

theorem executes_lda (h : CodeAt start pc [0xa9, v]) :
    Executes (Shows start ⟨pc, a, x, y, c, z, ram⟩) [.lda]
      (Shows start ⟨pc + 2, v, x, y, c, v == 0, ram⟩) := by
  obtain ⟨hop, hv, -⟩ := h
  refine executes_row hop ⟨rfl, rfl, rfl⟩ fun bus hs hmode => ?_
  change view (putAccumulator (steppedOver bus)
    (readMem (steppedOver bus) (operandAddress bus))) = _
  rw [hs.immediate hv hmode, view_putAccumulator, view_steppedOver hmode, hs.2]
  rfl

theorem executes_ldy (h : CodeAt start pc [0xac, lo, hi])
    (hram : (hi ++ lo : U16).toNat < 0x2000) :
    Executes (Shows start ⟨pc, a, x, y, c, z, ram⟩) [.ldy]
      (Shows start ⟨pc + 3, a, x, ram (ramCell (hi ++ lo)), c, ram (ramCell (hi ++ lo)) == 0,
        ram⟩) := by
  obtain ⟨hop, hcode⟩ := h
  refine executes_row hop ⟨rfl, rfl, rfl⟩ fun bus hs hmode => ?_
  change view (putY (steppedOver bus) (readMem (steppedOver bus) (operandAddress bus))) = _
  rw [hs.readMem_absolute hcode hmode hram, view_putY, view_steppedOver hmode, hs.2]
  rfl

theorem executes_stx (h : CodeAt start pc [0x8e, lo, hi])
    (hram : (hi ++ lo : U16).toNat < 0x2000) :
    Executes (Shows start ⟨pc, a, x, y, c, z, ram⟩) [.stx]
      (Shows start ⟨pc + 3, a, x, y, c, z, Function.update ram (ramCell (hi ++ lo)) x⟩) := by
  obtain ⟨hop, hcode⟩ := h
  refine executes_row hop ⟨rfl, rfl, rfl⟩ fun bus hs hmode => ?_
  change view (writeMem (steppedOver bus) (operandAddress bus) (view (steppedOver bus)).x) = _
  rw [hs.absolute hcode hmode, view_writeMem _ _ hram, view_steppedOver hmode, hs.2]
  rfl

theorem executes_sta (h : CodeAt start pc [0x8d, lo, hi])
    (hram : (hi ++ lo : U16).toNat < 0x2000) :
    Executes (Shows start ⟨pc, a, x, y, c, z, ram⟩) [.sta]
      (Shows start ⟨pc + 3, a, x, y, c, z, Function.update ram (ramCell (hi ++ lo)) a⟩) := by
  obtain ⟨hop, hcode⟩ := h
  refine executes_row hop ⟨rfl, rfl, rfl⟩ fun bus hs hmode => ?_
  change view (writeMem (steppedOver bus) (operandAddress bus)
    (view (steppedOver bus)).accumulator) = _
  rw [hs.absolute hcode hmode, view_writeMem _ _ hram, view_steppedOver hmode, hs.2]
  rfl

theorem executes_clc (h : CodeAt start pc [0x18]) :
    Executes (Shows start ⟨pc, a, x, y, c, z, ram⟩) [.clc]
      (Shows start ⟨pc + 1, a, x, y, false, z, ram⟩) := by
  refine executes_row h.1 ⟨rfl, rfl, rfl⟩ fun bus hs hmode => ?_
  change view (clcFn (steppedOver bus) (operandAddress bus)) = _
  rw [view_clcFn, view_steppedOver hmode, hs.2]
  rfl

theorem executes_nop (h : CodeAt start pc [0xea]) :
    Executes (Shows start ⟨pc, a, x, y, c, z, ram⟩) [.nop]
      (Shows start ⟨pc + 1, a, x, y, c, z, ram⟩) := by
  refine executes_row h.1 ⟨rfl, rfl, rfl⟩ fun bus hs hmode => ?_
  change view (steppedOver bus) = _
  rw [view_steppedOver hmode, hs.2]
  rfl

theorem executes_dey (h : CodeAt start pc [0x88]) :
    Executes (Shows start ⟨pc, a, x, y, c, z, ram⟩) [.dey]
      (Shows start ⟨pc + 1, a, x, y - 1, c, y - 1 == 0, ram⟩) := by
  refine executes_row h.1 ⟨rfl, rfl, rfl⟩ fun bus hs hmode => ?_
  change view (putY (steppedOver bus) ((view (steppedOver bus)).y - 1)) = _
  rw [view_putY, view_steppedOver hmode, hs.2]
  rfl

theorem executes_adc (h : CodeAt start pc [0x6d, lo, hi])
    (hram : (hi ++ lo : U16).toNat < 0x2000) {m r : U8} (hm : ram (ramCell (hi ++ lo)) = m)
    (hr : a + m + (BitVec.ofBool c).setWidth 8 = r) :
    Executes (Shows start ⟨pc, a, x, y, c, z, ram⟩) [.adc]
      (Shows start ⟨pc + 3, r, x, y, BitVec.carry 8 a m c, r == 0, ram⟩) := by
  subst hm hr
  obtain ⟨hop, hcode⟩ := h
  refine executes_row hop ⟨rfl, rfl, rfl⟩ fun bus hs hmode => ?_
  change view (addWithCarry (steppedOver bus)
    ((readMem (steppedOver bus) (operandAddress bus)).setWidth 16)) = _
  rw [hs.readMem_absolute hcode hmode hram, view_addWithCarry, view_steppedOver hmode, hs.2]
  rfl

theorem executes_bne (h : CodeAt start pc [0xd0, v]) :
    Executes (Shows start ⟨pc, a, x, y, c, z, ram⟩) [.bne]
      (Shows start ⟨if z then pc + 2 else pc + 2 + v.signExtend 16, a, x, y, c, z, ram⟩) := by
  obtain ⟨hop, hv, -⟩ := h
  refine executes_row hop ⟨rfl, rfl, rfl⟩ fun bus hs hmode => ?_
  have hrelative : (fetched bus).addressingMode = .relative := hmode
  have hoffset : readMem bus (bus.cpu.programCounter + 1) = v := by
    have hread := hs.readMem_code hv
    have hpc : bus.cpu.programCounter = pc := congrArg View.programCounter hs.2
    rw [hpc]
    exact hread
  have hnot : ∀ (b : Bool) (p q : U16), (if !b then q else p) = if b then p else q := by
    rintro (_ | _) p q <;> rfl
  change view (branchIf (!(view (steppedOver bus)).zero) (steppedOver bus) (operandAddress bus)) = _
  rw [view_branchIf, view_steppedOver hrelative, operandAddress_relative hrelative, hoffset, hs.2,
    hnot]
  rfl

/-- BRK writes to page one only, and to no register but the stack pointer. -/
theorem executes_brk (h : CodeAt start pc [0x00]) :
    Executes (Shows start ⟨pc, a, x, y, c, z, ram⟩) [.brk] fun bus =>
      bus.cpu.accumulator = a ∧ bus.cpu.x = x ∧ bus.cpu.y = y ∧
        ∀ k : Fin 0x800, k.val < 0x100 → bus.cpuRam k = ram k := by
  refine Does.step fun bus hs => ?_
  have hpc : bus.cpu.programCounter = pc := congrArg View.programCounter hs.2
  have hopcode : readMem bus bus.cpu.programCounter = 0x00 := by
    rw [hpc]
    exact hs.readMem_code h.1
  obtain ⟨hfn, hi, -⟩ := fetched_row hopcode
  have hregister : ∀ r : Register, r ≠ .stackPointer →
      (runCpuIteration bus).cpu.register r = bus.cpu.register r := by
    intro r hr
    refine runCpuIteration_register ?_
    rw [hfn]
    exact List.not_mem_cons_of_ne_of_not_mem hr List.not_mem_nil
  refine ⟨hi, (hregister .accumulator (by decide)).trans (congrArg View.accumulator hs.2),
    (hregister .x (by decide)).trans (congrArg View.x hs.2),
    (hregister .y (by decide)).trans (congrArg View.y hs.2), fun k hk => ?_⟩
  have hram : bus.cpuRam = ram := congrArg View.cpuRam hs.2
  rw [← hram]
  refine runCpuIteration_cpuRam ?_
  rw [hfn]
  change k ∉ [stackCell _, stackCell _, stackCell _]
  simp only [List.mem_cons, List.not_mem_nil, or_false, Fin.ext_iff, stackCell_val]
  omega

end Steps

/-! ### Calls of `run_cpu` -/

/-- A run up to its first BRK is one call. -/
lemma runCpu_of_trace {is : List Instruction} {bus : Bus}
    (h : trace runCpuIteration executed (is.length + 1) bus = is ++ [.brk]) (hnot : .brk ∉ is)
    {fuel : ℕ} (hfuel : is.length + 1 ≤ fuel) :
    runCpu fuel bus = some (runCpuIteration^[is.length + 1] bus) := by
  induction is generalizing bus fuel with
  | nil =>
    obtain ⟨fuel, rfl⟩ : ∃ k, fuel = k + 1 := ⟨fuel - 1, by simp at hfuel; omega⟩
    have hbrk : executed bus = .brk := List.head_eq_of_cons_eq h
    unfold runCpu
    exact if_pos hbrk
  | cons i is ih =>
    rw [List.length_cons] at hfuel
    obtain ⟨fuel, rfl⟩ : ∃ k, fuel = k + 1 := ⟨fuel - 1, by omega⟩
    have hi : executed bus = i := List.head_eq_of_cons_eq h
    have hrest : runCpu fuel (runCpuIteration bus) = _ := ih (List.tail_eq_of_cons_eq h)
      (fun hmem => hnot (List.mem_cons_of_mem _ hmem)) (by omega)
    unfold runCpu
    dsimp only
    rw [if_neg, hrest]
    · rfl
    · intro hbrk
      exact hnot (by rw [← hi, executed, hbrk]; exact List.mem_cons_self)

end NesEmulator
