import NesEmulator.ProgramSteps
import NesEmulator.MemoryFrame

/-!
The program of the test "10 times 3".

It adds its second number to an empty accumulator, as often as its first number says. The
invariant of its loop is that the accumulator holds so many times the second number, and that
the carry is clear, because no sum so far has left the byte.
-/

namespace NesEmulator.TenTimesThree

open Lib.Traces

/-- The bytes of the test, with the two immediate operands. -/
def program (n m : U8) : List U8 :=
  [0xa2, n, 0x8e, 0x00, 0x00, 0xa2, m, 0x8e,
   0x01, 0x00, 0xac, 0x00, 0x00, 0xa9, 0x00, 0x18,
   0x6d, 0x01, 0x00, 0x88, 0xd0, 0xfa, 0x8d, 0x02,
   0x00, 0xea, 0xea, 0xea, 0x00]

/-- The bytes before the loop, in its body, and behind it, instruction by instruction. -/
def prologueCode (n m : U8) : List U8 :=
  [0xa2, n] ++ ([0x8e, 0x00, 0x00] ++ ([0xa2, m] ++ ([0x8e, 0x01, 0x00] ++
    ([0xac, 0x00, 0x00] ++ ([0xa9, 0x00] ++ [0x18])))))
def loopCode : List U8 := [0x6d, 0x01, 0x00] ++ ([0x88] ++ [0xd0, 0xfa])
def epilogueCode : List U8 := [0x8d, 0x02, 0x00] ++ ([0xea] ++ ([0xea] ++ ([0xea] ++ [0x00])))

lemma program_eq (n m : U8) : program n m = prologueCode n m ++ (loopCode ++ epilogueCode) := rfl

/-- The program is visible in PRG ROM from an address on. -/
structure ProgramAt (bus : Bus) (q : U16) (n m : U8) : Prop where
  above : 0x8000 < q.toNat
  below : q.toNat + 28 < 0xFFFF
  read : ∀ i (h : i < (program n m).length),
    readMem bus (q + BitVec.ofNat 16 i) = (program n m)[i]

/-- The instructions before the loop, in its body, and behind it up to the final BRK. -/
def prologue : List Instruction := [.ldx, .stx, .ldx, .stx, .ldy, .lda, .clc]
def loopBody : List Instruction := [.adc, .dey, .bne]
def epilogue : List Instruction := [.sta, .nop, .nop, .nop]

/-- The bus after the instructions of a whole run. -/
def afterRun (bus : Bus) (n : U8) : Bus := runCpuIteration^[3 * n.toNat + 12] bus

/-- What is wanted of the program: `run_cpu` executes its loop body `n` times, returns with BRK,
and leaves the product. -/
structure Multiplies (bus : Bus) (n m : U8) : Prop where
  executes : trace runCpuIteration executed (3 * n.toNat + 12) bus =
    prologue ++ (List.replicate n.toNat loopBody).flatten ++ epilogue ++ [.brk]
  returns : ∀ fuel, 3 * n.toNat + 12 ≤ fuel → runCpu fuel bus = some (afterRun bus n)
  first : (afterRun bus n).cpuRam 0 = n
  second : (afterRun bus n).cpuRam 1 = m
  result : (afterRun bus n).cpuRam 2 = (afterRun bus n).cpu.accumulator
  accumulator : (afterRun bus n).cpu.accumulator.toNat = n.toNat * m.toNat
  x : (afterRun bus n).cpu.x = m
  y : (afterRun bus n).cpu.y = 0

/-! ### The parts of the program -/

section Parts

variable {start : Bus} {q : U16} {n m : U8}

/-- RAM with the two numbers stored. -/
def numbersStored (ram : Fin 0x800 → U8) (n m : U8) : Fin 0x800 → U8 :=
  Function.update (Function.update ram (ramCell 0x0000) n) (ramCell 0x0001) m

/-- What is seen when the loop body has been executed `k` times. -/
def stage (start : Bus) (q : U16) (n m : U8) (k : ℕ) (zero : Bool) : View where
  programCounter := if k < n.toNat then q + 16 else q + 22
  accumulator := BitVec.ofNat 8 (k * m.toNat)
  x := m
  y := BitVec.ofNat 8 (n.toNat - k)
  carry := false
  zero := zero
  cpuRam := numbersStored start.cpuRam n m

/-- The invariant of the loop. -/
def Stage (start : Bus) (q : U16) (n m : U8) (k : ℕ) (bus : Bus) : Prop :=
  ∃ zero, Shows start (stage start q n m k zero) bus

lemma programAt_codeAt (h : ProgramAt start q n m) : CodeAt start q (program n m) := by
  have habove := h.above
  have hbelow := h.below
  have hlength : (program n m).length = 29 := rfl
  exact codeAt_of_readMem (by omega) (by omega) h.read

lemma zeroPage_address : (0x00 : U8) ++ (0x00 : U8) = (0x0000 : U16) ∧
    (0x00 : U8) ++ (0x01 : U8) = (0x0001 : U16) ∧ (0x00 : U8) ++ (0x02 : U8) = (0x0002 : U16) := by
  decide

lemma ramCell_zeroPage : ramCell 0x0000 = 0 ∧ ramCell 0x0001 = 1 ∧ ramCell 0x0002 = 2 := by
  decide

lemma numbersStored_apply (ram : Fin 0x800 → U8) (n m : U8) :
    numbersStored ram n m (ramCell 0x0000) = n ∧ numbersStored ram n m (ramCell 0x0001) = m := by
  have hne : ramCell 0x0000 ≠ ramCell 0x0001 := by decide
  refine ⟨?_, Function.update_self ..⟩
  rw [numbersStored, Function.update_of_ne hne, Function.update_self]

/-- Up to the loop. -/
lemma executes_prologue (h : CodeAt start q (prologueCode n m)) (hn : 0 < n.toNat)
    {a x y : U8} {c z : Bool} :
    Executes (Shows start ⟨q, a, x, y, c, z, start.cpuRam⟩) prologue (Stage start q n m 0) := by
  rw [prologueCode] at h
  obtain ⟨hldx, h⟩ := codeAt_append _ h
  obtain ⟨hstx, h⟩ := codeAt_append _ h
  obtain ⟨hldx', h⟩ := codeAt_append _ h
  obtain ⟨hstx', h⟩ := codeAt_append _ h
  obtain ⟨hldy, h⟩ := codeAt_append _ h
  obtain ⟨hlda, hclc⟩ := codeAt_append _ h
  obtain ⟨hcell, hcell', -⟩ := zeroPage_address
  have hfirst : Executes (Shows start ⟨q, a, x, y, c, z, start.cpuRam⟩) _ _ := executes_ldx hldx
  have hrun := hfirst.cons ((executes_stx hstx (by decide)).cons ((executes_ldx hldx').cons
    ((executes_stx hstx' (by decide)).cons ((executes_ldy hldy (by decide)).cons
      ((executes_lda hlda).cons (executes_clc hclc))))))
  refine hrun.weaken fun bus hs => ⟨true, hs.1, hs.2.trans ?_⟩
  rw [hcell, hcell']
  refine View.ext ?_ ?_ rfl ?_ rfl rfl rfl
  · change _ = if 0 < n.toNat then q + 16 else q + 22
    rw [if_pos hn]
    simp only [BitVec.add_assoc]
    rfl
  · change (0 : U8) = BitVec.ofNat 8 (0 * m.toNat)
    rw [Nat.zero_mul]
    rfl
  · change numbersStored start.cpuRam n m (ramCell 0x0000) = BitVec.ofNat 8 (n.toNat - 0)
    rw [(numbersStored_apply _ n m).1, Nat.sub_zero, BitVec.ofNat_toNat, BitVec.setWidth_eq]

/-! ### The loop -/

/-- One more time the second number. -/
lemma add_product {k : ℕ} (hfit : (k + 1) * m.toNat ≤ 255) :
    BitVec.ofNat 8 (k * m.toNat) + m + (BitVec.ofBool false).setWidth 8 =
        BitVec.ofNat 8 ((k + 1) * m.toNat) ∧
      BitVec.carry 8 (BitVec.ofNat 8 (k * m.toNat)) m false = false := by
  rw [Nat.succ_mul] at hfit ⊢
  constructor
  · apply BitVec.eq_of_toNat_eq
    rw [BitVec.toNat_add, BitVec.toNat_add, BitVec.toNat_ofNat, BitVec.toNat_ofNat]
    change ((k * m.toNat) % 256 + m.toNat) % 256 % 256 = (k * m.toNat + m.toNat) % 256
    omega
  · rw [BitVec.carry_width, BitVec.toNat_ofNat, Bool.toNat_false, decide_eq_false_iff_not]
    omega

/-- Counting down from `n`. -/
lemma count_down {k : ℕ} (hk : k < n.toNat) :
    BitVec.ofNat 8 (n.toNat - k) - 1 = BitVec.ofNat 8 (n.toNat - (k + 1)) := by
  obtain ⟨j, hj⟩ : ∃ j, n.toNat - k = j + 1 := ⟨n.toNat - k - 1, by omega⟩
  rw [hj, Nat.sub_succ, hj, BitVec.ofNat_add]
  exact BitVec.add_sub_cancel _ _

/-- The branch at the end of the body goes back until the count is zero. -/
lemma branch_back {k : ℕ} (hk : k < n.toNat) :
    (if BitVec.ofNat 8 (n.toNat - (k + 1)) == 0 then q + 16 + 3 + 1 + 2
      else q + 16 + 3 + 1 + 2 + BitVec.signExtend 16 (0xfa : U8)) =
      if k + 1 < n.toNat then q + 16 else q + 22 := by
  have hlt := n.isLt
  have hzero : (BitVec.ofNat 8 (n.toNat - (k + 1)) == 0) = true ↔ ¬ k + 1 < n.toNat := by
    rw [beq_iff_eq, ← BitVec.toNat_inj, BitVec.toNat_ofNat]
    change (n.toNat - (k + 1)) % 256 = 0 ↔ _
    omega
  simp only [hzero, ite_not, BitVec.add_assoc]
  congr 1

lemma executes_loopBody (h : CodeAt start (q + 16) loopCode) (hfit : n.toNat * m.toNat ≤ 255)
    {k : ℕ} (hk : k < n.toNat) :
    Executes (Stage start q n m k) loopBody (Stage start q n m (k + 1)) := by
  rw [loopCode] at h
  obtain ⟨hadc, h⟩ := codeAt_append _ h
  obtain ⟨hdey, hbne⟩ := codeAt_append _ h
  have hfit' : (k + 1) * m.toNat ≤ 255 := (Nat.mul_le_mul_right _ hk).trans hfit
  obtain ⟨hsum, hcarry⟩ := add_product hfit'
  have hcell : numbersStored start.cpuRam n m (ramCell ((0x00 : U8) ++ (0x01 : U8))) = m := by
    rw [zeroPage_address.2.1]
    exact (numbersStored_apply _ n m).2
  refine Does.of_exists fun zero => ?_
  rw [stage, if_pos hk]
  have hrun := (executes_adc (z := zero) (y := BitVec.ofNat 8 (n.toNat - k)) (x := m) hadc
    (by decide) hcell hsum).cons ((executes_dey hdey).cons (executes_bne hbne))
  refine hrun.weaken fun bus hs =>
    ⟨BitVec.ofNat 8 (n.toNat - k) - 1 == 0, hs.1, hs.2.trans ?_⟩
  refine View.ext ?_ rfl rfl ?_ hcarry rfl rfl
  · rw [count_down hk]
    exact branch_back hk
  · exact count_down hk

/-- **The loop**: its body is executed `n` times. -/
theorem executes_loop (h : CodeAt start (q + 16) loopCode) (hfit : n.toNat * m.toNat ≤ 255) :
    Executes (Stage start q n m 0) (List.replicate n.toNat loopBody).flatten
      (Stage start q n m n.toNat) :=
  Does.loop fun _ hk => executes_loopBody h hfit hk

/-! ### The whole program -/

/-- What the program leaves, of RAM below the stack. -/
def Product (start : Bus) (n m : U8) (bus : Bus) : Prop :=
  bus.cpu.accumulator = BitVec.ofNat 8 (n.toNat * m.toNat) ∧ bus.cpu.x = m ∧ bus.cpu.y = 0 ∧
    ∀ k : Fin 0x800, k.val < 0x100 → bus.cpuRam k =
      Function.update (numbersStored start.cpuRam n m) (ramCell 0x0002)
        (BitVec.ofNat 8 (n.toNat * m.toNat)) k

/-- Behind the loop. -/
lemma executes_epilogue (h : CodeAt start (q + 22) epilogueCode) :
    Executes (Stage start q n m n.toNat) (epilogue ++ [.brk]) (Product start n m) := by
  rw [epilogueCode] at h
  obtain ⟨hsta, h⟩ := codeAt_append _ h
  obtain ⟨hnop, h⟩ := codeAt_append _ h
  obtain ⟨hnop', h⟩ := codeAt_append _ h
  obtain ⟨hnop'', hbrk⟩ := codeAt_append _ h
  refine Does.of_exists fun zero => ?_
  rw [stage, if_neg (Nat.lt_irrefl _), Nat.sub_self]
  have hfirst : Executes (Shows start ⟨q + 22, BitVec.ofNat 8 (n.toNat * m.toNat), m, 0, false,
      zero, numbersStored start.cpuRam n m⟩) _ _ := executes_sta hsta (by decide)
  have hrun := hfirst.cons ((executes_nop hnop).cons ((executes_nop hnop').cons
    ((executes_nop hnop'').cons (executes_brk hbrk))))
  rw [zeroPage_address.2.2] at hrun
  exact hrun

/-- The instructions of a whole run, without the final BRK. -/
def instructions (n : U8) : List Instruction :=
  prologue ++ (List.replicate n.toNat loopBody).flatten ++ epilogue

lemma length_instructions : (instructions n).length + 1 = 3 * n.toNat + 12 := by
  simp [instructions, prologue, loopBody, epilogue]
  omega

lemma brk_notMem_instructions : Instruction.brk ∉ instructions n := by
  simp [instructions, prologue, loopBody, epilogue]

/-- The parts of the program, one behind the other. -/
lemma executes_program (h : ProgramAt start q n m) (hn : 0 < n.toNat)
    (hfit : n.toNat * m.toNat ≤ 255) {a x y : U8} {c z : Bool} :
    Executes (Shows start ⟨q, a, x, y, c, z, start.cpuRam⟩) (instructions n ++ [.brk])
      (Product start n m) := by
  have hcode := programAt_codeAt h
  rw [program_eq] at hcode
  obtain ⟨hprologue, hcode⟩ := codeAt_append _ hcode
  obtain ⟨hloop, hepilogue⟩ := codeAt_append _ hcode
  rw [BitVec.add_assoc] at hepilogue
  rw [instructions, List.append_assoc]
  exact ((executes_prologue hprologue hn).append (executes_loop hloop hfit)).append
    (executes_epilogue hepilogue)

end Parts

/-- **Ten times three**, and any other two numbers whose product is a byte, from any state of the
registers, the flags, the stack and RAM. -/
theorem ten_times_three {bus : Bus} {q : U16} {n m : U8} (hprogram : ProgramAt bus q n m)
    (hpc : bus.cpu.programCounter = q) (hn : 1 ≤ n.toNat) (hfit : n.toNat * m.toNat ≤ 255) :
    Multiplies bus n m := by
  have hview : Shows bus (view bus) bus := ⟨rfl, rfl⟩
  rw [view, hpc] at hview
  obtain ⟨htrace, hproduct⟩ := executes_program hprogram hn hfit bus hview
  rw [List.length_append, List.length_singleton] at htrace hproduct
  have hreturns : ∀ fuel, (instructions n).length + 1 ≤ fuel → runCpu fuel bus =
      some (runCpuIteration^[(instructions n).length + 1] bus) :=
    fun _ => runCpu_of_trace htrace brk_notMem_instructions
  rw [length_instructions, ← afterRun] at hproduct
  rw [length_instructions] at htrace hreturns
  obtain ⟨ha, hx, hy, hram⟩ := hproduct
  obtain ⟨hfirst, hsecond⟩ := numbersStored_apply bus.cpuRam n m
  obtain ⟨h0, h1, h2⟩ := ramCell_zeroPage
  have h02 : (0 : Fin 0x800) ≠ 2 := by decide
  have h12 : (1 : Fin 0x800) ≠ 2 := by decide
  rw [h0] at hfirst
  rw [h1] at hsecond
  rw [h2] at hram
  refine ⟨htrace, hreturns, ?_, ?_, ?_, ?_, hx, hy⟩
  · rw [hram 0 (by decide), Function.update_of_ne h02, hfirst]
  · rw [hram 1 (by decide), Function.update_of_ne h12, hsecond]
  · rw [hram 2 (by decide), Function.update_self, ha]
  · rw [ha, BitVec.toNat_ofNat]
    exact Nat.mod_eq_of_lt (by omega)

/-- A page of PRG ROM with the program behind its first byte, which cannot be read. -/
def programRom (n m : U8) : Cartridge :=
  { constantRom 0 with
    prgRom := 0 :: program n m ++ List.replicate (0x4000 - 30) 0
    prgRom_length := by
      have hlength : (0 :: program n m).length = 30 := rfl
      rw [List.length_append, List.length_replicate, hlength]
      rfl }

/-- A CPU at the first byte of the program. -/
def programBus (n m : U8) : Bus :=
  { freshBus (programRom n m) with
    cpu := { (freshBus (programRom n m)).cpu with programCounter := 0x8001 } }

/-- The numbers of the test. -/
theorem ten_times_three_run :
    ProgramAt (programBus 10 3) 0x8001 10 3 ∧ Multiplies (programBus 10 3) 10 3 := by
  have hprogram : ProgramAt (programBus 10 3) 0x8001 10 3 := ⟨by decide, by decide, by decide⟩
  exact ⟨hprogram, ten_times_three hprogram rfl (by decide) (by decide)⟩

end NesEmulator.TenTimesThree
