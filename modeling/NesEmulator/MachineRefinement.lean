import NesEmulator.NumberMachine
import NesEmulator.BranchTiming
import NesEmulator.EffectiveAddress
import NesEmulator.ReadAfterWrite
import NesEmulator.TraceTruth
import NesEmulator.RegisterDiscipline

/-!
The emulator refines the machine that computes with numbers.

Every body that the instructions share is matched by an operation of the machine, so every
instruction is, and then every iteration, whatever the opcode. A reset and a store from
outside are matched, too; so all runs are.
-/

namespace NesEmulator

open Lib.Bits Lib.LittleEndian Lib.Runs NumberMachine

/-- Stores reach RAM, and show in its mirrors and at the address behind the last one. -/
def busShows : MemoryMap := fun a b =>
  a.toNat < 0x2000 ∧ b.toNat ≤ 0x2000 ∧ a.toNat % 0x800 = b.toNat % 0x800

/-- What is seen of a bus, without its cartridge and its cycles. -/
def machine (bus : Bus) : Machine busShows where
  programCounter := bus.cpu.programCounter
  register := bus.cpu.register
  flag := bus.cpu.flag
  memory := readMem bus

/-! ### The machine's own fields -/

namespace NumberMachine.Machine

variable {shows : MemoryMap} (m : Machine shows) (r s : Register) (f g : StatusFlags) (v : U8)
  (b : Bool) (a c : U16)

@[simp] lemma setRegister_register :
    (m.setRegister r v).register s = if s = r then v else m.register s :=
  Function.update_apply ..

@[simp] lemma setFlag_flag : (m.setFlag f b).flag g = if g = f then b else m.flag g :=
  Function.update_apply ..

@[simp] lemma setRegister_programCounter :
    (m.setRegister r v).programCounter = m.programCounter := rfl
@[simp] lemma setRegister_flag : (m.setRegister r v).flag = m.flag := rfl
@[simp] lemma setRegister_memory : (m.setRegister r v).memory = m.memory := rfl
@[simp] lemma setFlag_programCounter : (m.setFlag f b).programCounter = m.programCounter := rfl
@[simp] lemma setFlag_register : (m.setFlag f b).register = m.register := rfl
@[simp] lemma setFlag_memory : (m.setFlag f b).memory = m.memory := rfl
@[simp] lemma store_programCounter : (m.store a v).programCounter = m.programCounter := rfl
@[simp] lemma store_register : (m.store a v).register = m.register := rfl
@[simp] lemma store_flag : (m.store a v).flag = m.flag := rfl
@[simp] lemma store_memory : (m.store a v).memory c = if shows a c then v else m.memory c := rfl
@[simp] lemma jump_programCounter : (m.jump a).programCounter = a := rfl
@[simp] lemma jump_register : (m.jump a).register = m.register := rfl
@[simp] lemma jump_flag : (m.jump a).flag = m.flag := rfl
@[simp] lemma jump_memory : (m.jump a).memory = m.memory := rfl

@[simp] lemma judge_flag : (m.judge v).flag f =
    if f = .negativeFlag then v.msb else if f = .zeroFlag then v == 0 else m.flag f := by
  have hzero : decide (v.toNat = 0) = (v == 0) := by
    rw [Bool.eq_iff_iff, decide_eq_true_iff, beq_iff_eq, ← BitVec.toNat_inj]
    rfl
  rw [judge, setFlag_flag, setFlag_flag, hzero, BitVec.msb_eq_decide]

@[simp] lemma judge_programCounter : (m.judge v).programCounter = m.programCounter := rfl
@[simp] lemma judge_register : (m.judge v).register = m.register := rfl
@[simp] lemma judge_memory : (m.judge v).memory = m.memory := rfl

end NumberMachine.Machine

/-! ### The bodies -/

/-- The machines are compared register by register, flag by flag and load by load. -/
lemma machine_eq {bus : Bus} {m : Machine busShows}
    (hpc : bus.cpu.programCounter = m.programCounter)
    (hregister : ∀ r, bus.cpu.register r = m.register r)
    (hflag : ∀ f, bus.cpu.flag f = m.flag f) (hmemory : ∀ a, readMem bus a = m.memory a) :
    machine bus = m :=
  Machine.ext hpc (funext hregister) (funext hflag) (funext hmemory)

lemma cpu_eq {c d : CPU} (hpc : c.programCounter = d.programCounter)
    (hregister : c.register = d.register) (hflag : c.flag = d.flag)
    (hcycles : c.cycles = d.cycles) : c = d := by
  have hstatus := status_ext (congrFun hflag)
  have ha : c.accumulator = d.accumulator := congrFun hregister .accumulator
  have hx : c.x = d.x := congrFun hregister .x
  have hy : c.y = d.y := congrFun hregister .y
  have hs : c.stackPointer = d.stackPointer := congrFun hregister .stackPointer
  cases c
  cases d
  simp_all

/-- All of RAM can be read. -/
lemma cpuRam_of_readMem {b c : Bus} (h : readMem b = readMem c) : b.cpuRam = c.cpuRam := by
  funext k
  have hlt : (BitVec.ofNat 16 k.val).toNat = k.val := by
    rw [BitVec.toNat_ofNat]
    omega
  have hcell : ramCell (BitVec.ofNat 16 k.val) = k := by
    rw [Fin.ext_iff, ramCell_val, hlt]
    omega
  have hread := congrFun h (BitVec.ofNat 16 k.val)
  rwa [readMem_of_le (by omega), readMem_of_le (by omega), hcell] at hread

/-- The machine, the cartridge and the cycle counter are all that there is of a bus. -/
lemma bus_eq {b c : Bus} (hmachine : machine b = machine c) (hcart : b.cartridge = c.cartridge)
    (hcycles : b.cpu.cycles = c.cpu.cycles) : b = c := by
  have hcpu : b.cpu = c.cpu := cpu_eq (congrArg Machine.programCounter hmachine)
    (congrArg Machine.register hmachine) (congrArg Machine.flag hmachine) hcycles
  have hram := cpuRam_of_readMem (congrArg Machine.memory hmachine)
  cases b
  cases c
  simp_all

section Bodies

variable (bus : Bus) (a : U16) (v : U8)

lemma readMem_stored (b : U16) :
    readMem (writeMem bus a v) b = if busShows a b then v else readMem bus b := by
  by_cases hb : b.toNat ≤ 0x2000
  · rw [readMem_of_le hb, readMem_of_le hb, writeMem_cpuRam]
    simp only [writtenCell_eq_iff, busShows, hb, true_and, decide_eq_true_iff]
  · rw [readMem_above (writeMem_cartridge bus a v) (by omega)]
    simp [busShows, hb]

@[simp] lemma machine_writeMem : machine (writeMem bus a v) = (machine bus).store a v := by
  refine machine_eq ?_ (fun r => ?_) (fun f => ?_) (readMem_stored bus a v)
  · rw [writeMem_cpu]
    rfl
  · rw [writeMem_cpu]
    rfl
  · rw [writeMem_cpu]
    rfl

lemma machine_setFlag (f : StatusFlags) (b : Bool) :
    machine (bus.onCpu fun cpu => setFlag cpu f b) = (machine bus).setFlag f b := by
  refine machine_eq ?_ (fun r => ?_) (fun g => ?_) fun c => readMem_congr rfl rfl c
  · exact setFlag_programCounter ..
  · exact setFlag_register ..
  · rw [Machine.setFlag_flag]
    exact flag_setFlag ..

lemma machine_judge :
    machine (bus.onCpu fun cpu => updateZeroAndNegativeFlags cpu v) = (machine bus).judge v := by
  refine machine_eq rfl (fun r => ?_) (fun f => ?_) fun c => readMem_congr rfl rfl c
  · exact updateZeroAndNegativeFlags_register ..
  · rw [Machine.judge_flag]
    exact updated_flag ..

lemma machine_jump : machine (bus.onCpu fun cpu => { cpu with programCounter := a }) =
    (machine bus).jump a :=
  machine_eq rfl (fun r => transfer_register bus r a) (fun _ => rfl) fun c =>
    readMem_congr rfl rfl c

@[simp] lemma machine_putAccumulator :
    machine (putAccumulator bus v) = (machine bus).put .accumulator v := by
  refine machine_eq rfl (fun r => ?_) (fun f => ?_) fun c => readMem_congr rfl rfl c
  · cases r <;> rfl
  · rw [putAccumulator_flag, Machine.put, Machine.judge_flag]
    rfl

@[simp] lemma machine_putX : machine (putX bus v) = (machine bus).put .x v := by
  refine machine_eq rfl (fun r => ?_) (fun f => ?_) fun c => readMem_congr rfl rfl c
  · cases r <;> rfl
  · rw [putX_flag, Machine.put, Machine.judge_flag]
    rfl

@[simp] lemma machine_putY : machine (putY bus v) = (machine bus).put .y v := by
  refine machine_eq rfl (fun r => ?_) (fun f => ?_) fun c => readMem_congr rfl rfl c
  · cases r <;> rfl
  · rw [putY_flag, Machine.put, Machine.judge_flag]
    rfl

end Bodies

/-! ### Arithmetic -/

section Bytes

variable (a v : U8) (c : Bool)

lemma sum_eq_ofNat : a + v + (BitVec.ofBool c).setWidth 8 =
    BitVec.ofNat 8 (a.toNat + v.toNat + c.toNat) := by
  rw [BitVec.ofNat_add, BitVec.ofNat_add, BitVec.ofNat_toNat, BitVec.ofNat_toNat]
  cases c <;> simp

lemma overflows_eq_signed :
    overflows a.msb v.msb (BitVec.ofNat 8 (a.toNat + v.toNat + c.toNat)).msb =
      decide (a.toInt + v.toInt + c.toNat < -128 ∨ 127 < a.toInt + v.toInt + c.toNat) := by
  have ha := a.isLt
  have hv := v.isLt
  have hc := c.toNat_lt
  rw [BitVec.toInt_eq_toNat_cond, BitVec.toInt_eq_toNat_cond, BitVec.msb_eq_decide,
    BitVec.msb_eq_decide, BitVec.msb_eq_decide, BitVec.toNat_ofNat, overflows, Bool.eq_iff_iff]
  simp only [Bool.and_eq_true, beq_iff_eq, bne_iff_ne, ne_eq, decide_eq_decide,
    decide_eq_true_iff]
  split <;> split <;> omega

lemma difference_eq_ofInt :
    BitVec.ofNat 8 (a.toNat + (~~~v).toNat + c.toNat) =
      BitVec.ofInt 8 (a.toNat - v.toNat - (!c).toNat) := by
  have ha := a.isLt
  have hv := v.isLt
  apply BitVec.eq_of_toNat_eq
  rw [BitVec.toNat_ofNat, BitVec.toNat_ofInt, BitVec.toNat_not]
  cases c <;> simp only [Bool.not_true, Bool.not_false, Bool.toNat_true, Bool.toNat_false] <;> omega

lemma toInt_not : (~~~v).toInt = -1 - v.toInt := by
  revert v
  decide

end Bytes

namespace NumberMachine.Machine

variable {shows : MemoryMap}

/-- **Subtraction** adds the complement. -/
lemma add_not (m : Machine shows) (v : U8) : m.add (~~~v) = m.subtract v := by
  have ha := (m.register .accumulator).isLt
  have hv := v.isLt
  have hnot : (~~~v).toNat = 255 - v.toNat := BitVec.toNat_not
  have hcarry : (256 ≤ (m.register .accumulator).toNat + (~~~v).toNat +
        (m.flag .carryFlag).toNat) ↔
      (0 : ℤ) ≤ (m.register .accumulator).toNat - v.toNat - (!m.flag .carryFlag).toNat := by
    cases m.flag .carryFlag <;>
      simp only [Bool.not_true, Bool.not_false, Bool.toNat_true, Bool.toNat_false] <;> omega
  have hsigned : (m.register .accumulator).toInt + (~~~v).toInt + (m.flag .carryFlag).toNat =
      (m.register .accumulator).toInt - v.toInt - (!m.flag .carryFlag).toNat := by
    rw [toInt_not]
    cases m.flag .carryFlag <;>
      simp only [Bool.not_true, Bool.not_false, Bool.toNat_true, Bool.toNat_false] <;> omega
  unfold add subtract
  dsimp only
  rw [hsigned, difference_eq_ofInt, decide_eq_decide.mpr hcarry]

end NumberMachine.Machine

section Arithmetic

variable (bus : Bus) (a : U16) (v : U8)

@[simp] lemma machine_addWithCarry :
    machine (addWithCarry bus (v.setWidth 16)) = (machine bus).add v := by
  have hsum : sumByte bus.cpu v = BitVec.ofNat 8
      (bus.cpu.accumulator.toNat + v.toNat + (bus.cpu.flag .carryFlag).toNat) :=
    sum_eq_ofNat _ _ _
  have hcarry := @BitVec.carry_width 8 (bus.cpu.flag .carryFlag) bus.cpu.accumulator v
  have hoverflow := overflows_eq_signed bus.cpu.accumulator v (bus.cpu.flag .carryFlag)
  refine machine_eq ?_ (fun r => ?_) (fun f => ?_) fun c => readMem_congr rfl rfl c
  · simp [addWithCarry, Machine.add, Machine.put, machine]
  · have hother : ∀ r, r ≠ Register.accumulator →
        (addWithCarry bus (v.setWidth 16)).cpu.register r = ((machine bus).add v).register r := by
      intro r hr
      rw [addWithCarry_register bus _ hr]
      simp [Machine.add, Machine.put, machine, hr]
    cases r
    case accumulator => exact (addWithCarry_accumulator bus v).trans hsum
    all_goals exact hother _ (by decide)
  · simp only [Machine.add, Machine.put, Machine.judge_flag, Machine.setRegister_flag,
      Machine.setFlag_flag]
    cases f
    case carryFlag => exact (addWithCarry_carry bus v).trans hcarry
    case zeroFlag => exact (addWithCarry_zero bus v).trans (congrArg (· == 0) hsum)
    case negativeFlag => exact (addWithCarry_negative bus v).trans (congrArg BitVec.msb hsum)
    case overflowFlag =>
      rw [addWithCarry_overflow, hsum]
      exact hoverflow
    all_goals simp [addWithCarry, machine]

lemma machine_sbcFn : machine (sbcFn bus a) = (machine bus).subtract (readMem bus a) := by
  rw [sbcFn_eq, machine_addWithCarry, Machine.add_not]

@[simp] lemma machine_compare (r : Register) :
    machine (compare bus (bus.cpu.register r) v) = (machine bus).compareWith r v := by
  have hdifference : bus.cpu.register r - v =
      BitVec.ofInt 8 ((bus.cpu.register r).toNat - v.toNat) := by
    have hr := (bus.cpu.register r).isLt
    have hv := v.isLt
    apply BitVec.eq_of_toNat_eq
    rw [BitVec.toNat_sub, BitVec.toNat_ofInt]
    omega
  have hsteps : compare bus (bus.cpu.register r) v =
      (bus.onCpu fun cpu => setFlag cpu .carryFlag (bus.cpu.register r ≥ v)).onCpu fun cpu =>
        updateZeroAndNegativeFlags cpu (bus.cpu.register r - v) := rfl
  rw [hsteps, machine_judge, machine_setFlag, hdifference]
  rfl

@[simp] lemma machine_bitFn : machine (bitFn bus a) = (machine bus).bitTest (readMem bus a) := by
  have hbits : ∀ m : U8, (m &&& (1 <<< 6) != 0) = decide (m.toNat / 64 % 2 = 1) ∧
      (m &&& (1 <<< 7) != 0) = decide (128 ≤ m.toNat) := by decide
  have hzero : ∀ m : U8, (m == 0) = decide (m.toNat = 0) := by decide
  have hsteps : bitFn bus a =
      ((bus.onCpu fun cpu => setFlag cpu .zeroFlag
        (bus.cpu.accumulator &&& readMem bus a == 0)).onCpu fun cpu => setFlag cpu .overflowFlag
        (readMem bus a &&& (1 <<< 6) != 0)).onCpu fun cpu => setFlag cpu .negativeFlag
        (readMem bus a &&& (1 <<< 7) != 0) := by
    unfold bitFn Bus.onCpu
    rfl
  rw [hsteps, machine_setFlag, machine_setFlag, machine_setFlag, (hbits _).1, (hbits _).2, hzero]
  rfl

@[simp] lemma machine_putShifted (c : Bool) : machine (putShifted bus a v c) =
    (((machine bus).setFlag .carryFlag c).store a v).judge v := by
  rw [putShifted, machine_judge, machine_writeMem, machine_setFlag]

@[simp] lemma machine_putShiftedAcc (c : Bool) : machine (putShiftedAcc bus v c) =
    (((machine bus).setFlag .carryFlag c).setRegister .accumulator v).judge v := by
  have hsteps : putShiftedAcc bus v c =
      putAccumulator (bus.onCpu fun cpu => setFlag cpu .carryFlag c) v := rfl
  rw [hsteps, machine_putAccumulator, machine_setFlag]
  rfl

end Arithmetic

/-! ### The stack -/

section Stack

variable (bus : Bus) (v : U8)

lemma stackAddress_eq (s : U8) : stackStart + s.setWidth 16 = Machine.stackAddress s := by
  revert s
  decide

@[simp] lemma machine_pushStack : machine (pushStack bus v) = (machine bus).push v := by
  have hsteps : pushStack bus v =
      (writeMem bus (Machine.stackAddress bus.cpu.stackPointer) v).onCpu fun cpu =>
        { cpu with stackPointer := cpu.stackPointer - 1 } := by
    rw [← stackAddress_eq]
    rfl
  have hpointer : ∀ bus : Bus, machine (bus.onCpu fun cpu =>
      { cpu with stackPointer := cpu.stackPointer - 1 }) =
        (machine bus).setRegister .stackPointer (bus.cpu.stackPointer - 1) := by
    intro bus
    refine machine_eq rfl (fun r => ?_) (fun _ => rfl) fun c => readMem_congr rfl rfl c
    cases r <;> rfl
  rw [hsteps, hpointer, machine_writeMem, writeMem_cpu]
  rfl

lemma popStack_top : (popStack bus).1 = (machine bus).top := by
  change readMem _ (stackStart + (bus.cpu.stackPointer + 1).setWidth 16) = _
  rw [stackAddress_eq]
  exact readMem_congr rfl rfl _

@[simp] lemma machine_popStack : machine (popStack bus).2 = (machine bus).drop := by
  refine machine_eq rfl (fun r => ?_) (fun _ => rfl) fun c => readMem_congr rfl rfl c
  cases r <;> rfl

@[simp] lemma machine_pushStackU16 (w : U16) :
    machine (pushStackU16 bus w) = (machine bus).pushWord w := by
  rw [pushStackU16, machine_pushStack, machine_pushStack]
  rfl

lemma popStackU16_topWord : (popStackU16 bus).1 = (machine bus).topWord := by
  rw [popStackU16_fst, popStack_top, popStack_top, machine_popStack]
  rfl

@[simp] lemma machine_popStackU16 : machine (popStackU16 bus).2 = (machine bus).dropWord := by
  change machine (popStack (popStack bus).2).2 = _
  rw [machine_popStack, machine_popStack]
  rfl

lemma status_eq : bus.cpu.status = (machine bus).statusByte := by
  apply BitVec.eq_of_getLsbD_eq
  intro i hi
  rw [Machine.statusByte, BitVec.getLsbD_ofBoolListLE]
  match i, hi with
  | 0, _ | 1, _ | 2, _ | 3, _ | 4, _ | 5, _ | 6, _ | 7, _ => rfl

@[simp] lemma machine_putPulledStatus :
    machine (bus.onCpu fun cpu => putPulledStatus cpu v) = (machine bus).setStatus v := by
  refine machine_eq rfl (fun r => ?_) (fun f => ?_) fun c => readMem_congr rfl rfl c
  · exact putPulledStatus_register ..
  · rw [Machine.setStatus, Machine.setFlag_flag, Machine.setFlag_flag]
    exact flag_putPulledStatus ..

end Stack

/-! ### The instructions -/

section Instructions

variable (bus : Bus) (a : U16)

/-- The operand of an instruction with this mode, if this address is handed to it. -/
def operandOf (mode : AddressingMode) (a : U16) : Operand :=
  if mode = .accumulator then .accumulator else .cell a

lemma machine_branchIf {i : Instruction} {c : StatusFlags × Bool} (h : condition i = some c)
    {taken : Bool} (htaken : taken = (bus.cpu.flag c.1 == c.2)) :
    machine (branchIf taken bus a) = if (machine bus).takes i
      then (machine bus).jump ((machine bus).programCounter + a) else machine bus := by
  have htakes : (machine bus).takes i = taken := by
    rw [htaken, Machine.takes, h]
    rfl
  rw [htakes]
  cases taken
  · rfl
  · rw [branchIf, if_pos rfl, if_pos rfl, branch_eq]
    refine machine_eq rfl (fun r => ?_) (fun _ => rfl) fun c => readMem_congr rfl rfl c
    cases r <;> rfl

/-- The bits and numbers of the shifts, the counts and their bytes. -/
lemma shifted_bytes (v : U8) (c : Bool) :
    v <<< 1 = BitVec.ofNat 8 (2 * v.toNat) ∧ v >>> 1 = BitVec.ofNat 8 (v.toNat / 2) ∧
      ((v <<< 1) ||| (BitVec.ofBool c).setWidth 8) = BitVec.ofNat 8 (2 * v.toNat + c.toNat) ∧
      ((v >>> 1) ||| ((BitVec.ofBool c).setWidth 8 <<< 7)) =
        BitVec.ofNat 8 ((v.toNat + 256 * c.toNat) / 2) ∧
      (v &&& 0x80 != 0) = decide (128 ≤ v.toNat) ∧
      (v &&& 0x01 != 0) = decide (v.toNat % 2 = 1) := by
  revert v c
  decide

lemma counted_bytes (v : U8) :
    v + 1 = BitVec.ofInt 8 (v.toNat + 1) ∧ v - 1 = BitVec.ofInt 8 (v.toNat + -1) := by
  revert v
  decide

lemma machine_aslFn : machine (aslFn bus a) = (machine bus).shift .left (.cell a) := by
  obtain ⟨hleft, -, -, -, hout, -⟩ := shifted_bytes (readMem bus a) false
  rw [aslFn, hleft, hout]
  exact machine_putShifted ..

lemma machine_lsrFn : machine (lsrFn bus a) = (machine bus).shift .right (.cell a) := by
  obtain ⟨-, hright, -, -, -, hout⟩ := shifted_bytes (readMem bus a) false
  rw [lsrFn, hright, hout]
  exact machine_putShifted ..

lemma machine_rolFn : machine (rolFn bus a) = (machine bus).shift .rotateLeft (.cell a) := by
  obtain ⟨-, -, hleft, -, hout, -⟩ := shifted_bytes (readMem bus a) (bus.cpu.flag .carryFlag)
  rw [rolFn, CPU.carry, hleft, hout]
  exact machine_putShifted ..

lemma machine_rorFn : machine (rorFn bus a) = (machine bus).shift .rotateRight (.cell a) := by
  obtain ⟨-, -, -, hright, -, hout⟩ := shifted_bytes (readMem bus a) (bus.cpu.flag .carryFlag)
  rw [rorFn, CPU.carry, hright, hout]
  exact machine_putShifted ..

lemma machine_incFn : machine (incFn bus a) = (machine bus).count 1 (.cell a) := by
  rw [incFn, (counted_bytes (readMem bus a)).1, machine_judge, machine_writeMem]
  rfl

lemma machine_decFn : machine (decFn bus a) = (machine bus).count (-1) (.cell a) := by
  rw [decFn, (counted_bytes (readMem bus a)).2, machine_writeMem, machine_judge]
  rfl

lemma machine_brkFn (o : Operand) : machine (brkFn bus a) = (machine bus).execute .brk o := by
  have hword : ∀ bus : Bus, readMemU16 bus 0xFFFE = (machine bus).vector 0xFFFE := by
    intro bus
    have hmask : ∀ v : U8, v.setWidth 16 &&& (0x00FF : U16) = v.setWidth 16 := by decide
    rw [readMemU16, hmask, hmask, shiftLeft_or_eq_append]
    rfl
  unfold brkFn
  rw [machine_jump, hword, machine_pushStack, status_eq, machine_setFlag, machine_pushStackU16]
  rfl

lemma machine_rtiFn (o : Operand) : machine (rtiFn bus a) = (machine bus).execute .rti o := by
  unfold rtiFn
  rw [machine_jump, popStackU16_topWord, machine_popStackU16, machine_putPulledStatus,
    machine_popStack, popStack_top]
  rfl

lemma machine_phpFn (o : Operand) : machine (phpFn bus a) = (machine bus).execute .php o := by
  have hstatus : bus.cpu.status ||| StatusFlags.unusedFlag.mask ||| StatusFlags.breakCommand.mask =
      (((machine bus).setFlag .unusedFlag true).setFlag .breakCommand true).statusByte := by
    rw [← machine_setFlag, ← machine_setFlag, ← status_eq]
    rfl
  rw [phpFn, hstatus]
  exact machine_pushStack ..

/-- **Instructions** whose operand is no register. -/
theorem machine_call_cell (i : Instruction) :
    machine ((i.fn .implied).call bus a) = (machine bus).execute i (.cell a) := by
  have hfalse : ∀ b : Bool, (!b) = (b == false) := by decide
  have htrue : ∀ b : Bool, b = (b == true) := by decide
  cases i
  case lda => exact machine_putAccumulator ..
  case ldx => exact machine_putX ..
  case ldy => exact machine_putY ..
  case lax =>
    change machine (ldxFn (ldaFn bus a) a) = _
    rw [ldxFn, machine_putX, ldaFn, machine_putAccumulator]
    rfl
  case sta | stx | sty | sax => exact machine_writeMem ..
  case tax | tsx => exact machine_putX ..
  case tay => exact machine_putY ..
  case txa | tya => exact machine_putAccumulator ..
  case txs =>
    refine machine_eq rfl (fun r => ?_) (fun _ => rfl) fun c => readMem_congr rfl rfl c
    cases r <;> rfl
  -- arithmetic and logic
  case adc => exact machine_addWithCarry ..
  case sbc => exact machine_sbcFn ..
  case and | ora | eor => exact machine_putAccumulator ..
  case cmp => exact machine_compare bus _ .accumulator
  case cpx => exact machine_compare bus _ .x
  case cpy => exact machine_compare bus _ .y
  case bit => exact machine_bitFn ..
  case asl => exact machine_aslFn ..
  case lsr => exact machine_lsrFn ..
  case rol => exact machine_rolFn ..
  case ror => exact machine_rorFn ..
  case inc => exact machine_incFn ..
  case dec => exact machine_decFn ..
  case inx =>
    change machine (putX bus (bus.cpu.x + 1)) = _
    rw [machine_putX, (counted_bytes bus.cpu.x).1]
    rfl
  case iny =>
    change machine (putY bus (bus.cpu.y + 1)) = _
    rw [machine_putY, (counted_bytes bus.cpu.y).1]
    rfl
  case dex =>
    change machine (putX bus (bus.cpu.x - 1)) = _
    rw [machine_putX, (counted_bytes bus.cpu.x).2]
    rfl
  case dey =>
    change machine (putY bus (bus.cpu.y - 1)) = _
    rw [machine_putY, (counted_bytes bus.cpu.y).2]
    rfl
  -- the second step finds what the first one has left
  case slo =>
    change machine (oraFn (aslFn bus a) a) = _
    rw [oraFn, machine_putAccumulator]
    exact congrArg (fun m => m.logic (· ||| ·) (m.load (.cell a))) (machine_aslFn bus a)
  case rla =>
    change machine (andFn (rolFn bus a) a) = _
    rw [andFn, machine_putAccumulator]
    exact congrArg (fun m => m.logic (· &&& ·) (m.load (.cell a))) (machine_rolFn bus a)
  case sre =>
    change machine (eorFn (lsrFn bus a) a) = _
    rw [eorFn, machine_putAccumulator]
    exact congrArg (fun m => m.logic (· ^^^ ·) (m.load (.cell a))) (machine_lsrFn bus a)
  case rra =>
    change machine (adcFn (rorFn bus a) a) = _
    rw [adcFn, machine_addWithCarry]
    exact congrArg (fun m => m.add (m.load (.cell a))) (machine_rorFn bus a)
  case dcp =>
    change machine (cmpFn (decFn bus a) a) = _
    refine (machine_compare (decFn bus a) _ .accumulator).trans ?_
    exact congrArg (fun m => m.compareWith .accumulator (m.load (.cell a))) (machine_decFn bus a)
  case isb =>
    change machine (sbcFn (incFn bus a) a) = _
    rw [machine_sbcFn]
    exact congrArg (fun m => m.subtract (m.load (.cell a))) (machine_incFn bus a)
  -- the stack and control
  case pha => exact machine_pushStack ..
  case php => exact machine_phpFn bus a _
  case pla =>
    change machine (putAccumulator (popStack bus).2 (popStack bus).1) = _
    rw [machine_putAccumulator, machine_popStack, popStack_top]
    rfl
  case plp =>
    change machine ((popStack bus).2.onCpu fun cpu => putPulledStatus cpu (popStack bus).1) = _
    rw [machine_putPulledStatus, machine_popStack, popStack_top]
    rfl
  case jmp => exact machine_jump ..
  case jsr =>
    change machine ((pushStackU16 bus (bus.cpu.programCounter - 1)).onCpu fun cpu =>
      { cpu with programCounter := a }) = _
    rw [machine_jump, machine_pushStackU16]
    rfl
  case rts =>
    change machine ((popStackU16 bus).2.onCpu fun cpu =>
      { cpu with programCounter := (popStackU16 bus).1 + 1 }) = _
    rw [machine_jump, machine_popStackU16, popStackU16_topWord]
    rfl
  case brk => exact machine_brkFn bus a _
  case rti => exact machine_rtiFn bus a _
  case clc | cld | cli | clv | sec | sed | sei => exact machine_setFlag ..
  case bcc | bne | bpl | bvc => exact machine_branchIf bus a rfl (hfalse _)
  case bcs | beq | bmi | bvs => exact machine_branchIf bus a rfl (htrue _)
  all_goals rfl

/-- Shifts and rotates of the accumulator. -/
theorem machine_call_accumulator {i : Instruction} (h : i ∈ shiftInstructions) :
    machine ((i.fn .accumulator).call bus a) = (machine bus).execute i .accumulator := by
  obtain ⟨hasl, hlsr, hrol, hror, hup, hdown⟩ :=
    shifted_bytes bus.cpu.accumulator (bus.cpu.flag .carryFlag)
  simp only [shiftInstructions, List.mem_cons, List.not_mem_nil, or_false] at h
  rcases h with rfl | rfl | rfl | rfl
  · change machine (putShiftedAcc bus (bus.cpu.accumulator <<< 1) _) = _
    rw [hasl, hup]
    exact machine_putShiftedAcc ..
  · change machine (putShiftedAcc bus (bus.cpu.accumulator >>> 1) _) = _
    rw [hlsr, hdown]
    exact machine_putShiftedAcc ..
  · change machine (putShiftedAcc bus ((bus.cpu.accumulator <<< 1) ||| bus.cpu.carry) _) = _
    rw [CPU.carry, hrol, hup]
    exact machine_putShiftedAcc ..
  · change machine (putShiftedAcc bus ((bus.cpu.accumulator >>> 1) ||| (bus.cpu.carry <<< 7)) _) = _
    rw [CPU.carry, hror, hdown]
    exact machine_putShiftedAcc ..

end Instructions

/-! ### A step -/

set_option maxRecDepth 4000 in
lemma opcodes_accumulator : ∀ code ∈ opcodes.toList, code.addressingMode = .accumulator →
    code.instruction ∈ shiftInstructions := by
  decide +kernel

set_option maxRecDepth 4000 in
lemma opcodes_jam : ∀ code ∈ opcodes.toList, code.instruction = .jam → code.cycles = 1 := by
  decide +kernel

section Step

variable (bus : Bus)

lemma machine_fetch :
    (machine bus).fetch = ((fetched bus).instruction, (fetched bus).addressingMode) := by
  rw [Machine.fetch, decode_opcodes, fetched, getNextOpcode_eq]
  rfl

lemma machine_effectiveAddress (mode : AddressingMode) :
    (machine bus).effectiveAddress mode = NesEmulator.effectiveAddress bus mode := by
  cases mode <;> rfl

lemma fn_of_ne {i : Instruction} {mode : AddressingMode} (h : mode ≠ .accumulator) :
    i.fn mode = i.fn .implied := by
  cases i
  case asl | lsr | rol | ror => cases mode <;> first | rfl | exact absurd rfl h
  all_goals rfl

/-- An instruction of the table, with the operand address that is handed to it. -/
lemma machine_call {i : Instruction} {mode : AddressingMode}
    (h : mode = .accumulator → i ∈ shiftInstructions) (a : U16) :
    machine ((i.fn mode).call bus a) = (machine bus).execute i (operandOf mode a) := by
  by_cases hmode : mode = .accumulator
  · subst hmode
    exact machine_call_accumulator bus a (h rfl)
  · rw [fn_of_ne hmode, operandOf, if_neg hmode, machine_call_cell]

lemma machine_tick (cycles : ℕ) : machine (bus.onCpu fun cpu => tick cpu cycles) = machine bus :=
  machine_eq rfl (fun _ => tick_register ..) (fun _ => rfl) fun c => readMem_congr rfl rfl c

lemma machine_steppedOver : machine (steppedOver bus) = (machine bus).jump (bus.cpu.programCounter +
    BitVec.ofNat 16 ((fetched bus).addressingMode.operandBytes + 1)) := by
  rw [steppedOver_eq, fetched_bytes rfl]
  exact machine_jump ..

/-- **One iteration** is one step. -/
theorem machine_runCpuIteration : machine (runCpuIteration bus) = (machine bus).step := by
  have hshift : (fetched bus).addressingMode = .accumulator →
      (fetched bus).instruction ∈ shiftInstructions := by
    obtain ⟨code, hmem, -, hi, -, -, hmode⟩ := getNextOpcode_row bus bus.cpu.programCounter
    rw [← fetched] at hi hmode
    rw [hi, hmode]
    exact opcodes_accumulator code hmem
  have haddress : operandAddress bus =
      BitVec.ofNat 16 ((machine bus).effectiveAddress (fetched bus).addressingMode) := by
    rw [machine_effectiveAddress, ← operandAddress_toNat, BitVec.ofNat_toNat, BitVec.setWidth_eq]
  rw [runCpuIteration_tick, machine_tick, fetched_call rfl, machine_call _ hshift,
    machine_steppedOver, haddress, Machine.step, machine_fetch]
  rfl

/-! ### Its cycles -/

lemma machine_takes (i : Instruction) : (machine bus).takes i = i.taken bus.cpu := by
  have hfalse : ∀ b : Bool, (b == false) = !b := by decide
  have htrue : ∀ b : Bool, (b == true) = b := by decide
  cases i
  case bcc | bne | bpl | bvc => exact hfalse _
  case bcs | beq | bmi | bvs => exact htrue _
  all_goals rfl

lemma machine_branchCycles (h : (fetched bus).addressingMode = .relative) :
    (runCpuIteration bus).cpu.cycles = bus.cpu.cycles +
      BitVec.ofNat 64 ((machine bus).branchCycles (fetched bus).instruction) := by
  have htarget : bus.cpu.programCounter + 2 +
      BitVec.ofNat 16 ((machine bus).effectiveAddress .relative) = branchTarget bus := by
    rw [machine_effectiveAddress, ← h, ← operandAddress_toNat, BitVec.ofNat_toNat,
      BitVec.setWidth_eq, operandAddress_relative h]
    rfl
  have hpc : (machine bus).programCounter = bus.cpu.programCounter := rfl
  rw [runCpuIteration_branch h, onCpu_cpu, Machine.branchCycles, machine_takes, hpc, htarget]
  split
  · split <;> rfl
  · rfl

lemma machine_indexCarry :
    (machine bus).indexCarry (fetched bus).addressingMode = indexCarry bus := by
  unfold indexCarry
  dsimp only
  cases hmode : (fetched bus).addressingMode
  case absoluteX | absoluteY =>
    rw [Machine.indexCarry, byte_toNat hmode (by decide)]
    rfl
  case indirectY =>
    have hlt : firstByte bus < 256 := (readMem bus (bus.cpu.programCounter + 1)).isLt
    have haddress : (fetched bus).byte.setWidth 16 =
        BitVec.ofNat 16 ((machine bus).firstByte % 256) := by
      apply BitVec.eq_of_toNat_eq
      rw [BitVec.toNat_setWidth, BitVec.toNat_ofNat, byte_toNat hmode (by decide)]
      change firstByte bus % 2 ^ 16 = firstByte bus % 256 % 2 ^ 16
      omega
    rw [Machine.indexCarry, haddress]
    rfl
  all_goals rfl

theorem machine_duration : (runCpuIteration bus).cpu.cycles =
    bus.cpu.cycles + BitVec.ofNat 64 (machine bus).duration := by
  rw [Machine.duration, machine_fetch]
  dsimp only
  split
  · next h => exact machine_branchCycles bus h
  · next h =>
    have hfn : (fetched bus).instructionFn.branches = false := by
      rw [fetched_call rfl]
      exact branches_fn (getNextOpcode_fits bus bus.cpu.programCounter) h
    rw [runCpuIteration_cycles, call_cycles hfn, steppedOver_cycles]
    split
    · next hjam =>
      obtain ⟨code, hmem, -, hi, -, hcycles, -⟩ := getNextOpcode_row bus bus.cpu.programCounter
      rw [← fetched] at hi hcycles
      rw [tickedCycles, hjam, hcycles, opcodes_jam code hmem (hi.symm.trans hjam)]
      rfl
    · next hjam => rw [tickedCycles_eq h hjam, machine_indexCarry]

end Step

/-! ### Runs -/

lemma machine_busReset (bus : Bus) : machine (busReset bus) = (machine bus).reset := by
  have hstatus : ∀ f : StatusFlags,
      (StatusFlags.unusedFlag.mask ||| StatusFlags.interruptDisable.mask).getLsbD f.bit =
        decide (f = .unusedFlag ∨ f = .interruptDisable) := by
    intro f
    cases f <;> decide
  refine machine_eq ?_ (fun r => ?_) hstatus fun c => readMem_congr rfl rfl c
  · exact shiftLeft_or_eq_append _ _
  · cases r <;> rfl

/-- The bus takes an event, and tells what it has cost. -/
def stepBus (bus : Bus) (e : Event) : Bus × Usize :=
  (bus.apply e, (bus.apply e).cpu.cycles - bus.cpu.cycles)

/-- The machine takes it. -/
def stepMachine (m : Machine busShows) (e : Event) : Machine busShows × ℕ := (m.apply e, m.cost e)

theorem stepBus_simulates : Simulates stepBus stepMachine (fun bus m => machine bus = m)
    fun elapsed cost => elapsed = BitVec.ofNat 64 cost := by
  have helapsed : ∀ c d : Usize, c + d - c = d := by
    intro c d
    rw [BitVec.add_comm, BitVec.add_sub_cancel]
  rintro bus m e rfl
  cases e with
  | reset => exact ⟨machine_busReset bus, helapsed _ _⟩
  | iteration =>
    refine ⟨machine_runCpuIteration bus, ?_⟩
    change (runCpuIteration bus).cpu.cycles - bus.cpu.cycles = _
    rw [machine_duration, helapsed]
    rfl
  | write a v =>
    refine ⟨machine_writeMem bus a v, ?_⟩
    change (writeMem bus a v).cpu.cycles - bus.cpu.cycles = _
    rw [writeMem_cpu, BitVec.sub_self]
    rfl

lemma machine_runCpu (fuel : ℕ) (bus : Bus) :
    (runCpu fuel bus).map machine = (machine bus).run fuel := by
  induction fuel generalizing bus with
  | zero => rfl
  | succ fuel ih =>
    rw [runCpu, Machine.run, machine_fetch]
    dsimp only
    split
    · rw [Option.map_some, machine_runCpuIteration]
    · rw [ih, machine_runCpuIteration]

/-- **The emulator refines the machine of numbers**, which follows it where it is no 6502. Whatever
happens to the bus, resets, iterations and stores in any order: it is seen as the machine that the
same has happened to, every event has taken as many cycles as the machine says, and `run_cpu`
returns when and what the machine does. -/
theorem refines_number_machine (bus : Bus) (events : List Event) :
    machine (bus.after events) = final stepMachine (machine bus) events ∧
      List.Forall₂ (fun elapsed cost => elapsed = BitVec.ofNat 64 cost)
        (outputs stepBus bus events) (outputs stepMachine (machine bus) events) ∧
      ∀ fuel, (runCpu fuel (bus.after events)).map machine =
        (final stepMachine (machine bus) events).run fuel := by
  obtain ⟨hfinal, hcosts⟩ := stepBus_simulates.run rfl events
  have hafter : final stepBus bus events = bus.after events := final_eq_run stepBus bus events
  rw [hafter] at hfinal
  refine ⟨hfinal, hcosts, fun fuel => ?_⟩
  rw [machine_runCpu, hfinal]

end NesEmulator
