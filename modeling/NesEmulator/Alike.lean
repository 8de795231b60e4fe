import NesEmulator.Decoding

/-!
Two buses that an observer cannot tell apart.

The observer sees some of the status flags, and the cycle counter up to a constant; cartridge,
RAM and the registers are the same. An instruction that reads no flag but those it sees
takes two such buses to two such buses, and so does a turn of the loop.
-/

namespace NesEmulator

/-- The registers are the same, the seen flags too, and the second counter is ahead by `lag`. -/
structure CPU.Alike (seen : StatusFlags → Prop) (lag : Usize) (b c : CPU) : Prop where
  programCounter : c.programCounter = b.programCounter
  stackPointer : c.stackPointer = b.stackPointer
  accumulator : c.accumulator = b.accumulator
  x : c.x = b.x
  y : c.y = b.y
  cycles : c.cycles = b.cycles + lag
  flag : ∀ f, seen f → c.flag f = b.flag f

structure Alike (seen : StatusFlags → Prop) (lag : Usize) (b c : Bus) : Prop where
  cpu : CPU.Alike seen lag b.cpu c.cpu
  cartridge : c.cartridge = b.cartridge
  cpuRam : c.cpuRam = b.cpuRam

variable {seen : StatusFlags → Prop} {lag : Usize}

/-! ### On the CPU -/

namespace CPU.Alike

variable {b c : CPU} (h : CPU.Alike seen lag b c)
include h

lemma putFlag (f : StatusFlags) {v w : Bool} (hv : w = v) :
    CPU.Alike seen lag (b.putFlag f v) (c.putFlag f w) := by
  refine ⟨h.programCounter, h.stackPointer, h.accumulator, h.x, h.y, h.cycles, fun g hg => ?_⟩
  rw [flag_putFlag, flag_putFlag, h.flag g hg, hv]

lemma setFlag (f : StatusFlags) {v w : Bool} (hv : w = v) :
    CPU.Alike seen lag (NesEmulator.setFlag b f v) (NesEmulator.setFlag c f w) := by
  rw [setFlag_eq_putFlag, setFlag_eq_putFlag]
  exact h.putFlag f hv

lemma updateZeroAndNegativeFlags {v w : U8} (hv : w = v) :
    CPU.Alike seen lag (NesEmulator.updateZeroAndNegativeFlags b v)
      (NesEmulator.updateZeroAndNegativeFlags c w) := by
  subst hv
  exact (h.putFlag _ rfl).putFlag _ rfl

lemma tick (n : ℕ) : CPU.Alike seen lag (NesEmulator.tick b n) (NesEmulator.tick c n) := by
  refine ⟨h.programCounter, h.stackPointer, h.accumulator, h.x, h.y, ?_, h.flag⟩
  change c.cycles + _ = b.cycles + _ + lag
  rw [h.cycles, BitVec.add_assoc, BitVec.add_assoc, BitVec.add_comm lag]

lemma putProgramCounter {v w : U16} (hv : w = v) :
    CPU.Alike seen lag { b with programCounter := v } { c with programCounter := w } :=
  ⟨hv, h.stackPointer, h.accumulator, h.x, h.y, h.cycles, h.flag⟩

lemma putStackPointer {v w : U8} (hv : w = v) :
    CPU.Alike seen lag { b with stackPointer := v } { c with stackPointer := w } :=
  ⟨h.programCounter, hv, h.accumulator, h.x, h.y, h.cycles, h.flag⟩

lemma putAccumulator {v w : U8} (hv : w = v) :
    CPU.Alike seen lag { b with accumulator := v } { c with accumulator := w } :=
  ⟨h.programCounter, h.stackPointer, hv, h.x, h.y, h.cycles, h.flag⟩

lemma putX {v w : U8} (hv : w = v) : CPU.Alike seen lag { b with x := v } { c with x := w } :=
  ⟨h.programCounter, h.stackPointer, h.accumulator, hv, h.y, h.cycles, h.flag⟩

lemma putY {v w : U8} (hv : w = v) : CPU.Alike seen lag { b with y := v } { c with y := w } :=
  ⟨h.programCounter, h.stackPointer, h.accumulator, h.x, hv, h.cycles, h.flag⟩

/-- The same byte put into both status registers. -/
lemma putStatus {v w : U8} (hv : w = v) :
    CPU.Alike seen lag { b with status := v } { c with status := w } := by
  subst hv
  exact ⟨h.programCounter, h.stackPointer, h.accumulator, h.x, h.y, h.cycles, fun _ _ => rfl⟩

lemma putPulledStatus {v w : U8} (hv : w = v) :
    CPU.Alike seen lag (NesEmulator.putPulledStatus b v) (NesEmulator.putPulledStatus c w) :=
  ((h.putStatus hv).putFlag _ rfl).putFlag _ rfl

lemma carry (hseen : seen .carryFlag) : c.carry = b.carry := by
  rw [CPU.carry, CPU.carry, h.flag _ hseen]

/-- An observer of all flags sees the status byte. -/
lemma status (hseen : ∀ f, seen f) : c.status = b.status :=
  status_ext fun f => h.flag f (hseen f)

end CPU.Alike

/-! ### On the bus -/

namespace Alike

variable {b c : Bus} (h : Alike seen lag b c)
include h

lemma readMem (a : U16) : NesEmulator.readMem c a = NesEmulator.readMem b a :=
  readMem_congr h.cartridge h.cpuRam a

lemma onCpu {f g : CPU → CPU} (hfg : CPU.Alike seen lag (f b.cpu) (g c.cpu)) :
    Alike seen lag (b.onCpu f) (c.onCpu g) :=
  ⟨hfg, h.cartridge, h.cpuRam⟩

lemma writeMem (a : U16) {v w : U8} (hv : w = v) :
    Alike seen lag (NesEmulator.writeMem b a v) (NesEmulator.writeMem c a w) := by
  subst hv
  refine ⟨?_, ?_, ?_⟩
  · rw [writeMem_cpu, writeMem_cpu]
    exact h.cpu
  · rw [writeMem_cartridge, writeMem_cartridge, h.cartridge]
  · ext k
    rw [writeMem_cpuRam, writeMem_cpuRam, h.cpuRam]

lemma pushStack {v w : U8} (hv : w = v) :
    Alike seen lag (NesEmulator.pushStack b v) (NesEmulator.pushStack c w) := by
  subst hv
  rw [pushStack_eq, pushStack_eq, h.cpu.stackPointer, h.cpuRam]
  exact ⟨h.cpu.putStackPointer rfl, h.cartridge, rfl⟩

lemma popStack_fst : (popStack c).1 = (popStack b).1 := by
  rw [popStack_eq, popStack_eq, h.cpu.stackPointer, h.cpuRam]

lemma popStack_snd : Alike seen lag (popStack b).2 (popStack c).2 := by
  rw [popStack_eq, popStack_eq, h.cpu.stackPointer]
  exact ⟨h.cpu.putStackPointer rfl, h.cartridge, h.cpuRam⟩

lemma pushStackU16 {v w : U16} (hv : w = v) :
    Alike seen lag (NesEmulator.pushStackU16 b v) (NesEmulator.pushStackU16 c w) := by
  subst hv
  exact (h.pushStack rfl).pushStack rfl

lemma popStackU16_fst : (popStackU16 c).1 = (popStackU16 b).1 := by
  rw [NesEmulator.popStackU16_fst, NesEmulator.popStackU16_fst, h.popStack_fst,
    h.popStack_snd.popStack_fst]

lemma popStackU16_snd : Alike seen lag (popStackU16 b).2 (popStackU16 c).2 :=
  h.popStack_snd.popStack_snd

lemma skip (n : U16) : Alike seen lag (b.skip n) (c.skip n) :=
  h.onCpu (h.cpu.putProgramCounter (by rw [h.cpu.programCounter]))

/-! ### Shared bodies -/

lemma putAccumulator {v w : U8} (hv : w = v) :
    Alike seen lag (NesEmulator.putAccumulator b v) (NesEmulator.putAccumulator c w) :=
  h.onCpu ((h.cpu.putAccumulator hv).updateZeroAndNegativeFlags hv)

lemma putX {v w : U8} (hv : w = v) : Alike seen lag (NesEmulator.putX b v) (NesEmulator.putX c w) :=
  h.onCpu ((h.cpu.putX hv).updateZeroAndNegativeFlags hv)

lemma putY {v w : U8} (hv : w = v) : Alike seen lag (NesEmulator.putY b v) (NesEmulator.putY c w) :=
  h.onCpu ((h.cpu.putY hv).updateZeroAndNegativeFlags hv)

lemma putFlagFn (f : StatusFlags) (v : Bool) (a : U16) :
    Alike seen lag (NesEmulator.putFlagFn f v b a) (NesEmulator.putFlagFn f v c a) :=
  h.onCpu (h.cpu.setFlag f rfl)

lemma addWithCarry (hcarry : seen .carryFlag) {M N : U16} (hM : N = M) :
    Alike seen lag (NesEmulator.addWithCarry b M) (NesEmulator.addWithCarry c N) := by
  subst hM
  refine h.onCpu ?_
  dsimp only
  rw [h.cpu.accumulator, h.cpu.carry hcarry]
  exact (((h.cpu.putAccumulator rfl).setFlag _ rfl).updateZeroAndNegativeFlags
    (by simp only [setFlag_eq_putFlag, CPU.putFlag])).setFlag _ rfl

lemma compare {r m s n : U8} (hr : s = r) (hm : n = m) :
    Alike seen lag (NesEmulator.compare b r m) (NesEmulator.compare c s n) := by
  subst hr hm
  exact h.onCpu ((h.cpu.setFlag _ rfl).updateZeroAndNegativeFlags rfl)

lemma putShifted (a : U16) {v w : U8} {p q : Bool} (hv : w = v) (hp : q = p) :
    Alike seen lag (NesEmulator.putShifted b a v p) (NesEmulator.putShifted c a w q) := by
  have hcarry : Alike seen lag (b.onCpu fun cpu => setFlag cpu .carryFlag p)
      (c.onCpu fun cpu => setFlag cpu .carryFlag q) := h.onCpu (h.cpu.setFlag _ hp)
  have hwritten := hcarry.writeMem a hv
  unfold NesEmulator.putShifted
  exact hwritten.onCpu (hwritten.cpu.updateZeroAndNegativeFlags hv)

lemma putShiftedAcc {v w : U8} {p q : Bool} (hv : w = v) (hp : q = p) :
    Alike seen lag (NesEmulator.putShiftedAcc b v p) (NesEmulator.putShiftedAcc c w q) :=
  h.onCpu (((h.cpu.setFlag _ hp).putAccumulator hv).updateZeroAndNegativeFlags hv)

lemma branch (a : U16) : Alike seen lag (NesEmulator.branch b a) (NesEmulator.branch c a) := by
  have hpc : (NesEmulator.tick c.cpu 1).programCounter =
      (NesEmulator.tick b.cpu 1).programCounter := h.cpu.programCounter
  refine h.onCpu ?_
  dsimp only
  rw [hpc]
  refine CPU.Alike.putProgramCounter ?_ rfl
  split
  · exact (h.cpu.tick 1).tick 1
  · exact h.cpu.tick 1

lemma branchIf {v w : Bool} (hv : w = v) (a : U16) :
    Alike seen lag (NesEmulator.branchIf v b a) (NesEmulator.branchIf w c a) := by
  subst hv
  cases w
  · exact h
  · exact h.branch a

/-! ### The instructions -/

section Memory

variable (a : U16)

lemma aslFn : Alike seen lag (NesEmulator.aslFn b a) (NesEmulator.aslFn c a) :=
  h.putShifted a (by rw [h.readMem]) (by rw [h.readMem])

lemma lsrFn : Alike seen lag (NesEmulator.lsrFn b a) (NesEmulator.lsrFn c a) :=
  h.putShifted a (by rw [h.readMem]) (by rw [h.readMem])

lemma rolFn (hcarry : seen .carryFlag) :
    Alike seen lag (NesEmulator.rolFn b a) (NesEmulator.rolFn c a) :=
  h.putShifted a (by rw [h.readMem, h.cpu.carry hcarry]) (by rw [h.readMem])

lemma rorFn (hcarry : seen .carryFlag) :
    Alike seen lag (NesEmulator.rorFn b a) (NesEmulator.rorFn c a) :=
  h.putShifted a (by rw [h.readMem, h.cpu.carry hcarry]) (by rw [h.readMem])

lemma incFn : Alike seen lag (NesEmulator.incFn b a) (NesEmulator.incFn c a) := by
  have hresult : NesEmulator.readMem c a + 1 = NesEmulator.readMem b a + 1 := by rw [h.readMem]
  have hwritten := h.writeMem a hresult
  unfold NesEmulator.incFn
  exact hwritten.onCpu (hwritten.cpu.updateZeroAndNegativeFlags hresult)

lemma decFn : Alike seen lag (NesEmulator.decFn b a) (NesEmulator.decFn c a) := by
  have hresult : NesEmulator.readMem c a - 1 = NesEmulator.readMem b a - 1 := by rw [h.readMem]
  unfold NesEmulator.decFn
  exact (h.onCpu (h.cpu.updateZeroAndNegativeFlags hresult)).writeMem a hresult

lemma ldaFn : Alike seen lag (NesEmulator.ldaFn b a) (NesEmulator.ldaFn c a) :=
  h.putAccumulator (h.readMem a)

lemma adcFn (hcarry : seen .carryFlag) :
    Alike seen lag (NesEmulator.adcFn b a) (NesEmulator.adcFn c a) :=
  h.addWithCarry hcarry (by rw [h.readMem])

lemma sbcFn (hcarry : seen .carryFlag) :
    Alike seen lag (NesEmulator.sbcFn b a) (NesEmulator.sbcFn c a) :=
  h.addWithCarry hcarry (by rw [h.readMem])

lemma bitFn : Alike seen lag (NesEmulator.bitFn b a) (NesEmulator.bitFn c a) := by
  unfold NesEmulator.bitFn
  rw [h.readMem]
  exact h.onCpu (((h.cpu.setFlag _ (by rw [h.cpu.accumulator])).setFlag _ rfl).setFlag _ rfl)

end Memory

lemma txsFn (a : U16) : Alike seen lag (NesEmulator.txsFn b a) (NesEmulator.txsFn c a) := by
  unfold NesEmulator.txsFn
  exact h.onCpu (h.cpu.putStackPointer h.cpu.x)

lemma jmpFn (a : U16) : Alike seen lag (NesEmulator.jmpFn b a) (NesEmulator.jmpFn c a) := by
  unfold NesEmulator.jmpFn
  exact h.onCpu (h.cpu.putProgramCounter rfl)

lemma plpFn (a : U16) : Alike seen lag (NesEmulator.plpFn b a) (NesEmulator.plpFn c a) := by
  unfold NesEmulator.plpFn
  exact h.popStack_snd.onCpu (h.popStack_snd.cpu.putPulledStatus h.popStack_fst)

lemma rtiFn (a : U16) : Alike seen lag (NesEmulator.rtiFn b a) (NesEmulator.rtiFn c a) := by
  have hstatus : Alike seen lag
      ((popStack b).2.onCpu fun cpu => putPulledStatus cpu (popStack b).1)
      ((popStack c).2.onCpu fun cpu => putPulledStatus cpu (popStack c).1) :=
    h.popStack_snd.onCpu (h.popStack_snd.cpu.putPulledStatus h.popStack_fst)
  unfold NesEmulator.rtiFn
  exact hstatus.popStackU16_snd.onCpu
    (hstatus.popStackU16_snd.cpu.putProgramCounter hstatus.popStackU16_fst)

lemma rtsFn (a : U16) : Alike seen lag (NesEmulator.rtsFn b a) (NesEmulator.rtsFn c a) := by
  unfold NesEmulator.rtsFn
  exact h.popStackU16_snd.onCpu
    (h.popStackU16_snd.cpu.putProgramCounter (congrArg (· + 1) h.popStackU16_fst))

lemma jsrFn (a : U16) : Alike seen lag (NesEmulator.jsrFn b a) (NesEmulator.jsrFn c a) := by
  have hpushed := h.pushStackU16 (congrArg (· - 1) h.cpu.programCounter)
  unfold NesEmulator.jsrFn
  exact hpushed.onCpu (hpushed.cpu.putProgramCounter rfl)

lemma brkFn (hseen : ∀ f, seen f) (a : U16) :
    Alike seen lag (NesEmulator.brkFn b a) (NesEmulator.brkFn c a) := by
  have hpushed := h.pushStackU16 (congrArg (· + 1) h.cpu.programCounter)
  have hbreak : Alike seen lag
      ((NesEmulator.pushStackU16 b (b.cpu.programCounter + 1)).onCpu
        fun cpu => setFlag cpu .breakCommand true)
      ((NesEmulator.pushStackU16 c (c.cpu.programCounter + 1)).onCpu
        fun cpu => setFlag cpu .breakCommand true) :=
    hpushed.onCpu (hpushed.cpu.setFlag _ rfl)
  have hstacked := hbreak.pushStack (hbreak.cpu.status hseen)
  unfold NesEmulator.brkFn readMemU16
  refine hstacked.onCpu (hstacked.cpu.putProgramCounter ?_)
  rw [hstacked.readMem, hstacked.readMem]

end Alike

end NesEmulator
