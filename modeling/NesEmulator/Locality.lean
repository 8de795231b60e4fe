import NesEmulator.MachineRefinement

/-!
What a run depends on.

A step loads the bytes of its instruction, the bytes of a pointer, its operand, what it pulls,
and a vector, and nothing else makes a difference to it. So two runs from memories that differ
elsewhere are the same run, and a store from outside to where a run does not touch may come
before it, behind it or in between.
-/

namespace NesEmulator

open Lib.Bits Lib.Runs

namespace NumberMachine

variable {shows : MemoryMap}

/-- The machines are the same but for the memory, and the memories show the same at some
addresses. -/
structure AgreeOn (S : U16 → Prop) (m k : Machine shows) : Prop where
  programCounter : k.programCounter = m.programCounter
  register : k.register = m.register
  flag : k.flag = m.flag
  memory : ∀ a, S a → k.memory a = m.memory a

/-- One of the stores shows at an address. -/
def Shown (shows : MemoryMap) (stores : List U16) (b : U16) : Prop :=
  ∃ a ∈ stores, shows a b = true

/-- The instructions that load their operand. -/
def loadsOperand : Instruction → Bool
  | .lda | .ldx | .ldy | .lax | .adc | .sbc | .and | .ora | .eor | .cmp | .cpx | .cpy | .bit
  | .asl | .lsr | .rol | .ror | .inc | .dec | .slo | .rla | .sre | .rra | .dcp | .isb => true
  | _ => false

/-- The instructions that store to where their operand is. -/
def storesOperand : Instruction → Bool
  | .sta | .stx | .sty | .sax
  | .asl | .lsr | .rol | .ror | .inc | .dec | .slo | .rla | .sre | .rra | .dcp | .isb => true
  | _ => false

def Operand.cells : Operand → List U16
  | .accumulator => []
  | .cell a => [a]

namespace Machine

/-- The addresses of the bytes that are pulled next, and of those that are pushed next. -/
def pulled (m : Machine shows) (n : ℕ) : List U16 :=
  (List.range n).map fun i => stackAddress (m.register .stackPointer + BitVec.ofNat 8 (i + 1))

def pushed (m : Machine shows) (n : ℕ) : List U16 :=
  (List.range n).map fun i => stackAddress (m.register .stackPointer - BitVec.ofNat 8 i)

/-- What an instruction loads, once it is decoded. -/
def executeLoads (m : Machine shows) (i : Instruction) (o : Operand) : List U16 :=
  match i with
  | .pla | .plp => m.pulled 1
  | .rts => m.pulled 2
  | .rti => m.pulled 3
  | .brk => [0xFFFE, 0xFFFF]
  | i => if loadsOperand i then o.cells else []

/-- Where an instruction stores. A store that cannot be told from the one of an accumulator
operand goes to its address. -/
def executeStores (m : Machine shows) (i : Instruction) (o : Operand) : List U16 :=
  match i with
  | .pha | .php => m.pushed 1
  | .jsr => m.pushed 2
  | .brk => m.pushed 3
  | .sta | .stx | .sty | .sax => [o.address]
  | i => if storesOperand i then o.cells else []

end Machine

/-! ### Operations -/

namespace AgreeOn

variable {S : U16 → Prop} {m k : Machine shows} (h : AgreeOn S m k)

lemma mono {T : U16 → Prop} (h : AgreeOn S m k) (hle : ∀ a, T a → S a) : AgreeOn T m k :=
  ⟨h.programCounter, h.register, h.flag, fun a ha => h.memory a (hle a ha)⟩

include h

lemma setRegister (r : Register) {v w : U8} (hv : w = v) :
    AgreeOn S (m.setRegister r v) (k.setRegister r w) := by
  subst hv
  refine ⟨h.programCounter, ?_, h.flag, h.memory⟩
  rw [Machine.setRegister, Machine.setRegister, h.register]

lemma setFlag (f : StatusFlags) {v w : Bool} (hv : w = v) :
    AgreeOn S (m.setFlag f v) (k.setFlag f w) := by
  subst hv
  refine ⟨h.programCounter, h.register, ?_, h.memory⟩
  rw [Machine.setFlag, Machine.setFlag, h.flag]

lemma jump {a b : U16} (ha : b = a) : AgreeOn S (m.jump a) (k.jump b) :=
  ⟨ha, h.register, h.flag, h.memory⟩

lemma judge {v w : U8} (hv : w = v) : AgreeOn S (m.judge v) (k.judge w) := by
  subst hv
  exact (h.setFlag _ rfl).setFlag _ rfl

lemma put (r : Register) {v w : U8} (hv : w = v) : AgreeOn S (m.put r v) (k.put r w) :=
  (h.setRegister r hv).judge hv

lemma store {a b : U16} (ha : b = a) {v w : U8} (hv : w = v) :
    AgreeOn (fun c => S c ∨ shows a c = true) (m.store a v) (k.store b w) := by
  subst ha hv
  refine ⟨h.programCounter, h.register, h.flag, fun c hc => ?_⟩
  rw [Machine.store_memory, Machine.store_memory]
  split
  · rfl
  · next hnot => exact h.memory c (hc.resolve_right hnot)

lemma load {o : Operand} (hloads : ∀ a ∈ o.cells, S a) : k.load o = m.load o := by
  cases o with
  | accumulator => exact congrFun h.register _
  | cell a => exact h.memory a (hloads a (List.mem_singleton_self a))

lemma keep (o : Operand) {v w : U8} (hv : w = v) :
    AgreeOn (fun c => S c ∨ Shown shows o.cells c) (m.keep o v) (k.keep o w) := by
  cases o with
  | accumulator =>
    refine (h.setRegister _ hv).mono fun c hc => hc.resolve_right ?_
    rintro ⟨a, ha, -⟩
    cases ha
  | cell a =>
    refine (h.store rfl hv).mono fun c hc => hc.imp_right ?_
    rintro ⟨b, hb, hshows⟩
    rwa [List.mem_singleton.mp hb] at hshows

lemma add {v w : U8} (hv : w = v) : AgreeOn S (m.add v) (k.add w) := by
  unfold Machine.add
  rw [hv, h.register, h.flag]
  exact ((h.setFlag _ rfl).setFlag _ rfl).put _ rfl

lemma subtract {v w : U8} (hv : w = v) : AgreeOn S (m.subtract v) (k.subtract w) := by
  unfold Machine.subtract
  rw [hv, h.register, h.flag]
  exact ((h.setFlag _ rfl).setFlag _ rfl).put _ rfl

lemma compareWith (r : Register) {v w : U8} (hv : w = v) :
    AgreeOn S (m.compareWith r v) (k.compareWith r w) := by
  unfold Machine.compareWith
  rw [hv, h.register]
  exact (h.setFlag _ rfl).judge rfl

lemma logic (op : U8 → U8 → U8) {v w : U8} (hv : w = v) :
    AgreeOn S (m.logic op v) (k.logic op w) := by
  unfold Machine.logic
  rw [hv, h.register]
  exact h.put _ rfl

lemma bitTest {v w : U8} (hv : w = v) : AgreeOn S (m.bitTest v) (k.bitTest w) := by
  unfold Machine.bitTest
  rw [hv, h.register]
  exact ((h.setFlag _ rfl).setFlag _ rfl).setFlag _ rfl

lemma shift (s : Machine.Shift) {o : Operand} (hloads : ∀ a ∈ o.cells, S a) :
    AgreeOn (fun c => S c ∨ Shown shows o.cells c) (m.shift s o) (k.shift s o) := by
  unfold Machine.shift
  rw [h.load hloads, h.flag]
  exact ((h.setFlag _ rfl).keep o rfl).judge rfl

lemma count (d : ℤ) {o : Operand} (hloads : ∀ a ∈ o.cells, S a) :
    AgreeOn (fun c => S c ∨ Shown shows o.cells c) (m.count d o) (k.count d o) := by
  unfold Machine.count
  rw [h.load hloads]
  exact (h.keep o rfl).judge rfl

lemma countRegister (d : ℤ) (r : Register) :
    AgreeOn S (m.countRegister d r) (k.countRegister d r) := by
  unfold Machine.countRegister
  rw [h.register]
  exact h.put _ rfl

lemma push {v w : U8} (hv : w = v) :
    AgreeOn (fun c => S c ∨ shows (Machine.stackAddress (m.register .stackPointer)) c = true)
      (m.push v) (k.push w) := by
  unfold Machine.push
  rw [h.register]
  exact (h.store rfl hv).setRegister _ rfl

lemma drop : AgreeOn S m.drop k.drop := by
  unfold Machine.drop
  rw [h.register]
  exact h.setRegister _ rfl

lemma top (hload : S (Machine.stackAddress (m.register .stackPointer + 1))) :
    k.top = m.top := by
  unfold Machine.top
  rw [h.register]
  exact h.memory _ hload

lemma statusByte : k.statusByte = m.statusByte := by
  unfold Machine.statusByte
  rw [h.flag]

lemma setStatus {v w : U8} (hv : w = v) : AgreeOn S (m.setStatus v) (k.setStatus w) := by
  subst hv
  have hflags : AgreeOn S ({ m with flag := fun f => w.getLsbD f.bit } : Machine shows)
      ({ k with flag := fun f => w.getLsbD f.bit } : Machine shows) :=
    ⟨h.programCounter, h.register, rfl, h.memory⟩
  exact (hflags.setFlag _ rfl).setFlag _ rfl

lemma takes (i : Instruction) : k.takes i = m.takes i := by
  unfold Machine.takes
  rw [h.flag]

lemma vector {a : U16} (h0 : S a) (h1 : S (a + 1)) : k.vector a = m.vector a := by
  rw [Machine.vector, Machine.vector, h.memory _ h0, h.memory _ h1]

end AgreeOn

/-! ### Instructions -/

@[simp] lemma shown_nil {b : U16} : ¬ Shown shows [] b := by
  rintro ⟨a, ha, -⟩
  cases ha

@[simp] lemma shown_cons {a b : U16} {stores : List U16} :
    Shown shows (a :: stores) b ↔ shows a b = true ∨ Shown shows stores b := by
  simp [Shown]

namespace Machine

variable (m : Machine shows)

lemma pulled_succ (n : ℕ) : m.pulled (n + 1) =
    stackAddress (m.register .stackPointer + 1) :: m.drop.pulled n := by
  have hpointer : m.drop.register .stackPointer = m.register .stackPointer + 1 := by
    rw [drop, setRegister_register, if_pos rfl]
  have hnext : ∀ (s : U8) (i : ℕ),
      s + BitVec.ofNat 8 (i + 1 + 1) = s + 1 + BitVec.ofNat 8 (i + 1) := fun s i => by bv_omega
  rw [pulled, pulled, List.range_succ_eq_map, List.map_cons, List.map_map, hpointer]
  exact congrArg₂ List.cons rfl
    (List.map_congr_left fun i _ => congrArg stackAddress (hnext _ i))

lemma pushed_succ (n : ℕ) (v : U8) : m.pushed (n + 1) =
    stackAddress (m.register .stackPointer) :: (m.push v).pushed n := by
  have hpointer : (m.push v).register .stackPointer = m.register .stackPointer - 1 := by
    rw [push, setRegister_register, if_pos rfl]
  have hfirst : ∀ s : U8, s - BitVec.ofNat 8 0 = s := BitVec.sub_zero
  have hnext : ∀ (s : U8) (i : ℕ), s - BitVec.ofNat 8 (i + 1) = s - 1 - BitVec.ofNat 8 i :=
    fun s i => by bv_omega
  rw [pushed, pushed, List.range_succ_eq_map, List.map_cons, List.map_map, hpointer, hfirst]
  exact congrArg₂ List.cons rfl
    (List.map_congr_left fun i _ => congrArg stackAddress (hnext _ i))

end Machine

lemma forall_mem_pair {S : U16 → Prop} {a b : U16} (h : ∀ c ∈ [a, b], S c) : S a ∧ S b :=
  ⟨h a List.mem_cons_self, h b (List.mem_cons_of_mem a List.mem_cons_self)⟩

namespace AgreeOn

variable {S : U16 → Prop} {m k : Machine shows} (h : AgreeOn S m k)

include h

lemma quiet : AgreeOn (fun c => S c ∨ Shown shows [] c) m k :=
  h.mono fun _ hc => hc.resolve_right shown_nil

lemma top_pulled {n : ℕ} (hloads : ∀ a ∈ m.pulled (n + 1), S a) : k.top = m.top := by
  rw [Machine.pulled_succ, List.forall_mem_cons] at hloads
  exact h.top hloads.1

lemma topWord_pulled {n : ℕ} (hloads : ∀ a ∈ m.pulled (n + 2), S a) : k.topWord = m.topWord := by
  have hlow := h.top_pulled hloads
  rw [Machine.pulled_succ, List.forall_mem_cons] at hloads
  rw [Machine.topWord, Machine.topWord, hlow, h.drop.top_pulled hloads.2]

lemma push_pushed (n : ℕ) {v w : U8} (hv : w = v) {m' k' : Machine shows}
    (hrest : AgreeOn
        (fun c => S c ∨ shows (Machine.stackAddress (m.register .stackPointer)) c = true)
      (m.push v) (k.push w) → AgreeOn (fun c => (S c ∨
        shows (Machine.stackAddress (m.register .stackPointer)) c = true) ∨
          Shown shows ((m.push v).pushed n) c) m' k') :
    AgreeOn (fun c => S c ∨ Shown shows (m.pushed (n + 1)) c) m' k' := by
  refine (hrest (h.push hv)).mono fun c hc => ?_
  rwa [Machine.pushed_succ m n v, shown_cons, ← or_assoc] at hc

lemma pushByte {v w : U8} (hv : w = v) :
    AgreeOn (fun c => S c ∨ Shown shows (m.pushed 1) c) (m.push v) (k.push w) :=
  h.push_pushed 0 hv quiet

lemma pushWord {v w : U16} (hv : w = v) :
    AgreeOn (fun c => S c ∨ Shown shows (m.pushed 2) c) (m.pushWord v) (k.pushWord w) := by
  subst hv
  exact h.push_pushed 1 rfl fun h => h.pushByte rfl

lemma dropWord : AgreeOn S m.dropWord k.dropWord := h.drop.drop

lemma storeByte {a b : U16} (ha : b = a) {v w : U8} (hv : w = v) :
    AgreeOn (fun c => S c ∨ Shown shows [a] c) (m.store a v) (k.store b w) :=
  (h.store ha hv).mono fun c hc => by rwa [shown_cons, or_iff_left shown_nil] at hc

/-- **One instruction** makes nothing of what it does not load. -/
theorem execute (i : Instruction) {o : Operand} (hloads : ∀ a ∈ m.executeLoads i o, S a) :
    AgreeOn (fun c => S c ∨ Shown shows (m.executeStores i o) c) (m.execute i o)
      (k.execute i o) := by
  have hreg : ∀ r, k.register r = m.register r := fun r => congrFun h.register r
  have hlater : (∀ a ∈ o.cells, S a) → ∀ a ∈ o.cells, S a ∨ Shown shows o.cells a :=
    fun hcells a ha => Or.inl (hcells a ha)
  cases i
  case lda | ldx | ldy => exact (h.put _ (h.load hloads)).quiet
  case lax => exact ((h.put _ (h.load hloads)).put _ (h.load hloads)).quiet
  case sta | stx | sty => exact h.storeByte rfl (hreg _)
  case sax => exact h.storeByte rfl (by rw [hreg, hreg])
  case tax | tay | txa | tya | tsx => exact (h.put _ (hreg _)).quiet
  case txs => exact (h.setRegister _ (hreg _)).quiet
  case adc => exact (h.add (h.load hloads)).quiet
  case sbc => exact (h.subtract (h.load hloads)).quiet
  case and | ora | eor => exact (h.logic _ (h.load hloads)).quiet
  case cmp | cpx | cpy => exact (h.compareWith _ (h.load hloads)).quiet
  case bit => exact (h.bitTest (h.load hloads)).quiet
  case asl => exact h.shift .left hloads
  case lsr => exact h.shift .right hloads
  case rol => exact h.shift .rotateLeft hloads
  case ror => exact h.shift .rotateRight hloads
  case inc | dec => exact h.count _ hloads
  case inx | iny | dex | dey => exact (h.countRegister _ _).quiet
  case slo =>
    have hshift := h.shift .left hloads
    exact hshift.logic _ (hshift.load (hlater hloads))
  case rla =>
    have hshift := h.shift .rotateLeft hloads
    exact hshift.logic _ (hshift.load (hlater hloads))
  case sre =>
    have hshift := h.shift .right hloads
    exact hshift.logic _ (hshift.load (hlater hloads))
  case rra =>
    have hshift := h.shift .rotateRight hloads
    exact hshift.add (hshift.load (hlater hloads))
  case dcp =>
    have hcount := h.count (-1) hloads
    exact hcount.compareWith _ (hcount.load (hlater hloads))
  case isb =>
    have hcount := h.count 1 hloads
    exact hcount.subtract (hcount.load (hlater hloads))
  case clc | cld | cli | clv | sec | sed | sei => exact (h.setFlag _ rfl).quiet
  case pha => exact h.pushByte (hreg _)
  case php => exact h.pushByte ((h.setFlag _ rfl).setFlag _ rfl).statusByte
  case pla => exact (h.drop.put _ (h.top_pulled hloads)).quiet
  case plp => exact (h.drop.setStatus (h.top_pulled hloads)).quiet
  case jmp => exact (h.jump rfl).quiet
  case jsr =>
    have hpushed := h.pushWord (congrArg (· - 1) h.programCounter)
    exact hpushed.jump rfl
  case rts => exact (h.dropWord.jump (congrArg (· + 1) (h.topWord_pulled hloads))).quiet
  case brk =>
    have hreturn : k.programCounter + 1 = m.programCounter + 1 := congrArg (· + 1) h.programCounter
    refine h.push_pushed 2 (congrArg highByte hreturn) fun h => ?_
    refine h.push_pushed 1 (congrArg lowByte hreturn) fun h => ?_
    have hflag := h.setFlag .breakCommand (Eq.refl true)
    have hpushed := hflag.pushByte hflag.statusByte
    obtain ⟨hlow, hhigh⟩ := forall_mem_pair hloads
    exact hpushed.jump (hpushed.vector (Or.inl (Or.inl (Or.inl hlow)))
      (Or.inl (Or.inl (Or.inl hhigh))))
  case rti =>
    have hflags := h.drop.setStatus (h.top_pulled hloads)
    have hbehind : ∀ a ∈ m.drop.pulled 2, S a := by
      have hpulled : ∀ a ∈ m.pulled 3, S a := hloads
      rw [Machine.pulled_succ, List.forall_mem_cons] at hpulled
      exact hpulled.2
    exact (hflags.dropWord.jump (hflags.topWord_pulled hbehind)).quiet
  case bcc | bcs | bne | beq | bpl | bmi | bvc | bvs =>
    unfold Machine.execute
    dsimp only
    rw [h.takes]
    split
    · exact (h.jump (congrArg (· + o.address) h.programCounter)).quiet
    · exact h.quiet
  all_goals exact h.quiet

end AgreeOn

/-! ### Steps -/

namespace Machine

variable (m : Machine shows)

/-- The bytes behind the opcode. -/
def operandLoads (mode : AddressingMode) : List U16 :=
  (List.range mode.operandBytes).map fun i => m.programCounter + BitVec.ofNat 16 (i + 1)

/-- The bytes of the pointer, if the mode has one. -/
def pointerLoads : AddressingMode → List U16
  | .indirect =>
    let w := BitVec.ofNat 16 (m.firstByte + 256 * m.secondByte)
    [w, (w &&& 0xFF00) ||| ((w + 1) &&& 0x00FF)]
  | .indirectX =>
    let a := m.firstByte + (m.register .x).toNat
    [BitVec.ofNat 16 (a % 256), BitVec.ofNat 16 ((a + 1) % 256)]
  | .indirectY => [BitVec.ofNat 16 (m.firstByte % 256), BitVec.ofNat 16 ((m.firstByte + 1) % 256)]
  | _ => []

/-- All that a step loads, and all that it stores to. -/
def loads : List U16 :=
  m.programCounter :: (m.operandLoads m.fetch.2 ++ m.pointerLoads m.fetch.2 ++
    m.executeLoads m.fetch.1 (m.operand m.fetch.2))

def stores : List U16 := m.executeStores m.fetch.1 (m.operand m.fetch.2)

end Machine

namespace AgreeOn

variable {S : U16 → Prop} {m k : Machine shows} (h : AgreeOn S m k)

include h

lemma fetch (hload : S m.programCounter) : k.fetch = m.fetch := by
  rw [Machine.fetch, Machine.fetch, h.programCounter, h.memory _ hload]

lemma firstByte {mode : AddressingMode} (hbytes : 0 < mode.operandBytes)
    (hloads : ∀ a ∈ m.operandLoads mode, S a) : k.firstByte = m.firstByte := by
  have hload : S (m.programCounter + 1) :=
    hloads _ (List.mem_map.mpr ⟨0, List.mem_range.mpr hbytes, rfl⟩)
  rw [Machine.firstByte, Machine.firstByte, h.programCounter, h.memory _ hload]

lemma secondByte {mode : AddressingMode} (hbytes : 1 < mode.operandBytes)
    (hloads : ∀ a ∈ m.operandLoads mode, S a) : k.secondByte = m.secondByte := by
  have hload : S (m.programCounter + 2) :=
    hloads _ (List.mem_map.mpr ⟨1, List.mem_range.mpr hbytes, rfl⟩)
  rw [Machine.secondByte, Machine.secondByte, h.programCounter, h.memory _ hload]

lemma pageZero {a : ℕ} (hload : S (BitVec.ofNat 16 (a % 256))) : k.pageZero a = m.pageZero a := by
  rw [Machine.pageZero, Machine.pageZero, h.memory _ hload]

lemma zeroPointer {a : ℕ} (h0 : S (BitVec.ofNat 16 (a % 256)))
    (h1 : S (BitVec.ofNat 16 ((a + 1) % 256))) : k.zeroPointer a = m.zeroPointer a := by
  rw [Machine.zeroPointer, Machine.zeroPointer, h.pageZero h0, h.pageZero h1]

lemma effectiveAddress {mode : AddressingMode} (hbytes : ∀ a ∈ m.operandLoads mode, S a)
    (hpointer : ∀ a ∈ m.pointerLoads mode, S a) :
    k.effectiveAddress mode = m.effectiveAddress mode := by
  have hreg : ∀ r, k.register r = m.register r := fun r => congrFun h.register r
  cases mode <;> dsimp only [Machine.effectiveAddress]
  case immediate => rw [h.programCounter]
  case zeroPage | relative => rw [h.firstByte (by decide) hbytes]
  case zeroPageX | zeroPageY => rw [h.firstByte (by decide) hbytes, hreg]
  case absolute => rw [h.firstByte (by decide) hbytes, h.secondByte (by decide) hbytes]
  case absoluteX | absoluteY =>
    rw [h.firstByte (by decide) hbytes, h.secondByte (by decide) hbytes, hreg]
  case indirect =>
    obtain ⟨hlow, hhigh⟩ := forall_mem_pair hpointer
    rw [h.firstByte (by decide) hbytes, h.secondByte (by decide) hbytes, Machine.pagePointer,
      Machine.pagePointer, h.memory _ hlow, h.memory _ hhigh]
  case indirectX =>
    obtain ⟨hlow, hhigh⟩ := forall_mem_pair hpointer
    rw [h.firstByte (by decide) hbytes, hreg, h.zeroPointer hlow hhigh]
  case indirectY =>
    obtain ⟨hlow, hhigh⟩ := forall_mem_pair hpointer
    rw [h.firstByte (by decide) hbytes, hreg, h.zeroPointer hlow hhigh]

lemma indexCarry {mode : AddressingMode} (hbytes : ∀ a ∈ m.operandLoads mode, S a)
    (hpointer : ∀ a ∈ m.pointerLoads mode, S a) : k.indexCarry mode = m.indexCarry mode := by
  have hreg : ∀ r, k.register r = m.register r := fun r => congrFun h.register r
  cases mode <;> dsimp only [Machine.indexCarry]
  case absoluteX | absoluteY => rw [h.firstByte (by decide) hbytes, hreg]
  case indirectY =>
    obtain ⟨hlow, -⟩ := forall_mem_pair hpointer
    rw [h.firstByte (by decide) hbytes, hreg, h.pageZero hlow]

/-- **One step** loads and stores in the same places, and takes as long. -/
theorem step (hloads : ∀ a ∈ m.loads, S a) :
    AgreeOn (fun c => S c ∨ Shown shows m.stores c) m.step k.step ∧ k.stores = m.stores ∧
      k.duration = m.duration := by
  rw [Machine.loads, List.forall_mem_cons, List.forall_mem_append, List.forall_mem_append]
    at hloads
  obtain ⟨hopcode, ⟨hbytes, hpointer⟩, hexecute⟩ := hloads
  have hfetch := h.fetch hopcode
  have haddress := h.effectiveAddress hbytes hpointer
  have hoperand : k.operand m.fetch.2 = m.operand m.fetch.2 := by
    rw [Machine.operand, Machine.operand, haddress]
  refine ⟨?_, ?_, ?_⟩
  · have hnext := h.jump (congrArg (· + BitVec.ofNat 16 (m.fetch.2.operandBytes + 1))
      h.programCounter)
    rw [Machine.step, Machine.step, hfetch, hoperand]
    exact hnext.execute m.fetch.1 hexecute
  · rw [Machine.stores, Machine.stores, hfetch, hoperand]
    unfold Machine.executeStores Machine.pushed
    rw [h.register]
  · rw [Machine.duration, Machine.duration, hfetch]
    dsimp only
    split
    · next hmode =>
      rw [hmode] at haddress
      rw [Machine.branchCycles, Machine.branchCycles, haddress, h.takes, h.programCounter]
    · rw [h.indexCarry hbytes hpointer]

end AgreeOn

/-! ### Frames -/

namespace Machine

variable (m : Machine shows)

lemma keep_memory {o : Operand} {c : U16} (h : ¬ Shown shows o.cells c) (v : U8) :
    (m.keep o v).memory c = m.memory c := by
  cases o with
  | accumulator => rfl
  | cell a =>
    rw [Operand.cells, shown_cons, not_or] at h
    exact if_neg h.1

lemma push_memory {n : ℕ} {c : U16} (h : ¬ Shown shows (m.pushed (n + 1)) c) (v : U8) :
    (m.push v).memory c = m.memory c ∧ ¬ Shown shows ((m.push v).pushed n) c := by
  rw [pushed_succ m n v, shown_cons, not_or] at h
  exact ⟨if_neg h.1, h.2⟩

/-- What no store of an instruction shows at, it does not change. -/
lemma execute_memory (i : Instruction) {o : Operand} {c : U16}
    (h : ¬ Shown shows (m.executeStores i o) c) : (m.execute i o).memory c = m.memory c := by
  have hstore : ∀ v, ¬ Shown shows [o.address] c → (m.store o.address v).memory c = m.memory c := by
    intro v hnot
    rw [shown_cons, not_or] at hnot
    exact if_neg hnot.1
  cases i
  case sta | stx | sty | sax => exact hstore _ h
  case asl | lsr | rol | ror | inc | dec | slo | rla | sre | rra | dcp | isb =>
    exact keep_memory _ h _
  case pha | php => exact (push_memory m h _).1
  case jsr =>
    obtain ⟨hhigh, h⟩ := push_memory m h (highByte (m.programCounter - 1))
    exact (push_memory _ h _).1.trans hhigh
  case brk =>
    obtain ⟨hhigh, h⟩ := push_memory m h (highByte (m.programCounter + 1))
    obtain ⟨hlow, h⟩ := push_memory _ h (lowByte (m.programCounter + 1))
    exact (push_memory _ h _).1.trans (hlow.trans hhigh)
  case bcc | bcs | bne | beq | bpl | bmi | bvc | bvs =>
    unfold execute
    dsimp only
    split <;> rfl
  all_goals rfl

lemma step_memory {c : U16} (h : ¬ Shown shows m.stores c) : m.step.memory c = m.memory c :=
  execute_memory _ _ h

/-! ### Runs -/

/-- A store of the first `n` steps shows at an address. -/
def ShownBefore (n : ℕ) (a : U16) : Prop := ∃ j < n, Shown shows (step^[j] m).stores a

/-- The first `n` steps load what was there at first. -/
def Input (n : ℕ) (a : U16) : Prop := ∃ i < n, a ∈ (step^[i] m).loads ∧ ¬ m.ShownBefore i a

/-- The first `n` steps load from nowhere else, but for where a store has shown before. -/
def LoadsFrom (n : ℕ) (S : U16 → Prop) : Prop :=
  ∀ i < n, ∀ a ∈ (step^[i] m).loads, S a ∨ m.ShownBefore i a

variable {m} {k : Machine shows} {S : U16 → Prop} {n : ℕ}

lemma loadsFrom_input : m.LoadsFrom n (m.Input n) := by
  intro i hi a ha
  by_cases h : m.ShownBefore i a
  · exact Or.inr h
  · exact Or.inl ⟨i, hi, ha, h⟩

lemma agree_run (h : AgreeOn S m k) (hloads : m.LoadsFrom n S) {i : ℕ} (hi : i ≤ n) :
    AgreeOn (fun a => S a ∨ m.ShownBefore i a) (step^[i] m) (step^[i] k) := by
  have hstep : ∀ (T : U16 → Prop) (s t : Machine shows), AgreeOn T s t →
      (∀ a, a ∈ s.loads → T a) → AgreeOn (fun a => T a ∨ Shown shows s.stores a) s.step t.step :=
    fun T s t h hloads => (h.step hloads).1
  exact iterate_agree hstep (fun hiff h => h.mono fun a => (hiff a).mpr) h
    fun j hj a ha => hloads j (by omega) a ha

/-- Steps that load the same. -/
lemma agree_step (h : AgreeOn S m k) (hloads : m.LoadsFrom n S) {i : ℕ} (hi : i < n) :
    (step^[i] k).stores = (step^[i] m).stores ∧ (step^[i] k).duration = (step^[i] m).duration :=
  ((agree_run h hloads (Nat.le_of_lt hi)).step (hloads i hi)).2

lemma run_memory (h : AgreeOn S m k) (hloads : m.LoadsFrom n S) {i : ℕ} (hi : i ≤ n) {a : U16}
    (ha : ¬ m.ShownBefore i a) : (step^[i] k).memory a = k.memory a := by
  induction i with
  | zero => rfl
  | succ i ih =>
    have hearlier : ¬ m.ShownBefore i a := fun ⟨j, hj, hshown⟩ => ha ⟨j, by omega, hshown⟩
    have hnow : ¬ Shown shows (step^[i] k).stores a := by
      rw [(agree_step h hloads hi).1]
      exact fun hshown => ha ⟨i, Nat.lt_succ_self i, hshown⟩
    rw [Function.iterate_succ_apply', step_memory _ hnow, ih (by omega) hearlier]

end Machine

end NumberMachine

/-! ### Runs of the bus -/

open NumberMachine

lemma machine_iterate (bus : Bus) (n : ℕ) :
    machine (runCpuIteration^[n] bus) = Machine.step^[n] (machine bus) :=
  Function.Semiconj.iterate_right machine_runCpuIteration n bus

section Runs

variable {b c : Bus} {S : U16 → Prop} {n : ℕ}

lemma agreeOn_machine (hcpu : c.cpu = b.cpu) (hmemory : ∀ a, S a → readMem c a = readMem b a) :
    AgreeOn S (machine b) (machine c) := by
  refine ⟨?_, ?_, ?_, hmemory⟩
  all_goals rw [machine, machine, hcpu]

/-- A run that loads from `S` only goes through the same states of the CPU. -/
lemma cpu_run (hcpu : c.cpu = b.cpu) (hmemory : ∀ a, S a → readMem c a = readMem b a)
    (hloads : (machine b).LoadsFrom n S) :
    ∀ i ≤ n, (runCpuIteration^[i] c).cpu = (runCpuIteration^[i] b).cpu := by
  have hagree := agreeOn_machine hcpu hmemory
  intro i hi
  have hrun := Machine.agree_run hagree hloads hi
  rw [← machine_iterate, ← machine_iterate] at hrun
  refine cpu_eq hrun.programCounter hrun.register hrun.flag ?_
  induction i with
  | zero => exact congrArg CPU.cycles hcpu
  | succ i ih =>
    have hduration := (Machine.agree_step hagree hloads hi).2
    have hearlier := Machine.agree_run hagree hloads (Nat.le_of_lt hi)
    rw [← machine_iterate, ← machine_iterate] at hduration hearlier
    rw [Function.iterate_succ_apply', Function.iterate_succ_apply', machine_duration,
      machine_duration, hduration, ih (Nat.le_of_lt hi) hearlier]

/-- Its memory shows the same where one of its stores shows, and on `S`; and elsewhere it is as it
was. -/
lemma readMem_run (hcpu : c.cpu = b.cpu) (hmemory : ∀ a, S a → readMem c a = readMem b a)
    (hloads : (machine b).LoadsFrom n S) (a : U16) :
    (S a ∨ (machine b).ShownBefore n a →
        readMem (runCpuIteration^[n] c) a = readMem (runCpuIteration^[n] b) a) ∧
      (¬ (machine b).ShownBefore n a → readMem (runCpuIteration^[n] c) a = readMem c a) := by
  have hagree := agreeOn_machine hcpu hmemory
  refine ⟨fun ha => ?_, fun ha => ?_⟩
  · have hrun := (Machine.agree_run hagree hloads (Nat.le_refl n)).memory a ha
    rwa [← machine_iterate, ← machine_iterate] at hrun
  · have hkept := Machine.run_memory hagree hloads (Nat.le_refl n) ha
    rwa [← machine_iterate] at hkept

end Runs

/-- **Inputs** determine a run. A bus whose CPU is in the same state, and whose memory shows the
same at the addresses that the first iterations load before they store there, goes through the
same states of the CPU, cycle for cycle; its memory then shows the same wherever one of the stores
shows, and is as it was elsewhere. -/
theorem inputs_determine_run {b c : Bus} {n : ℕ} (hcpu : c.cpu = b.cpu)
    (hinput : ∀ a, (machine b).Input n a → readMem c a = readMem b a) :
    (∀ i ≤ n, (runCpuIteration^[i] c).cpu = (runCpuIteration^[i] b).cpu) ∧
      ∀ a, readMem (runCpuIteration^[n] c) a = readMem (runCpuIteration^[n] b) a ∧
          (machine b).ShownBefore n a ∨
        readMem (runCpuIteration^[n] c) a = readMem c a ∧ ¬ (machine b).ShownBefore n a := by
  refine ⟨cpu_run hcpu hinput Machine.loadsFrom_input, fun a => ?_⟩
  obtain ⟨hsame, hkept⟩ := readMem_run hcpu hinput Machine.loadsFrom_input a
  by_cases ha : (machine b).ShownBefore n a
  · exact Or.inl ⟨hsame (Or.inr ha), ha⟩
  · exact Or.inr ⟨hkept ha, ha⟩

/-- `INC $10`, and `INX` from then on. -/
def incThenInx : Bus :=
  { freshBus (constantRom 0) with
    cpuRam := fun k => if (k : ℕ) = 0 then 0xE6 else if (k : ℕ) = 1 then 0x10 else 0xE8 }

/-- The same with other bytes in ROM, and from the second page of RAM on. -/
def incThenInx' : Bus :=
  { incThenInx with
    cartridge := constantRom 0xFF
    cpuRam := fun k => if 0x100 ≤ (k : ℕ) then 0x55 else incThenInx.cpuRam k }

lemma incThenInx_touches : ∀ i < 3,
    (machine (runCpuIteration^[i] incThenInx)).loads =
        (if i = 0 then [0, 1, 0x10] else [BitVec.ofNat 16 (i + 1)]) ∧
      (machine (runCpuIteration^[i] incThenInx)).stores = if i = 0 then [0x10] else [] := by
  decide +kernel

/-- All its loads are from the first bytes of RAM. -/
lemma incThenInx_loads {i : ℕ} (hi : i < 3) {a : U16}
    (h : a ∈ (machine (runCpuIteration^[i] incThenInx)).loads) : a.toNat ≤ 0x10 := by
  rw [(incThenInx_touches i hi).1] at h
  split at h
  · simp only [List.mem_cons, List.not_mem_nil, or_false] at h
    rcases h with rfl | rfl | rfl <;> decide
  · rw [List.mem_singleton.mp h, BitVec.toNat_ofNat]
    omega

theorem incThenInx_determined :
    (∀ i ≤ 3, (runCpuIteration^[i] incThenInx').cpu = (runCpuIteration^[i] incThenInx).cpu) ∧
      ∀ a, readMem (runCpuIteration^[3] incThenInx') a =
            readMem (runCpuIteration^[3] incThenInx) a ∧ (machine incThenInx).ShownBefore 3 a ∨
          readMem (runCpuIteration^[3] incThenInx') a = readMem incThenInx' a ∧
            ¬ (machine incThenInx).ShownBefore 3 a := by
  have hinput : ∀ a, (machine incThenInx).Input 3 a →
      readMem incThenInx' a = readMem incThenInx a := by
    rintro a ⟨i, hi, ha, -⟩
    rw [← machine_iterate] at ha
    have hlow := incThenInx_loads hi ha
    have hcell : ¬ 0x100 ≤ (ramCell a : ℕ) := by
      rw [ramCell_val]
      omega
    rw [readMem_of_le (by omega), readMem_of_le (by omega)]
    exact if_neg hcell
  exact inputs_determine_run rfl hinput

/-! ### Stores from outside -/

/-- For `n` iterations nothing is loaded from the cell of an address, and nothing is stored
to it. -/
def Untouched (bus : Bus) (a : U16) (n : ℕ) : Prop :=
  ∀ i < n, ∀ c, busShows a c = true → c ∉ (machine (runCpuIteration^[i] bus)).loads ∧
    ¬ Shown busShows (machine (runCpuIteration^[i] bus)).stores c

lemma store_first {bus : Bus} {a : U16} {n : ℕ} (h : Untouched bus a n) (v : U8) :
    runCpuIteration^[n] (writeMem bus a v) = writeMem (runCpuIteration^[n] bus) a v := by
  have hcpu : (writeMem bus a v).cpu = bus.cpu := writeMem_cpu bus a v
  have hmemory : ∀ c, busShows a c = false → readMem (writeMem bus a v) c = readMem bus c := by
    intro c hc
    rw [readMem_stored, hc]
    rfl
  have hloads : (machine bus).LoadsFrom n fun c => busShows a c = false := by
    intro i hi c hc
    rw [← machine_iterate] at hc
    rcases hshows : busShows a c with - | -
    · exact Or.inl hshows
    · exact absurd hc (h i hi c hshows).1
  have hstores : ∀ c, busShows a c = true → ¬ (machine bus).ShownBefore n c := by
    rintro c hc ⟨i, hi, hshown⟩
    rw [← machine_iterate] at hshown
    exact (h i hi c hc).2 hshown
  have hsame := cpu_run hcpu hmemory hloads n (Nat.le_refl n)
  rw [← writeMem_cpu (runCpuIteration^[n] bus) a v] at hsame
  refine bus_eq (machine_eq ?_ (fun r => ?_) (fun f => ?_) fun c => ?_) ?_ ?_
  · exact congrArg CPU.programCounter hsame
  · exact congrArg (CPU.register · r) hsame
  · exact congrArg (CPU.flag · f) hsame
  · obtain ⟨helsewhere, hkept⟩ := readMem_run hcpu hmemory hloads c
    rcases hshows : busShows a c with - | -
    · rw [helsewhere (Or.inl hshows)]
      exact ((readMem_stored _ a v c).trans (by rw [hshows]; rfl)).symm
    · rw [hkept (hstores c hshows), readMem_stored, if_pos hshows]
      exact ((readMem_stored _ a v c).trans (if_pos hshows)).symm
  · rw [iterate_cartridge, writeMem_cartridge, writeMem_cartridge, iterate_cartridge]
  · exact congrArg CPU.cycles hsame

/-- **Independent stores.** A store from outside to a cell that a run neither loads from nor stores
to may happen before any of its iterations, or behind the last one: it makes no difference when. -/
theorem store_at_any_time {bus : Bus} {a : U16} {n : ℕ} (h : Untouched bus a n) (v : U8) :
    ∀ i ≤ n, runCpuIteration^[n - i] (writeMem (runCpuIteration^[i] bus) a v) =
      writeMem (runCpuIteration^[n] bus) a v := by
  intro i hi
  have hrest : Untouched (runCpuIteration^[i] bus) a (n - i) := by
    intro j hj c hc
    rw [← Function.iterate_add_apply]
    exact h (j + i) (by omega) c hc
  rw [store_first hrest, ← Function.iterate_add_apply, Nat.sub_add_cancel hi]

/-- A store to another cell, between the first instruction and the two behind it. -/
theorem incThenInx_store :
    runCpuIteration^[2] (writeMem (runCpuIteration^[1] incThenInx) 0x0830 7) =
      writeMem (runCpuIteration^[3] incThenInx) 0x0830 7 := by
  have huntouched : Untouched incThenInx 0x0830 3 := by
    intro i hi c hc
    simp only [busShows, decide_eq_true_iff] at hc
    refine ⟨fun hload => ?_, ?_⟩
    · have hlow := incThenInx_loads hi hload
      have hcell : (0x0830 : U16).toNat = 0x0830 := rfl
      omega
    · rw [(incThenInx_touches i hi).2]
      split
      · simp only [shown_cons, shown_nil, or_false, busShows, decide_eq_true_iff]
        have hcells : (0x0830 : U16).toNat = 0x0830 ∧ (0x10 : U16).toNat = 0x10 := ⟨rfl, rfl⟩
        omega
      · exact shown_nil
  exact store_at_any_time huntouched 7 1 (by decide)

end NesEmulator
