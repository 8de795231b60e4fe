import NesEmulator.Listing

/-!
Does the listing cover the address space once?

The loop goes on while the counter is at most 0x10000, one past the last address. So where an
instruction ends exactly there, the listing starts again with address 0.
-/

namespace NesEmulator.Disassembler

open Lib.Sweep

/-- The address is one of the bytes of the instruction on a line. -/
def Holds (bus : Bus) (l : Line) (a : ℕ) : Prop := l.pc ≤ a ∧ a < l.pc + lengthAt bus l.pc

/-- The lines are those of the listing; every address belongs to one of them, and none comes back
to an address listed before. -/
structure CoversOnce (bus : Bus) (lines : List Line) : Prop where
  texts : disassembleCode bus = lines.map fun l =>
    codeText bus l.pc (getNextOpcode bus (address l.pc))
  starts : lines.head?.map Line.pc = some 0
  inSpace : ∀ l ∈ lines, l.pc ≤ 0xFFFF
  follows : ∀ i l m, lines[i]? = some l → lines[i + 1]? = some m →
    m.pc = l.pc + lengthAt bus l.pc
  increasing : lines.Pairwise (·.pc < ·.pc)
  ends : ∀ l, lines.getLast? = some l → 0x10000 ≤ l.pc + lengthAt bus l.pc
  once : ∀ a < 0x10000, ∃! i : ℕ, ∃ l, lines[i]? = some l ∧ Holds bus l a
  distinct : (lines.map fun l => address l.pc).Nodup

section Lines

variable {bus : Bus}

lemma codeLines_texts : disassembleCode bus = (codeLines bus 0).map fun l =>
    codeText bus l.pc (getNextOpcode bus (address l.pc)) := by
  refine List.map_congr_left fun l hl => ?_
  obtain ⟨i, hi⟩ := List.mem_iff_getElem?.mp hl
  rw [text_of_line hi, opcode_of_line hi]

lemma codeLines_increasing : (codeLines bus 0).Pairwise (·.pc < ·.pc) := by
  rw [List.pairwise_iff_getElem]
  intro i j hi hj hij
  rw [pc_of_line (List.getElem?_eq_getElem hi), pc_of_line (List.getElem?_eq_getElem hj)]
  exact linePc_strictMono hij

lemma codeLines_starts : (codeLines bus 0).head?.map Line.pc = some 0 := by
  have hfirst : (codeLines bus 0)[0]? = some (codeLine bus 0) :=
    codeLines_eq_some.mpr ⟨Nat.zero_le _, rfl⟩
  rw [List.head?_eq_getElem?, hfirst]
  rfl

lemma codeLines_follows {i : ℕ} {l m : Line} (hl : (codeLines bus 0)[i]? = some l)
    (hm : (codeLines bus 0)[i + 1]? = some m) : m.pc = l.pc + lengthAt bus l.pc := by
  rw [pc_of_line hl, pc_of_line hm, linePc_succ]

/-- Behind the last line there is none. -/
lemma codeLines_ends {l : Line} (h : (codeLines bus 0).getLast? = some l) :
    0x10000 < l.pc + lengthAt bus l.pc := by
  have hne : codeLines bus 0 ≠ [] := by
    rintro hnil
    simp [hnil] at h
  have hlen : (codeLines bus 0).length - 1 + 1 = (codeLines bus 0).length :=
    Nat.sub_add_cancel (List.length_pos_iff.mpr hne)
  rw [List.getLast?_eq_getElem?] at h
  rw [pc_of_line h, ← linePc_succ, hlen]
  by_contra hle
  have hnone : (codeLines bus 0)[(codeLines bus 0).length]? = none := by simp
  rw [codeLines_getElem?, if_pos (by omega)] at hnone
  exact absurd hnone (by simp)

lemma codeLines_once {a : ℕ} (ha : a < 0x10000) :
    ∃! i : ℕ, ∃ l, (codeLines bus 0)[i]? = some l ∧ Holds bus l a := by
  obtain ⟨i, ⟨hle, hlt⟩, hunique⟩ := existsUnique_item (lengthAt_pos bus) a
  change linePc bus i ≤ a at hle
  change a < linePc bus (i + 1) at hlt
  rw [linePc_succ] at hlt
  refine ⟨i, ⟨_, codeLines_eq_some.mpr ⟨by omega, rfl⟩, hle, hlt⟩, ?_⟩
  rintro j ⟨l, hl, hle', hlt'⟩
  rw [pc_of_line hl] at hle' hlt'
  exact hunique j ⟨hle', by rw [← linePc_succ] at hlt'; exact hlt'⟩

/-- The lines of the address space have addresses of their own. -/
lemma codeLines_distinct (h : ∀ l ∈ codeLines bus 0, l.pc ≤ 0xFFFF) :
    ((codeLines bus 0).map fun l => address l.pc).Nodup := by
  refine List.pairwise_map.mpr (codeLines_increasing.imp_of_mem ?_)
  intro l m hl hm hlt heq
  have hl' := h l hl
  have hm' := h m hm
  have htoNat := congrArg BitVec.toNat heq
  rw [address, address, BitVec.toNat_ofNat, BitVec.toNat_ofNat, Nat.mod_eq_of_lt (by omega),
    Nat.mod_eq_of_lt (by omega)] at htoNat
  omega

end Lines

/-- **The listing covers the address space once** exactly if no instruction of it ends at
0x10000. -/
theorem listing_covers_once_iff (bus : Bus) :
    CoversOnce bus (codeLines bus 0) ↔ ¬ Reached (lengthAt bus) 0x10000 := by
  constructor
  · rintro h ⟨i, hi⟩
    have hline : (codeLines bus 0)[i]? = some (codeLine bus 0x10000) :=
      codeLines_eq_some.mpr ⟨Nat.le_of_eq hi, by rw [linePc, hi]⟩
    have hle := h.inSpace _ (List.mem_of_getElem? hline)
    change 0x10000 ≤ 0xFFFF at hle
    omega
  · intro h
    have hspace : ∀ l ∈ codeLines bus 0, l.pc ≤ 0xFFFF := by
      intro l hl
      obtain ⟨i, hi⟩ := List.mem_iff_getElem?.mp hl
      have hle := (codeLines_eq_some.mp hi).1
      have hne : linePc bus i ≠ 0x10000 := fun heq => h ⟨i, heq⟩
      rw [pc_of_line hi]
      omega
    exact ⟨codeLines_texts, codeLines_starts, hspace, fun i l m hl hm => codeLines_follows hl hm,
      codeLines_increasing, fun l hl => (codeLines_ends hl).le, fun a ha => codeLines_once ha,
      codeLines_distinct hspace⟩

/-! ### A listing that starts again -/

/-- `LDA #` in all of RAM and ROM; between them the open bus reads as `ISB`. -/
def allLda : Bus := { freshBus (constantRom 0xA9) with cpuRam := fun _ => 0xA9 }

lemma lengthAt_allLda_ram {pc : ℕ} (h : pc ≤ 0x2000) : lengthAt allLda pc = 2 := by
  have haddr : (address pc).toNat = pc := Nat.mod_eq_of_lt (by omega)
  rw [lengthAt_eq, readMem_of_le (by omega)]
  rfl

lemma lengthAt_allLda_open {pc : ℕ} (h : 0x2000 < pc) (h' : pc ≤ 0x8000) :
    lengthAt allLda pc = 3 := by
  have haddr : (address pc).toNat = pc := Nat.mod_eq_of_lt (by omega)
  have hnone : prgIndex allLda (address pc) = none := prgIndex_eq_none (by omega)
  rw [lengthAt_eq, readMem_of_gt (by omega), cartRead, hnone]
  rfl

lemma lengthAt_allLda_rom {pc : ℕ} (h : 0x8000 < pc) (h' : pc < 0xFFFF) :
    lengthAt allLda pc = 2 := by
  have haddr : (address pc).toNat = pc := Nat.mod_eq_of_lt (by omega)
  have hsome : prgIndex allLda (address pc) = some _ := prgIndex_eq_some (by omega) (by omega)
  have hsize : allLda.cartridge.prgRomSize = 0x4000 := rfl
  have hrom : allLda.cartridge.prgRom = List.replicate 0x4000 0xA9 := rfl
  rw [if_pos hsize, haddr] at hsome
  have hread : readMem allLda (address pc) = 0xA9 := by
    rw [readMem_of_gt (by omega), cartRead, hsome, hrom, Option.map_some, Option.getD_some,
      List.getD_eq_getElem?_getD, List.getElem?_replicate_of_lt (Nat.mod_lt _ (by decide))]
    rfl
  rw [lengthAt_eq, hread]
  rfl

lemma linePc_allLda_open : linePc allLda 0x1001 = 0x2002 := by
  have hram : ∀ i < 0x1001, lengthAt allLda (0 + i * 2) = 2 :=
    fun i hi => lengthAt_allLda_ram (by omega)
  unfold linePc
  exact iterate_of_constant _ hram

lemma linePc_allLda_rom : linePc allLda 0x3001 = 0x8002 := by
  have hopen : ∀ i < 0x2000, lengthAt allLda (0x2002 + i * 3) = 3 :=
    fun i hi => lengthAt_allLda_open (by omega) (by omega)
  have hstart := linePc_allLda_open
  unfold linePc at hstart ⊢
  have hend := iterate_then_constant _ hstart hopen
  exact hend

lemma linePc_allLda_end : linePc allLda 0x7000 = 0x10000 := by
  have hrom : ∀ i < 0x3FFF, lengthAt allLda (0x8002 + i * 2) = 2 :=
    fun i hi => lengthAt_allLda_rom (by omega) (by omega)
  have hstart := linePc_allLda_rom
  unfold linePc at hstart ⊢
  have hend := iterate_then_constant _ hstart hrom
  exact hend

/-- The instructions of this bus end at 0x10000, and one more line lists address 0 again. -/
theorem allLda_not_coversOnce : ¬ CoversOnce allLda (codeLines allLda 0) := by
  have hline : (codeLines allLda 0)[0x7000]? = some (codeLine allLda 0x10000) :=
    codeLines_eq_some.mpr ⟨linePc_allLda_end.le, by rw [linePc_allLda_end]⟩
  intro h
  have hle := h.inSpace _ (List.mem_of_getElem? hline)
  change 0x10000 ≤ 0xFFFF at hle
  omega

end NesEmulator.Disassembler
