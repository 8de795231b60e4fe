import NesEmulator.Cpu
import Mathlib.Logic.Function.Basic

/-!
The address space of the CPU.

A read first asks the cartridge, then takes RAM and its mirrors, and is `0xFF` anywhere
else; a write reaches RAM only. The two classify the addresses by range tests of their own.
-/

namespace NesEmulator

abbrev ramStart : U16 := 0x0000
abbrev ramMirrorEnd : U16 := 0x2000

abbrev ppuRegistersStart : U16 := 0x2000
abbrev ppuRegistersMirrorEnd : U16 := 0x4000

abbrev prgRomStart : U16 := 0x8000
abbrev prgRomEnd : U16 := 0xFFFF

/-- The index at which `cart_read` looks into `prg_rom`, if it looks there at all. -/
def prgIndex (bus : Bus) (addr : U16) : Option ℕ :=
  if addr ≤ prgRomStart ∨ addr ≥ prgRomEnd then none
  else
    let addr := addr - prgRomStart
    let addr := if bus.cartridge.prgRomSize = 0x4000 then addr % 0x4000 else addr
    some addr.toNat

/-- Past the end of the buffer, where the source has no defined value, the read gives 0. -/
def cartRead (bus : Bus) (addr : U16) : Option U8 :=
  (prgIndex bus addr).map fun i => bus.cartridge.prgRom.getD i 0

def cartWrite (_bus : Bus) (_addr : U16) (_value : U8) : Bool := false

/-- `addr & 0x07FF`, as an index into `cpu_ram`. -/
def ramCell (addr : U16) : Fin 0x800 :=
  ⟨(addr &&& 0x07FF).toNat, Nat.lt_of_le_of_lt Nat.and_le_right (by decide)⟩

def readMem (bus : Bus) (addr : U16) : U8 :=
  match cartRead bus addr with
  | some value => value
  | none =>
    if addr ≥ ramStart ∧ addr ≤ ramMirrorEnd then bus.cpuRam (ramCell addr)
    else if addr ≥ ppuRegistersStart ∧ addr < ppuRegistersMirrorEnd then 0xFF
    else 0xFF

def writeMem (bus : Bus) (addr : U16) (value : U8) : Bus :=
  if cartWrite bus addr value then bus
  else if addr ≥ ramStart ∧ addr < ramMirrorEnd then
    { bus with cpuRam := Function.update bus.cpuRam (ramCell addr) value }
  else if addr ≥ ppuRegistersStart ∧ addr < ppuRegistersMirrorEnd then bus
  else bus

/-- `Bus bus = {}`, with a cartridge loaded: nothing can be read before that. -/
def freshBus (cartridge : Cartridge) : Bus where
  cpu := { programCounter := 0, stackPointer := 0, accumulator := 0, x := 0, y := 0, status := 0 }
  cartridge := cartridge
  cpuRam := fun _ => 0

def busLoadCartridge (bus : Bus) (cartridge : Cartridge) : Bus := { bus with cartridge }

/-! ### Where the addresses lie -/

@[simp] lemma ramCell_val (addr : U16) : (ramCell addr : ℕ) = addr.toNat % 0x800 := by
  change (addr &&& 0x07FF).toNat = _
  rw [BitVec.toNat_and]
  exact Nat.and_two_pow_sub_one_eq_mod addr.toNat 11

lemma ramCell_eq_iff (a b : U16) : ramCell a = ramCell b ↔ a.toNat % 0x800 = b.toNat % 0x800 := by
  rw [Fin.ext_iff, ramCell_val, ramCell_val]

lemma prgIndex_eq_none {bus : Bus} {addr : U16} (h : addr.toNat ≤ 0x8000 ∨ addr.toNat = 0xFFFF) :
    prgIndex bus addr = none := by
  refine if_pos ?_
  rw [BitVec.le_def, ge_iff_le, BitVec.le_def]
  have := addr.isLt
  rcases h with h | h
  · exact Or.inl h
  · exact Or.inr (by rw [h]; decide)

lemma prgIndex_eq_some {bus : Bus} {addr : U16} (h : 0x8000 < addr.toNat)
    (h' : addr.toNat < 0xFFFF) :
    prgIndex bus addr = some (if bus.cartridge.prgRomSize = 0x4000
      then (addr.toNat - 0x8000) % 0x4000 else addr.toNat - 0x8000) := by
  have hsub : (addr - prgRomStart).toNat = addr.toNat - 0x8000 := by bv_omega
  unfold prgIndex
  rw [if_neg (by bv_omega)]
  dsimp only
  split
  · rw [BitVec.toNat_umod, hsub]; rfl
  · rw [hsub]

/-! ### Reading -/

lemma readMem_of_le {bus : Bus} {addr : U16} (h : addr.toNat ≤ 0x2000) :
    readMem bus addr = bus.cpuRam (ramCell addr) := by
  have hn : prgIndex bus addr = none := prgIndex_eq_none (by omega)
  simp only [readMem, cartRead, hn, Option.map_none]
  exact if_pos ⟨by bv_omega, by bv_omega⟩

/-- Outside RAM and its mirrors a read sees the cartridge or the open bus. -/
lemma readMem_of_gt {bus : Bus} {addr : U16} (h : 0x2000 < addr.toNat) :
    readMem bus addr = (cartRead bus addr).getD 0xFF := by
  unfold readMem
  cases cartRead bus addr with
  | some value => rfl
  | none => simp only [Option.getD_none, ite_self, ite_eq_right_iff]; intro hc; bv_omega

lemma readMem_congr {b c : Bus} (hcart : c.cartridge = b.cartridge) (hram : c.cpuRam = b.cpuRam)
    (addr : U16) : readMem c addr = readMem b addr := by
  simp only [readMem, cartRead, prgIndex, hcart, hram]

lemma cartRead_congr {b c : Bus} (hcart : c.cartridge = b.cartridge) (addr : U16) :
    cartRead c addr = cartRead b addr := by
  simp only [cartRead, prgIndex, hcart]

/-- Above RAM all buses with the same cartridge show the same. -/
lemma readMem_above {b c : Bus} (hcart : c.cartridge = b.cartridge) {addr : U16}
    (h : 0x2000 < addr.toNat) : readMem c addr = readMem b addr := by
  rw [readMem_of_gt h, readMem_of_gt h, cartRead_congr hcart]

/-! ### Writing -/

lemma writeMem_of_lt {bus : Bus} {addr : U16} (value : U8) (h : addr.toNat < 0x2000) :
    writeMem bus addr value =
      { bus with cpuRam := Function.update bus.cpuRam (ramCell addr) value } := by
  simp only [writeMem, cartWrite, Bool.false_eq_true, if_false]
  exact if_pos ⟨by bv_omega, by bv_omega⟩

lemma writeMem_of_ge {bus : Bus} {addr : U16} (value : U8) (h : 0x2000 ≤ addr.toNat) :
    writeMem bus addr value = bus := by
  simp only [writeMem, cartWrite, Bool.false_eq_true, if_false, ite_self, ite_eq_right_iff]
  intro hc
  bv_omega

@[simp] lemma writeMem_cpu (bus : Bus) (addr : U16) (value : U8) :
    (writeMem bus addr value).cpu = bus.cpu := by
  rcases Nat.lt_or_ge addr.toNat 0x2000 with h | h
  · rw [writeMem_of_lt value h]
  · rw [writeMem_of_ge value h]

@[simp] lemma writeMem_cartridge (bus : Bus) (addr : U16) (value : U8) :
    (writeMem bus addr value).cartridge = bus.cartridge := by
  rcases Nat.lt_or_ge addr.toNat 0x2000 with h | h
  · rw [writeMem_of_lt value h]
  · rw [writeMem_of_ge value h]

/-- The cell that a write through an address reaches. -/
def writtenCell (addr : U16) : Option (Fin 0x800) :=
  if addr.toNat < 0x2000 then some (ramCell addr) else none

lemma writeMem_cpuRam (bus : Bus) (addr : U16) (value : U8) (k : Fin 0x800) :
    (writeMem bus addr value).cpuRam k =
      if writtenCell addr = some k then value else bus.cpuRam k := by
  rcases Nat.lt_or_ge addr.toNat 0x2000 with h | h
  · rw [writeMem_of_lt value h]
    simp only [writtenCell, h, if_true, Option.some.injEq, Function.update_apply, eq_comm]
  · rw [writeMem_of_ge value h]
    simp [writtenCell, Nat.not_lt.mpr h]

end NesEmulator
