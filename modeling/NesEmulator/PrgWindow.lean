import NesEmulator.Frames

/-!
The window through which the CPU sees the PRG ROM.

A ROM of one page is seen twice, a ROM of two pages once. `cart_read` leaves out the first
and the last address of the window, which read as open bus.
-/

namespace NesEmulator

/-- The byte of the ROM that belongs at an address of the window. -/
def romByte (cartridge : Cartridge) (addr : U16) : Option U8 :=
  cartridge.prgRom[(addr.toNat - 0x8000) % cartridge.prgRomSize]?

/-- The ROM fills the window once or twice. -/
def Fills (cartridge : Cartridge) : Prop :=
  cartridge.prgRomSize = 0x4000 ∨ cartridge.prgRomSize = 0x8000

/-- Strictly inside the window. -/
def Interior (addr : U16) : Prop := 0x8000 < addr.toNat ∧ addr.toNat < 0xFFFF

lemma readMem_interior {bus : Bus} {addr : U16} (hfill : Fills bus.cartridge)
    (h : Interior addr) : some (readMem bus addr) = romByte bus.cartridge addr := by
  obtain ⟨hlo, hhi⟩ := h
  have hlt : (addr.toNat - 0x8000) % bus.cartridge.prgRomSize < bus.cartridge.prgRom.length := by
    rw [bus.cartridge.prgRom_length]
    exact Nat.mod_lt _ (by rcases hfill with h | h <;> omega)
  have hindex : prgIndex bus addr = some ((addr.toNat - 0x8000) % bus.cartridge.prgRomSize) := by
    rw [prgIndex_eq_some hlo hhi]
    rcases hfill with h | h
    · rw [if_pos h, h]
    · rw [if_neg (by omega), h, Nat.mod_eq_of_lt (by omega)]
  rw [readMem_of_gt (by omega), cartRead, hindex, romByte, Option.map_some, Option.getD_some,
    List.getD_eq_getElem?_getD, List.getElem?_eq_getElem hlt]
  rfl

lemma readMem_edge {bus : Bus} {addr : U16} (hwin : 0x8000 ≤ addr.toNat) (h : ¬ Interior addr) :
    readMem bus addr = 0xFF := by
  have hlt := addr.isLt
  have hnone : prgIndex bus addr = none :=
    prgIndex_eq_none (by unfold Interior at h; omega)
  rw [readMem_of_gt (by omega), cartRead, hnone]
  rfl

/-- An address of the window shows its byte exactly if it is inside, or if the byte looks
like the open bus. -/
lemma shows_iff {bus : Bus} (hfill : Fills bus.cartridge) {addr : U16}
    (hwin : 0x8000 ≤ addr.toNat) :
    some (readMem bus addr) = romByte bus.cartridge addr ↔
      Interior addr ∨ romByte bus.cartridge addr = some 0xFF := by
  by_cases h : Interior addr
  · exact iff_of_true (readMem_interior hfill h) (Or.inl h)
  · rw [readMem_edge hwin h]
    exact ⟨fun he => Or.inr he.symm, fun ho => (ho.resolve_left h).symm⟩

lemma romByte_first {cartridge : Cartridge} : romByte cartridge 0x8000 = cartridge.prgRom[0]? := by
  unfold romByte
  rw [show (0x8000 : U16).toNat - 0x8000 = 0 from rfl, Nat.zero_mod]

lemma romByte_last {cartridge : Cartridge} (hfill : Fills cartridge) :
    romByte cartridge 0xFFFF = cartridge.prgRom[cartridge.prgRomSize - 1]? := by
  unfold romByte
  rcases hfill with h | h <;> rw [h] <;> rfl

/-- **The PRG window.** Nothing that happens to the bus changes what the window shows. It
shows the right byte of the ROM at every address strictly inside, and at its two ends
exactly where that byte is `0xFF`; so the window is right as a whole exactly if the first
and the last byte of the ROM are `0xFF`. -/
theorem prg_window (bus : Bus) (hfill : Fills bus.cartridge) :
    (∀ events addr, 0x8000 ≤ addr.toNat →
      readMem (bus.after events) addr = readMem bus addr) ∧
    (∀ events addr, 0x8000 ≤ addr.toNat →
      (some (readMem (bus.after events) addr) = romByte bus.cartridge addr ↔
        (addr ≠ 0x8000 ∧ addr ≠ 0xFFFF) ∨ romByte bus.cartridge addr = some 0xFF)) ∧
    ((∀ events addr, 0x8000 ≤ addr.toNat →
      some (readMem (bus.after events) addr) = romByte bus.cartridge addr) ↔
        bus.cartridge.prgRom[0]? = some 0xFF ∧
          bus.cartridge.prgRom[bus.cartridge.prgRomSize - 1]? = some 0xFF) := by
  have hsame : ∀ events addr, 0x8000 ≤ addr.toNat →
      readMem (bus.after events) addr = readMem bus addr :=
    fun events addr hwin => readMem_after bus events (by omega)
  have hiff : ∀ events addr, 0x8000 ≤ addr.toNat →
      (some (readMem (bus.after events) addr) = romByte bus.cartridge addr ↔
        (addr ≠ 0x8000 ∧ addr ≠ 0xFFFF) ∨ romByte bus.cartridge addr = some 0xFF) := by
    intro events addr hwin
    have hin : Interior addr ↔ addr ≠ 0x8000 ∧ addr ≠ 0xFFFF := by
      unfold Interior
      constructor
      · rintro ⟨h1, h2⟩
        refine ⟨?_, ?_⟩ <;> rintro rfl
        · exact absurd h1 (by decide)
        · exact absurd h2 (by decide)
      · rintro ⟨h1, h2⟩
        bv_omega
    rw [hsame events addr hwin, shows_iff hfill hwin, hin]
  refine ⟨hsame, hiff, ?_⟩
  constructor
  · intro h
    have hfirst := (hiff [] 0x8000 (by decide)).mp (h [] 0x8000 (by decide))
    have hlast := (hiff [] 0xFFFF (by decide)).mp (h [] 0xFFFF (by decide))
    rw [romByte_first] at hfirst
    rw [romByte_last hfill] at hlast
    exact ⟨hfirst.resolve_left fun hc => hc.1 rfl, hlast.resolve_left fun hc => hc.2 rfl⟩
  · rintro ⟨hfirst, hlast⟩ events addr hwin
    refine (hiff events addr hwin).mpr ?_
    by_cases h0 : addr = 0x8000
    · exact Or.inr (by rw [h0, romByte_first, hfirst])
    · by_cases h1 : addr = 0xFFFF
      · exact Or.inr (by rw [h1, romByte_last hfill, hlast])
      · exact Or.inl ⟨h0, h1⟩

lemma constantRom_fills (value : U8) : Fills (freshBus (constantRom value)).cartridge := Or.inl rfl

lemma romByte_constantRom (value : U8) (addr : U16) :
    romByte (constantRom value) addr = some value := by
  have hlt : (addr.toNat - 0x8000) % 0x4000 < 0x4000 := Nat.mod_lt _ (by decide)
  exact List.getElem?_replicate_of_lt hlt

/-- A page of `0xFF` is seen right at the ends too. -/
theorem prg_window_erased :
    some (readMem ((freshBus (constantRom 0xFF)).after [.reset, .iteration]) 0x8000) =
        romByte (constantRom 0xFF) 0x8000 ∧
      some (readMem ((freshBus (constantRom 0xFF)).after [.write 0x8000 1]) 0xFFFF) =
        romByte (constantRom 0xFF) 0xFFFF := by
  have h := (prg_window (freshBus (constantRom 0xFF)) (constantRom_fills 0xFF)).2.2.mpr
    ⟨List.getElem?_replicate_of_lt (by decide), List.getElem?_replicate_of_lt (by decide)⟩
  exact ⟨h _ 0x8000 (by decide), h _ 0xFFFF (by decide)⟩

/-- A page of zeros is seen at neither end of the window. -/
theorem prg_window_zeros :
    ¬ ∀ bus : Bus, Fills bus.cartridge → ∀ events addr, 0x8000 ≤ addr.toNat →
      some (readMem (bus.after events) addr) = romByte bus.cartridge addr := by
  intro h
  have hfirst := h (freshBus (constantRom 0)) (constantRom_fills 0) [] 0x8000 (by decide)
  rw [show (freshBus (constantRom 0)).cartridge = constantRom 0 from rfl,
    romByte_constantRom] at hfirst
  have hread : readMem ((freshBus (constantRom 0)).after []) 0x8000 = 0xFF :=
    readMem_edge (by decide) (by unfold Interior; decide)
  rw [hread] at hfirst
  exact absurd hfirst (by decide)

end NesEmulator
