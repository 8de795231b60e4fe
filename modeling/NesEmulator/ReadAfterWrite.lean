import NesEmulator.Bus
import NesEmulator.Lib.MirroredMemory

/-!
Reads after writes.

Seen from the bus, RAM is a mirrored memory: an address below `0x2000` decodes to its cell,
and no other address decodes to any. Writes follow this decoder. Reads follow it at every
address but `0x2000`, which they take for one more mirror of cell 0.
-/

namespace NesEmulator

open Lib.MirroredMemory

def writeAll (bus : Bus) (ws : List (U16 × U8)) : Bus :=
  ws.foldl (fun bus w => writeMem bus w.1 w.2) bus

lemma writeMem_eq_write (bus : Bus) (a : U16) (v : U8) :
    (writeMem bus a v).cpuRam = write writtenCell bus.cpuRam (a, v) := by
  funext k
  rw [writeMem_cpuRam, write_apply]

lemma writeAll_cpuRam (bus : Bus) (ws : List (U16 × U8)) :
    (writeAll bus ws).cpuRam = ws.foldl (write writtenCell) bus.cpuRam := by
  induction ws generalizing bus with
  | nil => rfl
  | cons w ws ih =>
    rw [List.foldl_cons, ← writeMem_eq_write]
    exact ih _

lemma writeAll_cartridge (bus : Bus) (ws : List (U16 × U8)) :
    (writeAll bus ws).cartridge = bus.cartridge := by
  induction ws generalizing bus with
  | nil => rfl
  | cons w ws ih => exact (ih _).trans (writeMem_cartridge bus w.1 w.2)

/-- What a read sees after a sequence of writes. -/
lemma readMem_writeAll (bus : Bus) (ws : List (U16 × U8)) (b : U16) :
    readMem (writeAll bus ws) b =
      if b.toNat ≤ 0x2000 then (lastWrite writtenCell ws (ramCell b)).getD (bus.cpuRam (ramCell b))
      else readMem bus b := by
  split
  · next h => rw [readMem_of_le h, writeAll_cpuRam, foldl_write]
  · next h =>
    rw [readMem_of_gt (by omega), readMem_of_gt (by omega),
      cartRead_congr (writeAll_cartridge bus ws)]

lemma writtenCell_eq_iff (a b : U16) :
    writtenCell a = some (ramCell b) ↔ a.toNat < 0x2000 ∧ a.toNat % 0x800 = b.toNat % 0x800 := by
  unfold writtenCell
  split
  · next h => simp only [Option.some.injEq, ramCell_eq_iff, h, true_and]
  · next h => simp [h]

/-- The value that a mirrored memory would give: the last one written to a mirror of the
address, else the old one. -/
def expected (bus : Bus) (ws : List (U16 × U8)) (b : U16) : U8 :=
  if b.toNat < 0x2000 then (lastWrite writtenCell ws (ramCell b)).getD (readMem bus b)
  else readMem bus b

lemma readMem_writeAll_iff (bus : Bus) (ws : List (U16 × U8)) (b : U16) :
    readMem (writeAll bus ws) b = expected bus ws b ↔
      (b = 0x2000 → ∀ v, lastWrite writtenCell ws 0 = some v → v = bus.cpuRam 0) := by
  rw [readMem_writeAll]
  unfold expected
  rcases Nat.lt_trichotomy b.toNat 0x2000 with h | h | h
  · have hne : b ≠ 0x2000 := by rintro rfl; exact absurd h (by decide)
    rw [if_pos (by omega), if_pos h, readMem_of_le (by omega)]
    exact iff_of_true rfl fun hb => absurd hb hne
  · -- the one address that is read as a mirror and not written as one
    have hb : b = 0x2000 := BitVec.eq_of_toNat_eq h
    have hcell : ramCell b = 0 := by rw [hb]; rfl
    rw [if_pos (by omega), if_neg (by omega), readMem_of_le (by omega), hcell]
    cases lastWrite writtenCell ws 0 with
    | none => simp
    | some v => simp [hb]
  · have hne : b ≠ 0x2000 := by rintro rfl; exact absurd h (by decide)
    rw [if_neg (by omega), if_neg (by omega)]
    exact iff_of_true rfl fun hb => absurd hb hne

/-- `expected` after a single write, in terms of the addresses. -/
lemma expected_singleton (bus : Bus) (a b : U16) (v : U8) :
    expected bus [(a, v)] b =
      if a.toNat < 0x2000 ∧ b.toNat < 0x2000 ∧ a.toNat % 0x800 = b.toNat % 0x800 then v
      else readMem bus b := by
  unfold expected
  rw [lastWrite_singleton]
  simp only [writtenCell_eq_iff]
  by_cases hb : b.toNat < 0x2000
  · by_cases ha : a.toNat < 0x2000 ∧ a.toNat % 0x800 = b.toNat % 0x800
    · simp [hb, ha]
    · simp [hb, ha]
  · simp [hb]

/-- **Read after write.** A read sees the last value written to a mirror of its address,
after one write and after any sequence of them, unless it reads `0x2000` after cell 0 has
been given another value. -/
theorem read_after_write (bus : Bus) :
    (∀ a b v, readMem (writeMem bus a v) b =
        (if a.toNat < 0x2000 ∧ b.toNat < 0x2000 ∧ a.toNat % 0x800 = b.toNat % 0x800 then v
          else readMem bus b) ↔
      (b = 0x2000 → a.toNat < 0x2000 → a.toNat % 0x800 = 0 → v = bus.cpuRam 0)) ∧
    (∀ ws b, readMem (writeAll bus ws) b =
        (if b.toNat < 0x2000 then (lastWrite writtenCell ws (ramCell b)).getD (readMem bus b)
          else readMem bus b) ↔
      (b = 0x2000 → ∀ v, lastWrite writtenCell ws 0 = some v → v = bus.cpuRam 0)) := by
  refine ⟨fun a b v => ?_, readMem_writeAll_iff bus⟩
  have hcell : writtenCell a = some 0 ↔ a.toNat < 0x2000 ∧ a.toNat % 0x800 = 0 :=
    writtenCell_eq_iff a 0
  rw [← expected_singleton]
  refine (readMem_writeAll_iff bus [(a, v)] b).trans (forall_congr' fun _ => ?_)
  rw [lastWrite_singleton]
  by_cases hc : a.toNat < 0x2000 ∧ a.toNat % 0x800 = 0
  · simp [hcell.mpr hc, hc]
  · have hn : writtenCell a ≠ some 0 := fun h => hc (hcell.mp h)
    rw [if_neg hn]
    exact iff_of_true (fun _ h => nomatch h) fun h1 h2 => absurd ⟨h1, h2⟩ hc

/-- A write to cell 0 shows through at `0x2000`. -/
theorem read_after_write_0x2000 :
    ¬ ∀ (bus : Bus) (a b : U16) (v : U8), readMem (writeMem bus a v) b =
      if a.toNat < 0x2000 ∧ b.toNat < 0x2000 ∧ a.toNat % 0x800 = b.toNat % 0x800 then v
      else readMem bus b := by
  intro h
  have h0 := h (freshBus (constantRom 0)) 0 0x2000 1
  rw [readMem_of_le (by decide), writeMem_of_lt 1 (by decide), if_neg (by decide),
    readMem_of_le (by decide)] at h0
  exact absurd h0 (by decide)

end NesEmulator
