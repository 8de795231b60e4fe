import Mathlib.Data.Nat.Notation
import Mathlib.Tactic.Lemma

/-!
Cartridges, and loading one from an iNES file.

The header is sixteen bytes; flag bytes 6 and 7 are declared as bit-fields, which are
allocated from the least significant bit. A file is the list of its bytes, and a file that
cannot be opened is `none`.
-/

namespace NesEmulator

abbrev U8 := BitVec 8
abbrev U16 := BitVec 16
abbrev Usize := BitVec 64

inductive Mirroring
  | vertical
  | horizontal
  | fourScreen
  deriving DecidableEq

/-- A cartridge. Behind each pointer lies a buffer of as many bytes as the size beside it
says; the null pointers of `Cartridge{}` are empty buffers. -/
structure Cartridge where
  prgRomSize : ℕ := 0
  prgRom : List U8 := []
  chrRomSize : ℕ := 0
  chrRom : List U8 := []
  mirroring : Mirroring := .vertical
  mapper : U8 := 0
  prgRom_length : prgRom.length = prgRomSize := by rfl
  chrRom_length : chrRom.length = chrRomSize := by rfl
  deriving DecidableEq

/-- `Cartridge{}` -/
def emptyCartridge : Cartridge := {}

/-- One page of PRG ROM, all of it `value`, and one of CHR ROM. -/
def constantRom (value : U8) : Cartridge where
  prgRomSize := 0x4000
  prgRom := List.replicate 0x4000 value
  chrRomSize := 0x2000
  chrRom := List.replicate 0x2000 0
  prgRom_length := List.length_replicate
  chrRom_length := List.length_replicate

/-! ### The header -/

def F6.lowerMapper (f6 : U8) : U8 := f6.extractLsb' 0 4 |>.setWidth 8
def F6.fourScreen (f6 : U8) : Bool := f6.getLsbD 4
def F6.trainer (f6 : U8) : Bool := f6.getLsbD 5
def F6.mirroring (f6 : U8) : Bool := f6.getLsbD 7

def F7.upperMapper (f7 : U8) : U8 := f7.extractLsb' 0 4 |>.setWidth 8

def nesMagic : List U8 := [0x4E, 0x45, 0x53, 0x1A]
def prgRomPageSize : ℕ := 16384
def chrRomPageSize : ℕ := 8192
def sizeofHeader : ℕ := 16

/-- The header fields that the loader looks at. -/
structure Header where
  name : List U8
  lenPrgRom : U8
  lenChrRom : U8
  f6 : U8
  f7 : U8

/-- The header laid over the first bytes of a file; bytes that are not there read 0. -/
def Header.ofBytes (bytes : List U8) : Header where
  name := bytes.take 4
  lenPrgRom := bytes.getD 4 0
  lenChrRom := bytes.getD 5 0
  f6 := bytes.getD 6 0
  f7 := bytes.getD 7 0

/-! ### Loading -/

/-- `fread(p, size, 1, file)` with the file at position `pos`: it reads one item of `size`
bytes, or reports none; an item of no bytes is never reported. -/
def fread (file : List U8) (pos size : ℕ) : Option (List U8) :=
  if 0 < size ∧ pos + size ≤ file.length then some ((file.drop pos).take size) else none

lemma fread_length {file bytes : List U8} {pos size : ℕ} (h : fread file pos size = some bytes) :
    bytes.length = size := by
  unfold fread at h
  split at h
  · next hc =>
    obtain rfl := Option.some.inj h
    rw [List.length_take, List.length_drop]
    omega
  · cases h

def loadCartridge (file : Option (List U8)) : Cartridge :=
  match file with
  | none => emptyCartridge
  | some file =>
    match fread file 0 sizeofHeader with
    | none => emptyCartridge
    | some bytes =>
      let header := Header.ofBytes bytes
      if header.name ≠ nesMagic then emptyCartridge
      else
        let hasTrainer := F6.trainer header.f6
        let prgRomSize := header.lenPrgRom.toNat * prgRomPageSize
        let startPrgRom := sizeofHeader + (if hasTrainer then 512 else 0)
        let chrRomSize := header.lenChrRom.toNat * chrRomPageSize
        let startChrRom := startPrgRom + prgRomSize
        let mapper := F6.lowerMapper header.f6 ||| (F7.upperMapper header.f7 <<< 4)
        let mirroring :=
          if F6.fourScreen header.f6 then Mirroring.fourScreen
          else if F6.mirroring header.f6 then Mirroring.vertical
          else Mirroring.horizontal
        match hp : fread file startPrgRom prgRomSize with
        | none => emptyCartridge
        | some prgRom =>
          match hc : fread file startChrRom chrRomSize with
          | none => emptyCartridge
          | some chrRom =>
            { prgRomSize, prgRom, chrRomSize, chrRom, mirroring, mapper
              prgRom_length := fread_length hp
              chrRom_length := fread_length hc }

end NesEmulator
