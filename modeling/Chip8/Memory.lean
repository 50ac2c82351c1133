import Chip8.Instruction.Word

/-!
# Chip8 — memory

Four kibibytes with a font at the bottom. An address is sixteen bits wide and only its low twelve
count, so an access past the end wraps to the beginning. The font is written when the memory is made
and never again: a store that hits it is dropped.

Main statements:

* `read_add` — a read that counts on wraps at the end of memory;
* `write_of_inFont` — a store into the font changes nothing.
-/

namespace Chip8

/-- Where programs are loaded and where they start. -/
def programOrigin : UInt16 := 0x200

/-- The bytes that a program may take. -/
def programSpace : Nat := 4096 - programOrigin.toNat

/-- The bytes of a glyph. -/
def glyphHeight : Nat := 5

/-- Sixteen glyphs, one for each hexadecimal digit; a byte is a row of a glyph. -/
def font : List UInt8 :=
  [0xF0, 0x90, 0x90, 0x90, 0xF0,
   0x20, 0x60, 0x20, 0x20, 0x70,
   0xF0, 0x10, 0xF0, 0x80, 0xF0,
   0xF0, 0x10, 0xF0, 0x10, 0xF0,
   0x90, 0x90, 0xF0, 0x10, 0x10,
   0xF0, 0x80, 0xF0, 0x10, 0xF0,
   0xF0, 0x80, 0xF0, 0x90, 0xF0,
   0xF0, 0x10, 0x20, 0x40, 0x40,
   0xF0, 0x90, 0xF0, 0x90, 0xF0,
   0xF0, 0x90, 0xF0, 0x10, 0xF0,
   0xF0, 0x90, 0xF0, 0x90, 0x90,
   0xE0, 0x90, 0xE0, 0x90, 0xE0,
   0xF0, 0x80, 0x80, 0x80, 0xF0,
   0xE0, 0x90, 0x90, 0x90, 0xE0,
   0xF0, 0x80, 0xF0, 0x80, 0xF0,
   0xF0, 0x80, 0xF0, 0x80, 0x80]

/-- Where the glyph of a digit starts; the product is a byte, so every digit has an address. -/
def glyphAddress (digit : UInt8) : UInt16 :=
  UInt16.ofNat (digit.toNat * glyphHeight % 256)

/-- The memory of the machine. -/
structure Memory where
  cells : Vector UInt8 4096
  deriving DecidableEq

namespace Memory

/-- The cell that an address means. -/
def cell (address : UInt16) : Fin 4096 :=
  Fin.ofNat 4096 address.toNat

/-- The cell of an address lies in the font. -/
def inFont (address : UInt16) : Prop :=
  (cell address).val < font.length

instance (address : UInt16) : Decidable (inFont address) :=
  inferInstanceAs (Decidable (_ < _))

/-- Puts bytes side by side from a cell on; those past the last cell are dropped. -/
def place (cells : Vector UInt8 4096) (start : Nat) : List UInt8 → Vector UInt8 4096
  | [] => cells
  | b :: bs => place (cells.setIfInBounds start b) (start + 1) bs

/-- Zeros with the font at the bottom. -/
def initial : Memory :=
  ⟨place (Vector.replicate 4096 0) 0 font⟩

/-! ## Reading -/

/-- The byte at an address. -/
def read (m : Memory) (address : UInt16) : UInt8 :=
  m.cells[cell address]

/-- The word at an address, high byte first. -/
def word (m : Memory) (address : UInt16) : UInt16 :=
  wordOfBytes (m.read address) (m.read (address + 1))

/-- A row of bytes from an address on. -/
def load (m : Memory) (address : UInt16) (count : Nat) : List UInt8 :=
  (List.range count).map fun k => m.read (address + UInt16.ofNat k)

/-- A read that counts on from an address wraps at the end of memory. -/
theorem read_add (m : Memory) (address : UInt16) (k : Nat) :
    m.read (address + UInt16.ofNat k) = m.cells[Fin.ofNat 4096 (address.toNat + k)] := by
  have hcell : cell (address + UInt16.ofNat k) = Fin.ofNat 4096 (address.toNat + k) := by
    refine Fin.ext ?_
    simp only [cell, Fin.val_ofNat, UInt16.toNat_add, UInt16.toNat_ofNat']
    omega
  exact congrArg (fun c : Fin 4096 => m.cells[c]) hcell

/-! ## Writing -/

/-- Stores a byte, unless the address lies in the font. -/
def write (m : Memory) (address : UInt16) (value : UInt8) : Memory :=
  -- the address is cut before it is compared, so no multiple of the memory's size gets past
  if inFont address then m else ⟨m.cells.set (cell address) value⟩

/-- Stores a row of bytes from an address on. -/
def store (m : Memory) (address : UInt16) : List UInt8 → Memory
  | [] => m
  | b :: bs => (m.write address b).store (address + 1) bs

/-- The bytes of a row that a store from an address on drops, each with its cell. -/
def dropped (address : UInt16) : List UInt8 → List (UInt8 × Nat)
  | [] => []
  | b :: bs =>
    (if inFont address then [(b, (cell address).val)] else []) ++ dropped (address + 1) bs

/-- Puts a program at its place; what does not fit is dropped. -/
def loadProgram (m : Memory) (program : List UInt8) : Memory :=
  ⟨place m.cells programOrigin.toNat program⟩

theorem write_of_inFont {m : Memory} {address : UInt16} (h : inFont address) (value : UInt8) :
    m.write address value = m := by
  simp [write, h]

end Memory

end Chip8
