import Chip8.Frame

/-!
# Chip8 — bitmaps

A bitmap holds a frame in one bit for each pixel, row after row, the leftmost pixel of a byte in its
highest bit.
-/

namespace Chip8

/-- A frame in one bit for each pixel. -/
structure Bitmap where
  bytes : Vector UInt8 256
  deriving DecidableEq

/-- The byte with these bits, the highest first. -/
def byteOfBits (bits : List Bool) : UInt8 :=
  UInt8.ofNat (bits.foldl (fun n bit => 2 * n + bit.toNat) 0)

/-- The cell of a pixel in a byte of a bitmap. -/
def bitmapCell (byte : Fin 256) (bit : Fin 8) : Fin 2048 :=
  ⟨8 * byte.val + bit.val, by omega⟩

/-- The bitmap of a frame. -/
def Frame.pack (f : Frame) : Bitmap :=
  ⟨Vector.ofFn fun byte => byteOfBits (List.ofFn fun bit => f.cells[bitmapCell byte bit] != 0)⟩

namespace Bitmap

/-- The bit for the pixel at a column and a row of the display. -/
def bit (b : Bitmap) (x y : Nat) : Bool :=
  (b.bytes[8 * y + x / 8]?.getD 0).toNat.testBit (7 - x % 8)

/-- The bits of a row from left to right. -/
def row (b : Bitmap) (y : Nat) : List Bool :=
  (List.range displayWidth).map fun x => b.bit x y

/-- The rows of bits from top to bottom. -/
def rows (b : Bitmap) : List (List Bool) :=
  (List.range displayHeight).map b.row

/-- The positions of an image with one bit for each pixel, row by row and from left to right. -/
def positions : List (Nat × Nat) :=
  (List.range displayHeight).flatMap fun y => (List.range displayWidth).map fun x => (x, y)

/-- The positions whose bit is set. -/
def lit (b : Bitmap) : List (Nat × Nat) :=
  positions.filter fun position => b.bit position.1 position.2

end Bitmap

end Chip8
