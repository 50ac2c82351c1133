/-!
# Chip8 — the display

Sixty-four columns and thirty-two rows of pixels that are on or off, a byte for each: one for a
pixel that is on and zero for one that is off. A sprite is a list of bytes, a row of eight pixels
each with the leftmost in the highest bit. Drawing flips the pixels under the set bits and notes
whether one of them went out; what falls off the display is dropped.

* `Frame.pixel?` — the view of a frame by column and row;
* `Frame.IsBinary` — no byte of a frame is anything but zero or one;
* `Drawing.rows` — the drawing of a sprite, pixel by pixel.
-/

namespace Chip8

/-- Columns of the display. -/
def displayWidth : Nat := 64

/-- Rows of the display. -/
def displayHeight : Nat := 32

/-- A picture on the display, row after row with a byte for each pixel. -/
structure Frame where
  cells : Vector UInt8 2048
  deriving DecidableEq

namespace Frame

/-- Every pixel is off. -/
def dark : Frame :=
  ⟨Vector.replicate 2048 0⟩

/-- A position lies on the display. -/
def onDisplay (x y : Nat) : Prop :=
  x < displayWidth ∧ y < displayHeight

instance (x y : Nat) : Decidable (onDisplay x y) :=
  inferInstanceAs (Decidable (_ ∧ _))

/-- Where a pixel is kept. -/
def index (x y : Nat) (h : onDisplay x y) : Fin 2048 :=
  ⟨y * displayWidth + x, by
    obtain ⟨hx, hy⟩ := h
    simp only [displayWidth, displayHeight] at *
    omega⟩

/-- Positions on the display are kept apart. -/
theorem index_inj {x y x' y' : Nat} {h : onDisplay x y} {h' : onDisplay x' y'} :
    (index x y h).val = (index x' y' h').val ↔ x = x' ∧ y = y' := by
  have hx := h.1
  have hx' := h'.1
  simp only [displayWidth] at hx hx'
  simp only [index, displayWidth]
  omega

/-- The pixel at a column and a row, if it is on the display. -/
def pixel? (f : Frame) (x y : Nat) : Option Bool :=
  if h : onDisplay x y then some (f.cells[index x y h] != 0) else none

/-- Flips the pixel at a column and a row if the bit is set; off the display nothing happens. -/
def flip (f : Frame) (x y : Nat) (bit : Bool) : Frame :=
  if h : onDisplay x y then
    ⟨f.cells.set (index x y h) (f.cells[index x y h] ^^^ bit.toUInt8)⟩
  else f

/-- Such a flip puts a pixel out. -/
def putsOut (f : Frame) (x y : Nat) (bit : Bool) : Bool :=
  if h : onDisplay x y then f.cells[index x y h] == 1 && bit else false

/-- A row of the display from left to right. -/
def row (f : Frame) (y : Nat) : List Bool :=
  ((f.cells.toList.drop (y * displayWidth)).take displayWidth).map (· != 0)

/-- The rows of the display from top to bottom. -/
def rows (f : Frame) : List (List Bool) :=
  (List.range displayHeight).map f.row

/-- How many pixels are on. -/
def countLit (f : Frame) : Nat :=
  f.cells.toList.countP (· != 0)

/-! ## Binary frames -/

/-- A byte that stands for a pixel. -/
def isBit (cell : UInt8) : Prop :=
  cell = 0 ∨ cell = 1

instance (cell : UInt8) : Decidable (isBit cell) :=
  inferInstanceAs (Decidable (_ ∨ _))

/-- Every byte of the frame stands for a pixel. -/
def IsBinary (f : Frame) : Prop :=
  ∀ k : Fin 2048, isBit f.cells[k]

theorem isBinary_dark : dark.IsBinary := by
  intro k
  left
  simp [dark]

theorem isBit_xor {cell : UInt8} (h : isBit cell) (bit : Bool) : isBit (cell ^^^ bit.toUInt8) := by
  rcases h with rfl | rfl <;> cases bit <;> decide

theorem IsBinary.flip {f : Frame} (hf : f.IsBinary) (x y : Nat) (bit : Bool) :
    (f.flip x y bit).IsBinary := by
  intro k
  unfold Frame.flip
  split
  · rename_i h
    simp only [Fin.getElem_fin, Vector.getElem_set]
    split
    · exact isBit_xor (hf _) bit
    · exact hf k
  · exact hf k

/-- On a binary frame a flip turns one pixel over and leaves the others. -/
theorem IsBinary.pixel?_flip {f : Frame} (hf : f.IsBinary) (x y x' y' : Nat) (bit : Bool) :
    (f.flip x y bit).pixel? x' y'
      = if x = x' ∧ y = y' then (f.pixel? x' y').map (· ^^ bit) else f.pixel? x' y' := by
  unfold Frame.flip
  split
  · rename_i h
    unfold pixel?
    split
    · rename_i h'
      simp only [Fin.getElem_fin, Vector.getElem_set, index_inj]
      by_cases e : x = x' ∧ y = y'
      · obtain ⟨rfl, rfl⟩ := e
        rcases hf (index x y h) with hc | hc <;> cases bit <;> simp_all [Bool.toUInt8]
      · simp [e]
    · simp
  · rename_i h
    split
    · rename_i e
      obtain ⟨rfl, rfl⟩ := e
      simp [pixel?, h]
    · rfl

end Frame

/-! ## Drawing -/

/-- A frame being drawn on, and whether a pixel went out so far. -/
structure Drawing where
  frame : Frame
  hit : Bool
  deriving DecidableEq

namespace Drawing

/-- Flips one pixel if the bit is set and notes when that puts it out. -/
def plot (d : Drawing) (x y : Nat) (bit : Bool) : Drawing :=
  ⟨d.frame.flip x y bit, d.hit || d.frame.putsOut x y bit⟩

/-- The bit of a sprite's byte that is drawn in a column, the highest bit leftmost. -/
def spriteBit (byte : UInt8) (column : Nat) : Bool :=
  byte.toNat.testBit (7 - column)

/-- Draws a byte of a sprite. -/
def byte (d : Drawing) (x y : Nat) (b : UInt8) : Drawing :=
  -- every bit is drawn, also those that are off: they flip nothing and put nothing out
  (List.range 8).foldl (fun d column => d.plot (x + column) y (spriteBit b column)) d

/-- Draws the bytes of a sprite downwards. -/
def rows (d : Drawing) (x y : Nat) : List UInt8 → Drawing
  | [] => d
  | b :: bs => (d.byte x y b).rows x (y + 1) bs

end Drawing

end Chip8
