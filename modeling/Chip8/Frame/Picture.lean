import Chip8.Frame

/-!
# Chip8 — pictures of frames

A frame as text: a line for each row, `#` for a pixel that is on and `.` for one that is off. At a
larger scale every character and every line is repeated.
-/

namespace Chip8

/-- Every element of a list a number of times in a row. -/
def repeatEach {α : Type} (scale : Nat) (xs : List α) : List α :=
  xs.flatMap (List.replicate scale)

/-- What stands for a pixel. -/
def dot (on : Bool) : Char :=
  if on then '#' else '.'

namespace Frame

/-- The rows of a frame with every pixel and every row repeated. -/
def magnified (f : Frame) (scale : Nat) : List (List Bool) :=
  repeatEach scale (f.rows.map (repeatEach scale))

/-- The lines of a picture of a frame; no scale counts as one. -/
def lines (f : Frame) (scale : Nat) : List (List Char) :=
  -- without the bound a scale of zero would show nothing
  (f.magnified (max scale 1)).map (List.map dot)

/-- The picture of a frame, with a line break behind each line. -/
def picture (f : Frame) (scale : Nat) : String :=
  String.ofList ((f.lines scale).flatMap (· ++ ['\n']))

end Frame

end Chip8
