import Chip8.Instruction

/-!
# Chip8 — instructions as text

A listing names an instruction by the pattern of its word, with the letters of its fields in place
of their digits, and then gives the fields in decimal: `_00E0`, `_8XY4 { x: 10, y: 11 }`.
-/

namespace Chip8.Instruction

/-- The pattern of the word, and the fields by letter in the order of the pattern. -/
def form : Instruction → String × List (String × Nat)
  | clear => ("_00E0", [])
  | ret => ("_00EE", [])
  | jump nnn => ("_1NNN", [("nnn", nnn.toNat)])
  | call nnn => ("_2NNN", [("nnn", nnn.toNat)])
  | skipIfByte x nn => ("_3XNN", [("x", x.toNat), ("nn", nn.toNat)])
  | skipUnlessByte x nn => ("_4XNN", [("x", x.toNat), ("nn", nn.toNat)])
  | skipIfSame x y => ("_5XY0", [("x", x.toNat), ("y", y.toNat)])
  | setByte x nn => ("_6XNN", [("x", x.toNat), ("nn", nn.toNat)])
  | addByte x nn => ("_7XNN", [("x", x.toNat), ("nn", nn.toNat)])
  | copy x y => ("_8XY0", [("x", x.toNat), ("y", y.toNat)])
  | bitOr x y => ("_8XY1", [("x", x.toNat), ("y", y.toNat)])
  | bitAnd x y => ("_8XY2", [("x", x.toNat), ("y", y.toNat)])
  | bitXor x y => ("_8XY3", [("x", x.toNat), ("y", y.toNat)])
  | add x y => ("_8XY4", [("x", x.toNat), ("y", y.toNat)])
  | sub x y => ("_8XY5", [("x", x.toNat), ("y", y.toNat)])
  | shiftRight x y => ("_8XY6", [("x", x.toNat), ("y", y.toNat)])
  | subFrom x y => ("_8XY7", [("x", x.toNat), ("y", y.toNat)])
  | shiftLeft x y => ("_8XYE", [("x", x.toNat), ("y", y.toNat)])
  | skipIfDiffer x y => ("_9XY0", [("x", x.toNat), ("y", y.toNat)])
  | setIndex nnn => ("_ANNN", [("nnn", nnn.toNat)])
  | jumpOffset nnn => ("_BNNN", [("nnn", nnn.toNat)])
  | random x nn => ("_CXNN", [("x", x.toNat), ("nn", nn.toNat)])
  | draw x y n => ("_DXYN", [("x", x.toNat), ("y", y.toNat), ("n", n.toNat)])
  | skipIfKey x => ("_EX9E", [("x", x.toNat)])
  | skipByKey x => ("_EXA1", [("x", x.toNat)])
  | readDelay x => ("_FX07", [("x", x.toNat)])
  | awaitKey x => ("_FX0A", [("x", x.toNat)])
  | setDelay x => ("_FX15", [("x", x.toNat)])
  | setSound x => ("_FX18", [("x", x.toNat)])
  | addIndex x => ("_FX1E", [("x", x.toNat)])
  | setGlyph x => ("_FX29", [("x", x.toNat)])
  | storeDigits x => ("_FX33", [("x", x.toNat)])
  | storeRegisters x => ("_FX55", [("x", x.toNat)])
  | loadRegisters x => ("_FX65", [("x", x.toNat)])

/-- The text of a named field. -/
def fieldText (field : String × Nat) : String :=
  field.1 ++ ": " ++ toString field.2

/-- The text of an instruction in a listing. -/
def listing (instr : Instruction) : String :=
  match instr.form with
  | (pattern, []) => pattern
  | (pattern, fields) =>
    pattern ++ " \x7b " ++ ", ".intercalate (fields.map fieldText) ++ " \x7d"

end Chip8.Instruction
