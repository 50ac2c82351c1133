import Chip8.Text.Numeral
import Chip8.Text.Unprintable

/-!
# Chip8 — quoted text

Text between double quotes in which every character shows. A quote and a backslash get a backslash
in front, five controls have a letter or digit for a name, and any other character that shows
nothing of its own is written as its number in hexadecimal.
-/

namespace Chip8

/-- What stands for a character between the quotes. -/
def escaped (c : Char) : List Char :=
  match c with
  | '"' => ['\\', '"']
  | '\\' => ['\\', '\\']
  | '\n' => ['\\', 'n']
  | '\r' => ['\\', 'r']
  | '\t' => ['\\', 't']
  | '\x00' => ['\\', '0']
  | c =>
    if isUnprintable c then
      ['\\', 'u', '\x7b'] ++ (Numeral.lower 16 1 c.toNat).toList ++ ['\x7d']
    else [c]

/-- Text between double quotes. -/
def quoted (text : String) : String :=
  String.ofList ('"' :: text.toList.flatMap escaped ++ ['"'])

end Chip8
