/-!
# Chip8 — numerals

Natural numbers as text in a base up to sixteen. Writing pads with zeros to a least width and has an
upper and a lower case form. Reading takes one optional `+`, then one or more digits of either case,
any number of leading zeros among them, and nothing else; a number may have to stay below a bound.

Main statement:

* `read?_plus` — one leading `+` changes nothing.
-/

namespace Chip8

/-- Sixty-four bits hold the numbers below this one. -/
def bound64 : Nat := 18446744073709551616

namespace Numeral

/-! ## Writing -/

/-- The digits of `n` with zeros in front up to the width, letters in lower case. -/
def lower (base width n : Nat) : String :=
  let digits := Nat.toDigits base n
  String.ofList (List.replicate (width - digits.length) '0' ++ digits)

/-- The digits of `n` with zeros in front up to the width, letters in upper case. -/
def upper (base width n : Nat) : String :=
  (lower base width n).toUpper

/-- A hexadecimal number in upper case behind its `0x`. -/
def address (width n : Nat) : String :=
  "0x" ++ upper 16 width n

/-! ## Reading -/

/-- What a character counts as a digit, sixteen digits being known. -/
def digitValue (c : Char) : Nat :=
  if '0' ≤ c ∧ c ≤ '9' then c.toNat - '0'.toNat
  else if 'a' ≤ c ∧ c ≤ 'f' then c.toNat - 'a'.toNat + 10
  else if 'A' ≤ c ∧ c ≤ 'F' then c.toNat - 'A'.toNat + 10
  else 16

/-- A character is a digit of a base when it counts less than the base. -/
def isDigit (base : Nat) (c : Char) : Bool :=
  decide (digitValue c < min base 16)

/-- The number that a row of digits stands for, the first one weighing most. -/
def value (base : Nat) (digits : List Char) : Nat :=
  digits.foldl (fun n c => base * n + digitValue c) 0

/-- Reads one or more digits. -/
def ofDigits? (base : Nat) (text : List Char) : Option Nat :=
  if text.isEmpty then none
  else if text.all (isDigit base) then some (value base text)
  else none

/-- Reads a numeral, which may start with one `+`. -/
def read? (base : Nat) : List Char → Option Nat
  | '+' :: digits => ofDigits? base digits
  | digits => ofDigits? base digits

/-- Reads a numeral that has to stay below the bound. -/
def readBelow? (base bound : Nat) (text : List Char) : Option Nat :=
  (read? base text).filter (· < bound)

theorem read?_plus (base : Nat) (digits : List Char) :
    read? base ('+' :: digits) = ofDigits? base digits := rfl

end Numeral

end Chip8
