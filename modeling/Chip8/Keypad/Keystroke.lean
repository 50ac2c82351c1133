import Chip8.Text.Blank
import Chip8.Text.Numeral
import Chip8.Text.Quoted

/-!
# Chip8 — keystrokes as text

A keystroke says that a key goes down at a time, and is written `KEY@MS`: a hexadecimal digit, an at
sign, and milliseconds in decimal, with white space around either part. What is wrong with another
text is found from left to right: no at sign, then the key, then the time.
-/

namespace Chip8

/-- A key goes down this many milliseconds into a run. -/
structure Keystroke where
  key : UInt8
  atMs : Nat
  deriving DecidableEq

/-- Why a text is no keystroke, with the wrong part of it as it was written. -/
inductive KeystrokeError where
  -- there is no at sign
  | format (text : String)
  -- what stands before the at sign is no key
  | key (text : String)
  -- what stands behind the at sign is no time
  | time (text : String)
  deriving DecidableEq

/-- What the user reads. -/
def KeystrokeError.message : KeystrokeError → String
  | .format text => "expected KEY@MS, got " ++ quoted text
  | .key text => "key must be a hex digit 0-F, got " ++ quoted text
  | .time text => "time must be milliseconds, got " ++ quoted text

namespace Keystroke

/-- The key that a text names. -/
def readKey? (text : List Char) : Option Nat :=
  Numeral.readBelow? 16 16 (trim text)

/-- The time that a text names. -/
def readTime? (text : List Char) : Option Nat :=
  Numeral.readBelow? 10 bound64 (trim text)

/-- What stands before and behind the first at sign. -/
def parts? (text : List Char) : Option (List Char × List Char) :=
  match text.dropWhile (· != '@') with
  | [] => none
  | _ :: behind => some (text.takeWhile (· != '@'), behind)

/-- The keystroke that a text describes. -/
def parse (text : String) : Except KeystrokeError Keystroke :=
  match parts? text.toList with
  | none => .error (.format text)
  | some (before, behind) =>
    -- a bad key is told before a bad time, and both as they were written
    match readKey? before, readTime? behind with
    | none, _ => .error (.key (String.ofList before))
    | some _, none => .error (.time (String.ofList behind))
    | some key, some atMs => .ok ⟨UInt8.ofNat key, atMs⟩

end Keystroke

end Chip8
