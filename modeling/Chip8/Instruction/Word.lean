import Chip8.Fault
import Chip8.Instruction

/-!
# Chip8 — instructions as words

An instruction is a word of four hexadecimal digits, stored high byte first. The leading digit
gives the family; the other three hold registers, a row count, a byte or an address, or tell the
members of a family apart.

* `Instruction.encode` writes a word and cuts every field to its digits;
* `Instruction.decode` reads a word, or fails with the word that is no instruction;
* `Instruction.bytes` is the program text of a list of instructions.
-/

namespace Chip8

/-- The word with these four digits, each cut to one digit. -/
def wordOfDigits (a b c d : Nat) : UInt16 :=
  UInt16.ofNat (a % 16 * 4096 + b % 16 * 256 + c % 16 * 16 + d % 16)

/-- The high byte of a word, then the low one. -/
def bytesOfWord (w : UInt16) : List UInt8 :=
  [UInt8.ofNat (w.toNat / 256), UInt8.ofNat (w.toNat % 256)]

/-- The word with this high and this low byte. -/
def wordOfBytes (high low : UInt8) : UInt16 :=
  UInt16.ofNat (high.toNat * 256 + low.toNat)

namespace Instruction

/-! ## Writing -/

/-- The word of an address behind a leading digit. -/
def addressForm (a : Nat) (nnn : UInt16) : UInt16 :=
  wordOfDigits a (nnn.toNat / 256) (nnn.toNat / 16) nnn.toNat

/-- The word of a register and a byte behind a leading digit. -/
def byteForm (a : Nat) (x nn : UInt8) : UInt16 :=
  wordOfDigits a x.toNat (nn.toNat / 16) nn.toNat

/-- The word of two registers between a leading and a last digit. -/
def pairForm (a : Nat) (x y : UInt8) (d : Nat) : UInt16 :=
  wordOfDigits a x.toNat y.toNat d

/-- The word of an instruction. -/
def encode : Instruction → UInt16
  | clear => 0x00E0
  | ret => 0x00EE
  | jump nnn => addressForm 0x1 nnn
  | call nnn => addressForm 0x2 nnn
  | skipIfByte x nn => byteForm 0x3 x nn
  | skipUnlessByte x nn => byteForm 0x4 x nn
  | skipIfSame x y => pairForm 0x5 x y 0x0
  | setByte x nn => byteForm 0x6 x nn
  | addByte x nn => byteForm 0x7 x nn
  | copy x y => pairForm 0x8 x y 0x0
  | bitOr x y => pairForm 0x8 x y 0x1
  | bitAnd x y => pairForm 0x8 x y 0x2
  | bitXor x y => pairForm 0x8 x y 0x3
  | add x y => pairForm 0x8 x y 0x4
  | sub x y => pairForm 0x8 x y 0x5
  | shiftRight x y => pairForm 0x8 x y 0x6
  | subFrom x y => pairForm 0x8 x y 0x7
  | shiftLeft x y => pairForm 0x8 x y 0xE
  | skipIfDiffer x y => pairForm 0x9 x y 0x0
  | setIndex nnn => addressForm 0xA nnn
  | jumpOffset nnn => addressForm 0xB nnn
  | random x nn => byteForm 0xC x nn
  | draw x y n => pairForm 0xD x y n.toNat
  | skipIfKey x => byteForm 0xE x 0x9E
  | skipByKey x => byteForm 0xE x 0xA1
  | readDelay x => byteForm 0xF x 0x07
  | awaitKey x => byteForm 0xF x 0x0A
  | setDelay x => byteForm 0xF x 0x15
  | setSound x => byteForm 0xF x 0x18
  | addIndex x => byteForm 0xF x 0x1E
  | setGlyph x => byteForm 0xF x 0x29
  | storeDigits x => byteForm 0xF x 0x33
  | storeRegisters x => byteForm 0xF x 0x55
  | loadRegisters x => byteForm 0xF x 0x65

/-- The bytes of a program in order. -/
def bytes (program : List Instruction) : List UInt8 :=
  program.flatMap fun instr => bytesOfWord instr.encode

/-! ## Reading -/

/-- The instructions without fields, told apart by the last three digits. -/
def ofPlain? (b c d : Nat) : Option Instruction :=
  match b, c, d with
  | 0x0, 0xE, 0x0 => some clear
  | 0x0, 0xE, 0xE => some ret
  | _, _, _ => none

/-- The instructions on two registers, told apart by the last digit. -/
def ofArithmetic? (x y : UInt8) (d : Nat) : Option Instruction :=
  match d with
  | 0x0 => some (copy x y)
  | 0x1 => some (bitOr x y)
  | 0x2 => some (bitAnd x y)
  | 0x3 => some (bitXor x y)
  | 0x4 => some (add x y)
  | 0x5 => some (sub x y)
  | 0x6 => some (shiftRight x y)
  | 0x7 => some (subFrom x y)
  | 0xE => some (shiftLeft x y)
  | _ => none

/-- The instructions on a key, told apart by the last two digits. -/
def ofKey? (x : UInt8) (c d : Nat) : Option Instruction :=
  match c, d with
  | 0x9, 0xE => some (skipIfKey x)
  | 0xA, 0x1 => some (skipByKey x)
  | _, _ => none

/-- The instructions on one register and a timer, a key, the index or memory, told apart by the last
two digits. -/
def ofDevice? (x : UInt8) (c d : Nat) : Option Instruction :=
  match c, d with
  | 0x0, 0x7 => some (readDelay x)
  | 0x0, 0xA => some (awaitKey x)
  | 0x1, 0x5 => some (setDelay x)
  | 0x1, 0x8 => some (setSound x)
  | 0x1, 0xE => some (addIndex x)
  | 0x2, 0x9 => some (setGlyph x)
  | 0x3, 0x3 => some (storeDigits x)
  | 0x5, 0x5 => some (storeRegisters x)
  | 0x6, 0x5 => some (loadRegisters x)
  | _, _ => none

/-- The instruction with these four digits, if there is one. -/
def ofDigits? (a b c d : Nat) : Option Instruction :=
  let x := UInt8.ofNat b
  let y := UInt8.ofNat c
  let nn := UInt8.ofNat (c * 16 + d)
  let nnn := UInt16.ofNat (b * 256 + c * 16 + d)
  match a with
  | 0x0 => ofPlain? b c d
  | 0x1 => some (jump nnn)
  | 0x2 => some (call nnn)
  | 0x3 => some (skipIfByte x nn)
  | 0x4 => some (skipUnlessByte x nn)
  | 0x5 => if d = 0x0 then some (skipIfSame x y) else none
  | 0x6 => some (setByte x nn)
  | 0x7 => some (addByte x nn)
  | 0x8 => ofArithmetic? x y d
  | 0x9 => if d = 0x0 then some (skipIfDiffer x y) else none
  | 0xA => some (setIndex nnn)
  | 0xB => some (jumpOffset nnn)
  | 0xC => some (random x nn)
  | 0xD => some (draw x y (UInt8.ofNat d))
  | 0xE => ofKey? x c d
  | 0xF => ofDevice? x c d
  | _ => none

/-- The instruction with this word; a word without one is a fault. -/
def decode (w : UInt16) : Except Fault Instruction :=
  match ofDigits? (w.toNat / 4096) (w.toNat / 256 % 16) (w.toNat / 16 % 16) (w.toNat % 16) with
  | some instr => .ok instr
  | none => .error (.unknownOpcode w)

end Instruction

end Chip8
