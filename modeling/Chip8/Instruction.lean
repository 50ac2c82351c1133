/-!
# Chip8 — the instruction set

The thirty-four instructions of the machine, named for what they do. `x` and `y` name registers, `n`
is a count of rows, `nn` a byte and `nnn` an address. The fields are whole words: a value that does
not fit its place in the two instruction bytes is cut when it is encoded, see
`Chip8.Instruction.Word`.
-/

namespace Chip8

/-- One instruction of the machine. -/
inductive Instruction where
  /-- Turn every pixel off. -/
  | clear
  /-- Leave the current subroutine. -/
  | ret
  /-- Go on at `nnn`. -/
  | jump (nnn : UInt16)
  /-- Enter the subroutine at `nnn`. -/
  | call (nnn : UInt16)
  /-- Skip one instruction when `Vx` is `nn`. -/
  | skipIfByte (x nn : UInt8)
  /-- Skip one instruction when `Vx` is not `nn`. -/
  | skipUnlessByte (x nn : UInt8)
  /-- Skip one instruction when `Vx` and `Vy` agree. -/
  | skipIfSame (x y : UInt8)
  /-- `Vx` becomes `nn`. -/
  | setByte (x nn : UInt8)
  /-- `Vx` grows by `nn`, without a flag. -/
  | addByte (x nn : UInt8)
  /-- `Vx` becomes `Vy`. -/
  | copy (x y : UInt8)
  /-- `Vx` takes the bits of `Vy` as well. -/
  | bitOr (x y : UInt8)
  /-- `Vx` keeps only the bits of `Vy`. -/
  | bitAnd (x y : UInt8)
  /-- `Vx` flips the bits of `Vy`. -/
  | bitXor (x y : UInt8)
  /-- `Vx` grows by `Vy`; the flag is the carry. -/
  | add (x y : UInt8)
  /-- `Vx` shrinks by `Vy`; the flag says that nothing was borrowed. -/
  | sub (x y : UInt8)
  /-- `Vx` is halved; the flag is the bit that falls off. `y` has no effect. -/
  | shiftRight (x y : UInt8)
  /-- `Vx` becomes `Vy - Vx`; the flag says that nothing was borrowed. -/
  | subFrom (x y : UInt8)
  /-- `Vx` is doubled; the flag is the bit that falls off. `y` has no effect. -/
  | shiftLeft (x y : UInt8)
  /-- Skip one instruction when `Vx` and `Vy` differ. -/
  | skipIfDiffer (x y : UInt8)
  /-- `I` becomes `nnn`. -/
  | setIndex (nnn : UInt16)
  /-- Go on at `nnn + V0`. -/
  | jumpOffset (nnn : UInt16)
  /-- `Vx` becomes a random byte under the mask `nn`. -/
  | random (x nn : UInt8)
  /-- Draw the `n` rows at `I` with their corner at `(Vx, Vy)`; the flag says that a pixel went
  out. -/
  | draw (x y n : UInt8)
  /-- Skip one instruction when the key in `Vx` is down. -/
  | skipIfKey (x : UInt8)
  /-- Skip one instruction by the key in `Vx`, on which side the variant says. -/
  | skipByKey (x : UInt8)
  /-- `Vx` becomes the delay timer. -/
  | readDelay (x : UInt8)
  /-- Wait for a key and store it in `Vx`. -/
  | awaitKey (x : UInt8)
  /-- The delay timer becomes `Vx`. -/
  | setDelay (x : UInt8)
  /-- The sound timer becomes `Vx`. -/
  | setSound (x : UInt8)
  /-- `I` grows by `Vx`. -/
  | addIndex (x : UInt8)
  /-- `I` becomes the address of the glyph for `Vx`. -/
  | setGlyph (x : UInt8)
  /-- Store the three decimal digits of `Vx` at `I`. -/
  | storeDigits (x : UInt8)
  /-- Store `V0` to `Vx` at `I`. -/
  | storeRegisters (x : UInt8)
  /-- Load `V0` to `Vx` from `I`. -/
  | loadRegisters (x : UInt8)
  deriving DecidableEq

end Chip8
