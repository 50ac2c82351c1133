/-!
# Chip8 — the random generator

A permuted congruential generator on 128 bits. A state is a seed; taking a byte turns the seed into
a stream increment and a state of a linear congruential generator, runs that twice, and folds the
result to 64 bits, of which the lowest eight are handed out. The next seed is the last state with
the folded bits laid over its upper half.
-/

namespace Chip8

/-- A generator is its current seed. -/
structure Generator where
  seed : BitVec 128
  deriving DecidableEq

namespace Generator

/-- The factor of the congruential step. -/
def multiplier : BitVec 128 := 47026247687942121848144207491837523525#128

/-- The generator that starts from a seed. -/
def ofSeed (seed : Nat) : Generator :=
  ⟨BitVec.ofNat 128 seed⟩

/-- The increment that belongs to a seed, always odd. -/
def increment (seed : BitVec 128) : BitVec 128 :=
  seed.rotateLeft 1 ||| 1#128

/-- The congruential step. -/
def advance (inc s : BitVec 128) : BitVec 128 :=
  s * multiplier + inc

/-- The upper half of a state laid over its lower half. -/
def fold (s : BitVec 128) : BitVec 64 :=
  (s >>> 64).setWidth 64 ^^^ s.setWidth 64

/-- The next byte, and the generator after it. -/
def next (g : Generator) : UInt8 × Generator :=
  let inc := increment g.seed
  -- the first round brings the seed in, the second is the step itself
  let s := advance inc (advance inc (inc + g.seed))
  let folded := fold s
  (UInt8.ofNat folded.toNat, ⟨s ^^^ (folded.setWidth 128 <<< 64)⟩)

end Generator

end Chip8
