import Chip8.Host
import Chip8.Host.Generator

/-!
# Chip8 — the seeded host

The host of a run without devices. Random bytes come from a generator with a seed, so the same seed,
program and keys give the same run. Sound is reported and counted instead of played.
-/

namespace Chip8

/-- A generator, whether sound is on, and how often it started. -/
structure SeededHost where
  generator : Generator
  sounding : Bool := false
  beeps : Nat := 0
  deriving DecidableEq

/-- The silent host with a fresh generator. -/
def SeededHost.ofSeed (seed : Nat) : SeededHost :=
  ⟨.ofSeed seed, false, 0⟩

instance : Host SeededHost where
  nextByte host := (host.generator.next.1, { host with generator := host.generator.next.2 })
  soundOn host := { host with sounding := true, beeps := host.beeps + 1 }
  soundOff host := { host with sounding := false }
  reportsSound := true

theorem SeededHost.generator_soundOn (host : SeededHost) :
    (Host.soundOn host).generator = host.generator :=
  rfl

theorem SeededHost.generator_soundOff (host : SeededHost) :
    (Host.soundOff host).generator = host.generator :=
  rfl

/-- The seeded host draws its bytes from its generator. -/
def SeededHost.randomSource : RandomSource SeededHost Generator where
  source := SeededHost.generator
  draw := Generator.next
  nextByte _ := rfl
  soundOn := SeededHost.generator_soundOn
  soundOff := SeededHost.generator_soundOff

end Chip8
