/-!
# Chip8 — hosts

A machine lives in a host, which hands out random bytes and is told when sound starts and stops.
Where the bytes come from is for the host to choose; some hosts draw them from a generator.
-/

namespace Chip8

/-- What a machine needs of its surroundings. -/
class Host (ρ : Type) where
  /-- The next random byte. -/
  nextByte : ρ → UInt8 × ρ
  /-- Sound starts. -/
  soundOn : ρ → ρ := id
  /-- Sound stops. -/
  soundOff : ρ → ρ := id
  /-- The host reports the sound it is told of. -/
  reportsSound : Bool := false

/-- The first bytes that are drawn from a generator. -/
def bytesFrom {γ : Type} (draw : γ → UInt8 × γ) : γ → Nat → List UInt8
  | _, 0 => []
  | generator, n + 1 => (draw generator).1 :: bytesFrom draw (draw generator).2 n

/-- The generator from which a host draws its random bytes, one for each byte that it hands out.
What the host is told of sound does not reach it. -/
structure RandomSource (ρ γ : Type) [Host ρ] where
  source : ρ → γ
  draw : γ → UInt8 × γ
  nextByte : ∀ host,
    draw (source host) = ((Host.nextByte host).1, source (Host.nextByte host).2)
  soundOn : ∀ host : ρ, source (Host.soundOn host) = source host
  soundOff : ∀ host : ρ, source (Host.soundOff host) = source host

/-- A host that hands out the same byte again and again and takes no note of sound. -/
structure SilentHost where
  byte : UInt8
  deriving DecidableEq

instance : Host SilentHost where
  nextByte host := (host.byte, host)

/-- A host that hands out a row of bytes in turn, beginning anew at its end, and counts what it is
asked and told. Without bytes it hands out zeros and counts none. -/
structure ScriptedHost where
  bytes : List UInt8
  taken : Nat := 0
  starts : Nat := 0
  stops : Nat := 0
  deriving DecidableEq

namespace ScriptedHost

/-- The next byte of the row. -/
def next (host : ScriptedHost) : UInt8 × ScriptedHost :=
  match host.bytes[host.taken % host.bytes.length]? with
  | some b => (b, { host with taken := host.taken + 1 })
  -- without bytes there is nothing to take
  | none => (0, host)

instance : Host ScriptedHost where
  nextByte := next
  soundOn host := { host with starts := host.starts + 1 }
  soundOff host := { host with stops := host.stops + 1 }

end ScriptedHost

end Chip8
