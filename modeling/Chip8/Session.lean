import Chip8.Pacer
import Chip8.Keypad.KeyTrack

/-!
# Chip8 — sessions

A session is a machine with a program, driven by a pacer and a key track. A poll first plays the
keys that are due and then catches the machine up with the clock.
-/

namespace Chip8

/-- A machine with what drives it. -/
structure Session (ρ : Type) where
  machine : Machine ρ
  pacer : Pacer
  track : KeyTrack
  deriving DecidableEq

/-- What the poll of a session leaves behind. -/
structure SessionPolled (ρ : Type) where
  -- the milliseconds since the session began, or the fault that ended the poll
  result : Except Fault Nat
  session : Session ρ
  events : Array Event

namespace Session

variable {ρ : Type}

/-- A session that begins now. -/
def initial (machine : Machine ρ) (now rate : Nat) (keys : List Keystroke) : Session ρ where
  machine
  pacer := .initial now rate
  track := .ofKeystrokes keys

/-- Nanoseconds of a millisecond. -/
def millisecond : Nat := 1000000

/-- Milliseconds since the session began. -/
def elapsedMs (s : Session ρ) (now : Nat) : Nat :=
  s.pacer.elapsed now / millisecond

/-- What a list of changes of keys tells, each with the time it is played. -/
def playEvents (ms : Nat) (m : Machine ρ) : List KeyChange → List Event
  | [] => []
  | change :: rest =>
    .keyPlayed ms change :: m.changeEvents change ++ playEvents ms (m.applyChange change) rest

variable [Host ρ]

/-- Plays the keys that are due, then catches the machine up with the clock. -/
def poll (s : Session ρ) (now : Nat) : SessionPolled ρ :=
  let ms := s.elapsedMs now
  let played := s.track.play ms
  -- a key that is due is down before the instructions that are due run
  let polled := s.pacer.poll (played.1.foldl Machine.applyChange s.machine) now
  { result := polled.result.map fun _ => ms
    session := ⟨polled.machine, polled.pacer, played.2⟩
    events := (playEvents ms s.machine played.1).toArray ++ polled.events }

end Session

end Chip8
