import Chip8.Frame.Picture
import Chip8.Host.Seeded
import Chip8.Rom
import Chip8.Session

/-!
# Chip8 — headless runs

A headless run loads a program image into a machine in a seeded host, polls the session once a
millisecond until its time is over, and reports the state of the machine. It fails when the image
cannot be read and when the machine refuses.

`Headless.run` plays the run on an even clock: its polls come a whole number of milliseconds and a
moment after the start.
-/

namespace Chip8

/-- What can be chosen about a run. -/
structure RunPlan where
  -- instructions per second
  rate : Nat := usualRate
  durationMs : Nat := 1000
  seed : Nat := 0
  variant : Variant := {}
  keys : List Keystroke := []
  deriving DecidableEq

/-- The state of a machine when its run ended. -/
structure Summary where
  name : String
  cycles : Nat
  beeps : Nat
  waiting : Bool
  screen : String
  deriving DecidableEq

/-- Why a run failed. -/
inductive RunFailure where
  -- the program image cannot be read
  | unreadable (reason : String)
  -- the machine refused
  | stopped (fault : Fault)
  deriving DecidableEq

/-- What the user reads. -/
def RunFailure.message : RunFailure → String
  | .unreadable reason => "cannot read rom: " ++ reason
  | .stopped fault => "machine stopped: " ++ fault.message

/-- The summary of a session. -/
def Session.summary (s : Session SeededHost) (name : String) (scale : Nat) : Summary where
  name
  cycles := s.machine.cycles
  beeps := s.machine.host.beeps
  waiting := s.machine.isWaiting
  screen := s.machine.frame.picture scale

/-- The end of a run, and what was told until then. -/
structure RunResult where
  outcome : Except RunFailure Summary
  events : Array Event

namespace Headless

/-- The machine of a run before it is loaded. -/
def machine (plan : RunPlan) : Machine SeededHost :=
  .initial plan.variant (.ofSeed plan.seed)

/-- The session of a run that begins now. -/
def session (plan : RunPlan) (rom : Rom) (now : Nat) : Except Fault (Session SeededHost) :=
  ((machine plan).loadRom rom).map fun loaded =>
    .initial loaded now plan.rate plan.keys

/-- What is told before the first poll. -/
def openingEvents (plan : RunPlan) (rom : Rom) : List Event :=
  .runBegan rom.name rom.size plan.rate :: (machine plan).loadRomEvents rom

/-- What is told after the last poll. -/
def closingEvents (summary : Summary) : List Event :=
  [.runEnded summary.cycles summary.beeps]

/-- When the polls come, in nanoseconds after the start. -/
def pollTime (n : Nat) : Nat :=
  n * Session.millisecond + 1000

/-- The `n`-th poll and so many after it, unless a poll fails. -/
def play (s : Session SeededHost) (n : Nat) (told : Array Event) :
    Nat → Except Fault (Session SeededHost) × Array Event
  -- the last poll is at the very end of the time
  | 0 =>
    let polled := s.poll (pollTime n)
    (polled.result.map fun _ => polled.session, told ++ polled.events)
  | more + 1 =>
    let polled := s.poll (pollTime n)
    match polled.result with
    | .error fault => (.error fault, told ++ polled.events)
    | .ok _ => play polled.session (n + 1) (told ++ polled.events) more

/-- A run on an even clock. -/
def run (plan : RunPlan) (scale : Nat) (image : Except String Rom) : RunResult :=
  match image with
  | .error reason => ⟨.error (.unreadable reason), #[]⟩
  | .ok rom =>
    let opening := (openingEvents plan rom).toArray
    match session plan rom 0 with
    | .error fault => ⟨.error (.stopped fault), opening⟩
    | .ok s =>
      match play s 0 opening plan.durationMs with
      | (.error fault, told) => ⟨.error (.stopped fault), told⟩
      | (.ok final, told) =>
        let summary := final.summary rom.name scale
        ⟨.ok summary, told ++ closingEvents summary⟩

end Headless

end Chip8
