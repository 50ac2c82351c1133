import Chip8.Event
import Chip8.Instruction.Listing
import Chip8.Memory
import Chip8.Text.Quoted

/-!
# Chip8 — the log

How the events of a run read, how much each matters, and which part of the program it comes from. A
log shows the records that matter at least as much as its level asks for.
-/

namespace Chip8

/-- How much a record matters. -/
inductive LogLevel where
  | error
  | warn
  | info
  | debug
  | trace
  deriving DecidableEq

namespace LogLevel

/-- The rank of a level, the most important first. -/
def rank : LogLevel → Nat
  | error => 1
  | warn => 2
  | info => 3
  | debug => 4
  | trace => 5

/-- The name of a level. -/
def name : LogLevel → String
  | error => "ERROR"
  | warn => "WARN"
  | info => "INFO"
  | debug => "DEBUG"
  | trace => "TRACE"

/-- The levels, the most important first. -/
def all : List LogLevel :=
  [error, warn, info, debug, trace]

/-- The level with this name in letters of either case. -/
def ofName? (text : String) : Option LogLevel :=
  all.find? (·.name == text.toUpper)

/-- A log at this level, or at none, shows a record of the other level. -/
def shows (log : Option LogLevel) (level : LogLevel) : Bool :=
  match log with
  | some least => level.rank ≤ least.rank
  | none => false

end LogLevel

/-- An entry of the log. -/
structure LogRecord where
  level : LogLevel
  -- the part of the program that speaks
  origin : String
  message : String
  deriving DecidableEq

namespace LogRecord

/-- The level and the message. -/
def brief (r : LogRecord) : String :=
  r.level.name ++ " " ++ r.message

/-- The name of the level with spaces behind it up to five columns. -/
def levelColumn (r : LogRecord) : String :=
  r.level.name ++ String.ofList (List.replicate (5 - r.level.name.length) ' ')

/-- The level, the origin and the message. -/
def line (r : LogRecord) : String :=
  "[" ++ r.levelColumn ++ "][" ++ r.origin ++ "] " ++ r.message

end LogRecord

/-! ## How events read -/

/-- The name of a register. -/
def registerName (x : UInt8) : String :=
  "V" ++ Numeral.upper 16 1 x.toNat

/-- How a change of a key reads. -/
def KeyChange.text : KeyChange → String
  | press key => "Press(" ++ toString key.toNat ++ ")"
  | release key => "Release(" ++ toString key.toNat ++ ")"

namespace Event

/-- The part of the program that runs the machine. -/
def machineOrigin : String := "kiwi8::kiwi"

/-- The part of the program that drives a run. -/
def runOrigin : String := "kiwi_host::runner"

/-- The record of an event. -/
def record : Event → LogRecord
  | programLoaded count size =>
    ⟨.debug, machineOrigin, s!"loaded {count} of {size} program bytes at "
      ++ Numeral.address 3 programOrigin.toNat⟩
  | romLoaded name => ⟨.debug, machineOrigin, "loaded rom " ++ quoted name⟩
  | fetched cycles pc word instr =>
    ⟨.trace, machineOrigin, s!"[{cycles}] " ++ Numeral.address 3 pc.toNat ++ ": "
      ++ Numeral.upper 16 4 word.toNat ++ " " ++ instr.listing⟩
  | notAnInstruction pc word =>
    ⟨.warn, machineOrigin, Numeral.address 3 pc.toNat ++ ": " ++ (Fault.unknownOpcode word).message⟩
  | waiting cycles x =>
    ⟨.trace, machineOrigin, s!"[{cycles}] waiting for key into " ++ registerName x⟩
  | waitBegan x => ⟨.debug, machineOrigin, "waiting for key into " ++ registerName x⟩
  | keyStored key x =>
    ⟨.debug, machineOrigin,
      "key " ++ Numeral.upper 16 1 key.toNat ++ " stored in " ++ registerName x ++ ", resuming"⟩
  | noSuchKey (.press key) =>
    ⟨.warn, machineOrigin, "ignoring press of unknown key " ++ Numeral.address 1 key.toNat⟩
  | noSuchKey (.release key) =>
    ⟨.warn, machineOrigin, "ignoring release of unknown key " ++ Numeral.address 1 key.toNat⟩
  | writeDropped value cell =>
    ⟨.warn, "kiwi8::memory",
      "dropped write of 0x" ++ Numeral.lower 16 2 value.toNat ++ " to font at 0x"
        ++ Numeral.lower 16 3 cell⟩
  | delayFinished => ⟨.trace, machineOrigin, "delay timer finished"⟩
  | soundStarted ticks => ⟨.debug, machineOrigin, s!"sound on for {ticks} ticks"⟩
  | soundStopped => ⟨.debug, machineOrigin, "sound off"⟩
  | beep on => ⟨.info, "kiwi_host::context", if on then "beep on" else "beep off"⟩
  | skippedTo target =>
    ⟨.trace, "kiwi8::governor", s!"blocked on key, skipping to cycle {target}"⟩
  | keyPlayed ms change => ⟨.debug, runOrigin, s!"{ms}ms: " ++ change.text⟩
  | runBegan name size rate =>
    ⟨.info, runOrigin, s!"running {name} ({size} bytes) at {rate} Hz"⟩
  | runEnded cycles beeps =>
    ⟨.info, runOrigin, s!"{cycles} instructions executed, {beeps} beeps"⟩
  | runFailed path reason => ⟨.error, "kiwi", path ++ ": " ++ reason⟩

end Event

/-- The records that a log at this level, or at none, shows of some events. -/
def logged (log : Option LogLevel) (events : List Event) : List LogRecord :=
  (events.map Event.record).filter fun r => LogLevel.shows log r.level

end Chip8
