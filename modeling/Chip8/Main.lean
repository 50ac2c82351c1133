import Chip8.Command

/-!
# Chip8 — the command in real time

The command on the clock and the files of the system. It decides nothing of its own: sessions,
options, log and summary are those of `Chip8.Command`.
-/

namespace Chip8.Main

/-- Shows what was told. -/
def tell (log : Option LogLevel) (events : List Event) : IO Unit := do
  let err ← IO.getStderr
  for r in logged log events do
    err.putStrLn r.line

/-- Polls once a millisecond until the time is over or a poll fails. -/
partial def play (o : Command.Options) (start : Nat) (s : Session SeededHost) :
    IO (Except Fault (Session SeededHost)) := do
  let polled := s.poll ((← IO.monoNanosNow) - start)
  tell o.logLevel polled.events.toList
  match polled.result with
  | .error fault => return .error fault
  | .ok ms =>
    if ms < o.durationMs then
      IO.sleep 1
      play o start polled.session
    else
      return .ok polled.session

/-- Runs a program image. -/
def runImage (o : Command.Options) (rom : Rom) : IO (Except RunFailure Summary) := do
  tell o.logLevel (Headless.openingEvents o.plan rom)
  match Headless.session o.plan rom 0 with
  | .error fault => return .error (.stopped fault)
  | .ok s =>
    match ← play o (← IO.monoNanosNow) s with
    | .error fault => return .error (.stopped fault)
    | .ok final =>
      let summary := final.summary rom.name o.scale
      tell o.logLevel (Headless.closingEvents summary)
      return .ok summary

/-- Reads the file at a path. -/
def readFile (path : String) : IO (Except String (List UInt8)) := do
  try
    return .ok (← IO.FS.readBinFile path).toList
  catch e =>
    return .error (toString e)

end Chip8.Main

open Chip8 in
/-- The command. -/
def main (words : List String) : IO UInt32 := do
  match Command.Options.parse words with
  | .error refusal =>
    let ended := Command.refused refusal
    IO.print ended.out
    IO.eprint ended.err
    return ended.code.toUInt32
  | .ok o =>
    let outcome ← match o.image (← Main.readFile o.rom) with
      | .error reason => pure (.error (.unreadable reason))
      | .ok rom => Main.runImage o rom
    match outcome with
    | .ok summary =>
      IO.print (Command.summaryText summary)
      return 0
    | .error e =>
      Main.tell o.logLevel (Command.failureEvents o e)
      return 1
