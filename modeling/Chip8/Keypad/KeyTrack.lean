import Chip8.Keypad
import Chip8.Keypad.Keystroke

/-!
# Chip8 — key tracks

A key track plays keystrokes while time passes. Each keystroke presses its key at its time and
releases it a fixed time later, or at the last moment there is. Changes are played by time; of
changes at one time, those of the earlier keystroke come first, and of one keystroke the press.
-/

namespace Chip8

/-- How long a played key stays down, in milliseconds. -/
def strokeMs : Nat := 50

/-- A change of a key at a time in milliseconds. -/
structure TimedChange where
  atMs : Nat
  change : KeyChange
  deriving DecidableEq

namespace Keystroke

/-- When a keystroke releases its key. -/
def releaseMs (stroke : Keystroke) : Nat :=
  min (stroke.atMs + strokeMs) (bound64 - 1)

/-- The press and the release of a keystroke. -/
def changes (stroke : Keystroke) : List TimedChange :=
  [⟨stroke.atMs, .press stroke.key⟩, ⟨stroke.releaseMs, .release stroke.key⟩]

end Keystroke

/-- The changes to play, and how many of them were played. -/
structure KeyTrack where
  changes : List TimedChange
  played : Nat := 0
  deriving DecidableEq

namespace KeyTrack

/-- The track of a list of keystrokes. -/
def ofKeystrokes (strokes : List Keystroke) : KeyTrack where
  -- the sort is stable, so changes at one time keep the order of their keystrokes
  changes := (strokes.flatMap Keystroke.changes).mergeSort fun a b => a.atMs ≤ b.atMs

/-- The changes that were not played yet. -/
def rest (track : KeyTrack) : List TimedChange :=
  track.changes.drop track.played

/-- The changes that are due now and were not played yet. -/
def ready (track : KeyTrack) (nowMs : Nat) : List TimedChange :=
  track.rest.takeWhile (·.atMs ≤ nowMs)

/-- Plays what is due. -/
def play (track : KeyTrack) (nowMs : Nat) : List KeyChange × KeyTrack :=
  let ready := track.ready nowMs
  (ready.map TimedChange.change, { track with played := track.played + ready.length })

/-- Everything was played. -/
def isFinished (track : KeyTrack) : Bool :=
  track.played == track.changes.length

end KeyTrack

end Chip8
