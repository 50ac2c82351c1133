import Chip8.Machine.Step

/-!
# Chip8 — what happens to a machine from outside

Keys go down and up, and a program is loaded. A key that goes down ends a wait by being stored in
the register that waits. A program is loaded once, before anything was executed, and only if its
declared size fits; of a program with fewer bytes than declared the rest stays zero.
-/

namespace Chip8

namespace Machine

variable {ρ : Type}

/-! ## Keys -/

/-- A key goes down. -/
def press (m : Machine ρ) (key : UInt8) : Machine ρ :=
  if Keypad.isKey key then
    { m with
      keys := m.keys.put key true
      -- the register takes the number of the key, and the wait is over
      v := match m.pending with
        | some x => m.v.assign x key
        | none => m.v
      pending := none }
  else m

/-- A key goes up. -/
def release (m : Machine ρ) (key : UInt8) : Machine ρ :=
  if Keypad.isKey key then { m with keys := m.keys.put key false } else m

/-- A key changes. -/
def applyChange (m : Machine ρ) : KeyChange → Machine ρ
  | .press key => m.press key
  | .release key => m.release key

/-- What a change of a key tells. -/
def changeEvents (m : Machine ρ) (change : KeyChange) : List Event :=
  match change with
  | .press key =>
    if Keypad.isKey key then
      match m.pending with
      | some x => [.keyStored key x]
      | none => []
    else [.noSuchKey change]
  | .release key => if Keypad.isKey key then [] else [.noSuchKey change]

/-! ## Programs -/

/-- Loads a program with a declared size. -/
def loadDeclared (m : Machine ρ) (size : Nat) (data : List UInt8) : Except Fault (Machine ρ) :=
  -- a machine that was used already says so first, whatever the size
  if !m.isInitial then .error .notInitial
  else if programSpace < size then .error (.programTooLarge (size - programSpace))
  else .ok { m with memory := m.memory.loadProgram data, loaded := true }

/-- Loads a program that is all there. -/
def load (m : Machine ρ) (program : List UInt8) : Except Fault (Machine ρ) :=
  m.loadDeclared program.length program

/-- What a load tells. -/
def loadEvents (m : Machine ρ) (size : Nat) (data : List UInt8) : List Event :=
  match m.loadDeclared size data with
  | .ok _ => [.programLoaded data.length size]
  | .error _ => []

/-- A new machine in a host, with a program if one is given. -/
def build (host : Option ρ) (program : Option (List UInt8)) (variant : Variant) :
    Except Fault (Machine ρ) :=
  match host, program with
  | none, _ => .error .missingHost
  | some host, none => .ok (initial variant host)
  | some host, some program => (initial variant host).load program

/-- What building a machine tells. -/
def buildEvents (host : Option ρ) (program : Option (List UInt8)) (variant : Variant) :
    List Event :=
  match host, program with
  | some host, some program => (initial variant host).loadEvents program.length program
  | _, _ => []

end Machine

end Chip8
