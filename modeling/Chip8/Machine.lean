import Chip8.Variant
import Chip8.Event
import Chip8.Frame
import Chip8.Host
import Chip8.Memory

/-!
# Chip8 — the machine

Sixteen byte registers, an index register, a program counter, a display, memory, a stack of return
addresses, two timers and a keypad, inside a host. This module holds the state and how it starts;
`Chip8.Machine.Execute` runs one instruction on it, `Chip8.Machine.Step` fetches and runs the next
one, and `Chip8.Machine.Input` is what happens to a machine from outside.
-/

namespace Chip8

/-! ## Registers -/

/-- The byte registers `V0` to `VF`. -/
abbrev Registers := Vector UInt8 16

namespace Registers

/-- The register that a byte names, by its lower four bits. -/
def number (x : UInt8) : Fin 16 :=
  Fin.ofNat 16 x.toNat

/-- The value of a register. -/
def value (v : Registers) (x : UInt8) : UInt8 :=
  v[number x]

/-- A register takes a value. -/
def assign (v : Registers) (x value : UInt8) : Registers :=
  v.set (number x) value

/-- The flag register. -/
def flag : UInt8 := 0xF

/-- The flag takes a value and then a register does, so a result in the flag register wins. -/
def assignFlagged (v : Registers) (x value : UInt8) (raised : Bool) : Registers :=
  (v.assign flag (if raised then 1 else 0)).assign x value

theorem value_assign (v : Registers) (x value y : UInt8) :
    (v.assign x value).value y = if number x = number y then value else v.value y := by
  simp only [Registers.value, assign, Fin.getElem_fin, Vector.getElem_set]
  simp [Fin.ext_iff]

theorem get_assign_ne (v : Registers) {x : UInt8} (value : UInt8) {r : Fin 16}
    (h : r ≠ number x) : (v.assign x value).get r = v.get r := by
  have hne : (number x).val ≠ r.val := fun e => h (Fin.ext e.symm)
  show (v.set (number x) value)[r.val] = v[r.val]
  exact Vector.getElem_set_ne _ _ hne

end Registers

/-! ## State -/

/-- A machine inside a host. -/
structure Machine (ρ : Type) where
  variant : Variant
  host : ρ
  v : Registers
  i : UInt16
  pc : UInt16
  frame : Frame
  memory : Memory
  -- the return addresses, the latest first
  stack : List UInt16
  delay : UInt8
  sound : UInt8
  keys : Keypad
  -- the register that waits for a key
  pending : Option UInt8
  -- how many instructions were executed
  cycles : Nat
  -- a program was loaded
  loaded : Bool
  deriving DecidableEq

/-- The return addresses that the stack holds at most. -/
def stackLimit : Nat := 16

namespace Machine

variable {ρ : Type}

/-- A machine without a program. -/
def initial (variant : Variant) (host : ρ) : Machine ρ where
  variant
  host
  v := Vector.replicate 16 0
  i := 0
  pc := programOrigin
  frame := .dark
  memory := .initial
  stack := []
  delay := 0
  sound := 0
  keys := .allUp
  pending := none
  cycles := 0
  loaded := false

/-- Nothing was loaded and nothing executed yet. -/
def isInitial (m : Machine ρ) : Bool :=
  m.pc == programOrigin && m.cycles == 0 && !m.loaded

/-- The machine waits for a key. -/
def isWaiting (m : Machine ρ) : Bool :=
  m.pending.isSome

end Machine

end Chip8
