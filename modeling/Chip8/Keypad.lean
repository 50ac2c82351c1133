/-!
# Chip8 — the keypad

Sixteen keys, each up or down. Numbers past the last key mean no key.
-/

namespace Chip8

/-- The keys of the keypad. -/
def keypadSize : Nat := 16

/-- Which keys are down. -/
structure Keypad where
  down : Vector Bool 16
  deriving DecidableEq

/-- A change of one key. -/
inductive KeyChange where
  | press (key : UInt8)
  | release (key : UInt8)
  deriving DecidableEq

namespace Keypad

/-- Every key is up. -/
def allUp : Keypad :=
  ⟨Vector.replicate 16 false⟩

/-- A number means a key. -/
def isKey (key : UInt8) : Prop :=
  key.toNat < keypadSize

instance (key : UInt8) : Decidable (isKey key) :=
  inferInstanceAs (Decidable (_ < _))

/-- The key with this number is down. -/
def isDown (keys : Keypad) (key : UInt8) : Bool :=
  keys.down[key.toNat]?.getD false

/-- Puts a key up or down. -/
def put (keys : Keypad) (key : UInt8) (down : Bool) : Keypad :=
  ⟨keys.down.setIfInBounds key.toNat down⟩

/-- The keys that are down, in ascending order. -/
def toList (keys : Keypad) : List Nat :=
  (List.range keypadSize).filter fun k => keys.down[k]?.getD false

theorem isDown_put {keys : Keypad} {key : UInt8} (h : isKey key) (down : Bool) (other : UInt8) :
    (keys.put key down).isDown other = if other = key then down else keys.isDown other := by
  simp only [isDown, put]
  by_cases e : other = key
  · subst e
    have hk : other.toNat < 16 := h
    rw [if_pos rfl, Vector.getElem?_setIfInBounds_self_of_lt hk, Option.getD_some]
  · have : key.toNat ≠ other.toNat := fun t => e (UInt8.toNat_inj.1 t.symm)
    rw [if_neg e, Vector.getElem?_setIfInBounds_ne this]

end Keypad

end Chip8
