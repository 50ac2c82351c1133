/-!
# Chip8 — timers

A timer is a byte that counts down to zero and rests there.
-/

namespace Chip8.Timer

/-- A timer one tick later. -/
def countdown (t : UInt8) : UInt8 :=
  if t = 0 then 0 else t - 1

/-- The next tick brings a running timer to its rest. -/
def runsOut (t : UInt8) : Bool :=
  t == 1

/-- A timer runs. -/
def isRunning (t : UInt8) : Bool :=
  t != 0

theorem toNat_countdown (t : UInt8) : (countdown t).toNat = t.toNat - 1 := by
  unfold countdown
  split
  · rename_i h
    simp [h]
  · rename_i h
    have hpos : 1 ≤ t.toNat := Nat.pos_of_ne_zero fun e => h (UInt8.toNat_inj.1 e)
    have hle : (1 : UInt8) ≤ t := UInt8.le_iff_toNat_le.2 hpos
    rw [UInt8.toNat_sub_of_le _ _ hle]
    rfl

theorem runsOut_iff (t : UInt8) :
    runsOut t = true ↔ isRunning t = true ∧ isRunning (countdown t) = false := by
  have h := toNat_countdown t
  simp only [runsOut, isRunning, beq_iff_eq, bne_iff_ne, ne_eq, bne_eq_false_iff_eq,
    ← UInt8.toNat_inj, h, UInt8.toNat_ofNat]
  omega

end Chip8.Timer
