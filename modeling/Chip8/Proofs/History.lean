import Chip8.Pacer
import Chip8.Proofs.CatchUp

/-!
# Chip8 — the history of a machine

Five things happen to a machine: a program is loaded into it, it steps, a key changes, its timers
tick, a pacer polls it. A load that is refused leaves the machine as it was. Any pacer may poll,
with any clock, so a history covers a machine that was driven in any way at all.

Main statements:

* `poll_invariant` — what steps and ticks keep, polls keep;
* `undergoAll_invariant` — what loads, steps, keys and ticks keep, every history keeps.
-/

namespace Chip8

/-- One thing that happens to a machine. -/
inductive Operation where
  /-- A program with this declared size is loaded. -/
  | load (size : Nat) (data : List UInt8)
  /-- The machine steps. -/
  | step
  /-- A key changes. -/
  | key (change : KeyChange)
  /-- The timers tick. -/
  | tick
  /-- A pacer polls the machine at this time. -/
  | poll (p : Pacer) (now : Nat)
  deriving DecidableEq

namespace Machine

variable {ρ : Type}

/-- The machine after a load was tried. -/
def tryLoad (m : Machine ρ) (size : Nat) (data : List UInt8) : Machine ρ :=
  match m.loadDeclared size data with
  | .ok after => after
  | .error _ => m

/-- A machine that was used takes no program. -/
theorem loadDeclared_of_used {m : Machine ρ} (hused : m.isInitial = false) (size : Nat)
    (data : List UInt8) : m.loadDeclared size data = .error .notInitial := by
  rw [loadDeclared, hused]
  rfl

/-- A load reaches memory and the note that a program was loaded. -/
theorem tryLoad_frame (m : Machine ρ) (size : Nat) (data : List UInt8) : m.tryLoad size data
    = { m with
        memory := (m.tryLoad size data).memory
        loaded := (m.tryLoad size data).loaded } := by
  rw [tryLoad, loadDeclared]
  by_cases hinitial : m.isInitial = true <;> by_cases hsize : programSpace < size <;>
    simp [hinitial, hsize]

variable [Host ρ]

/-- The machine after something happened to it. -/
def undergo (m : Machine ρ) : Operation → Machine ρ
  | .load size data => m.tryLoad size data
  | .step => m.step.2
  | .key change => m.applyChange change
  | .tick => m.tick
  | .poll p now => (p.poll m now).machine

/-- The machine after a history. -/
def undergoAll (m : Machine ρ) (ops : List Operation) : Machine ρ :=
  ops.foldl undergo m

/-- What a history makes of a new machine. -/
def reached (variant : Variant) (host : ρ) (ops : List Operation) : Machine ρ :=
  (initial variant host).undergoAll ops

variable {Inv : Machine ρ → Prop}

/-- What a step that ran keeps, every step keeps. -/
theorem step_invariant (hrun : ∀ m m' : Machine ρ, m.step = (.ran, m') → Inv m → Inv m')
    {m : Machine ρ} (h : Inv m) : Inv m.step.2 := by
  cases hs : m.step with
  | mk outcome m' =>
    by_cases hran : outcome = .ran
    · rw [hran] at hs
      exact hrun m m' hs h
    · rw [step_eq_self hs hran]
      exact h

/-- What steps and ticks keep, polls keep. -/
theorem poll_invariant (hrun : ∀ m m' : Machine ρ, m.step = (.ran, m') → Inv m → Inv m')
    (htick : ∀ m : Machine ρ, Inv m → Inv m.tick) {m : Machine ρ} (h : Inv m) (p : Pacer)
    (now : Nat) : Inv (p.poll m now).machine := by
  refine Pacer.catchUp_invariant (fun _ m => Inv m) ?_ ?_ ?_ h 0 #[]
  · intro _ m _ hm
    exact htick m hm
  · intro _ m m' _ _ hstep hm
    exact hrun m m' hstep hm
  · intro _ _ _ _ _ hm
    exact hm

/-- What loads, steps, keys and ticks keep, every history keeps. -/
theorem undergoAll_invariant
    (hload : ∀ (m m' : Machine ρ) (size : Nat) (data : List UInt8),
      m.loadDeclared size data = .ok m' → Inv m → Inv m')
    (hrun : ∀ m m' : Machine ρ, m.step = (.ran, m') → Inv m → Inv m')
    (hkey : ∀ (m : Machine ρ) (change : KeyChange), Inv m → Inv (m.applyChange change))
    (htick : ∀ m : Machine ρ, Inv m → Inv m.tick) {m : Machine ρ} (h : Inv m)
    (ops : List Operation) : Inv (m.undergoAll ops) := by
  induction ops generalizing m with
  | nil => exact h
  | cons op ops ih =>
    refine ih ?_
    cases op with
    | load size data =>
      rw [undergo, tryLoad]
      split
      · rename_i after hload'
        exact hload m after size data hload' h
      · exact h
    | step => exact step_invariant hrun h
    | key change => exact hkey m change h
    | tick => exact htick m h
    | poll p now => exact poll_invariant hrun htick h p now

end Machine

end Chip8
