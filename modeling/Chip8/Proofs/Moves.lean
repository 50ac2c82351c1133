import Chip8.Proofs.History
import Chip8.Proofs.Journal

/-!
# Chip8 — the moves of a history

A poll is made of steps and ticks. With every poll taken apart, a history is a row of moves, each of
which is a load, a step, a change of a key or a tick. The course of a history pairs every move with
the machine that makes it, so what happened on the way can be counted and collected.

Main statements:

* `makeAll_moves` — a history and the row of its moves lead to the same machine;
* `make_step_cases` — a step executes an instruction and retires it, or changes nothing.
-/

namespace Chip8

/-- One move of a machine. -/
inductive Move where
  -- a program with this declared size is loaded
  | load (size : Nat) (data : List UInt8)
  | step
  | key (change : KeyChange)
  | tick
  deriving DecidableEq

/-- What is answered to a move. -/
inductive Answer where
  -- how a step went
  | stepped (outcome : Outcome)
  -- whether a program was taken
  | loaded (result : Except Fault Unit)
  -- keys and ticks are not answered
  | silence

namespace Machine

variable {ρ : Type} [Host ρ]

/-- The machine after a move. -/
def make (m : Machine ρ) : Move → Machine ρ
  | .load size data => m.tryLoad size data
  | .step => m.step.2
  | .key change => m.applyChange change
  | .tick => m.tick

/-- The machine after a row of moves. -/
def makeAll (m : Machine ρ) (moves : List Move) : Machine ρ :=
  moves.foldl make m

theorem makeAll_cons (m : Machine ρ) (move : Move) (moves : List Move) :
    m.makeAll (move :: moves) = (m.make move).makeAll moves := rfl

theorem makeAll_append (m : Machine ρ) (before after : List Move) :
    m.makeAll (before ++ after) = (m.makeAll before).makeAll after :=
  List.foldl_append

end Machine

/-! ## Polls taken apart -/

namespace Pacer

variable {ρ : Type} [Host ρ]

/-- What a deed of a pacer or a key is for the machine. -/
def Deed.move : Deed → Move
  | .tick => .tick
  | .instruction _ => .step
  -- the pacer skips when a step was blocked
  | .skip _ => .step
  | .key change => .key change

/-- The moves of a poll; the step that fails, if one does, is the last of them. -/
def pollMoves (p : Pacer) (m : Machine ρ) (now : Nat) : List Move :=
  (p.pollDeeds m now).map Deed.move ++
    match (p.poll m now).result with
    | .ok _ => []
    | .error _ => [.step]

theorem make_of_perform {start after : Pacer × Machine ρ} {deed : Deed}
    (h : perform start deed = some after) : start.2.make deed.move = after.2 := by
  obtain ⟨p, m⟩ := start
  cases deed with
  | tick =>
    cases h
    rfl
  | instruction cycle =>
    obtain ⟨-, -, rfl⟩ := perform_instruction h
    rfl
  | skip cycle =>
    obtain ⟨hwait, rfl⟩ := perform_skip h
    rw [Deed.move, Machine.make, Machine.step_of_isWaiting hwait]
  | key change =>
    cases h
    rfl

theorem makeAll_of_replay {start after : Pacer × Machine ρ} {journal : List Deed}
    (h : replay start journal = some after) :
    start.2.makeAll (journal.map Deed.move) = after.2 := by
  induction journal generalizing start with
  | nil =>
    cases h
    rfl
  | cons deed journal ih =>
    rw [replay, List.foldlM_cons] at h
    obtain ⟨next, hnext, hrest⟩ := Option.bind_eq_some_iff.1 h
    rw [List.map_cons, Machine.makeAll_cons, make_of_perform hnext]
    exact ih hrest

theorem makeAll_pollMoves (p : Pacer) (m : Machine ρ) (now : Nat) :
    m.makeAll (p.pollMoves m now) = (p.poll m now).machine := by
  have hdeeds : m.makeAll ((p.pollDeeds m now).map Deed.move) = (p.poll m now).machine :=
    makeAll_of_replay (replay_deeds _ _ p m 0 #[])
  have hsettled : Settled (p.target now) (p.quota now m.variant.timerMode) (p.poll m now) :=
    catchUp_settled 0 #[]
  rw [pollMoves, Machine.makeAll_append, hdeeds]
  cases hresult : (p.poll m now).result with
  | ok n => rfl
  | error fault =>
    -- the step that fails leaves the machine as it is
    have hfail := hsettled.failing fault hresult
    exact congrArg Prod.snd hfail

end Pacer

namespace Machine

variable {ρ : Type} [Host ρ]

/-! ## Histories taken apart -/

/-- The moves of one operation. -/
def movesOf (m : Machine ρ) : Operation → List Move
  | .load size data => [.load size data]
  | .step => [.step]
  | .key change => [.key change]
  | .tick => [.tick]
  | .poll p now => p.pollMoves m now

/-- The moves of a history. -/
def moves (m : Machine ρ) : List Operation → List Move
  | [] => []
  | op :: ops => m.movesOf op ++ (m.undergo op).moves ops

theorem makeAll_movesOf (m : Machine ρ) (op : Operation) :
    m.makeAll (m.movesOf op) = m.undergo op := by
  cases op with
  | poll p now => exact p.makeAll_pollMoves m now
  | _ => rfl

/-- The moves of a history lead where it leads. -/
theorem makeAll_moves (m : Machine ρ) (ops : List Operation) :
    m.makeAll (m.moves ops) = m.undergoAll ops := by
  induction ops generalizing m with
  | nil => rfl
  | cons op ops ih =>
    rw [moves, makeAll_append, makeAll_movesOf, ih]
    rfl

/-- A row of moves, each with the machine that makes it. -/
def along (m : Machine ρ) : List Move → List (Machine ρ × Move)
  | [] => []
  | move :: moves => (m, move) :: (m.make move).along moves

/-- The moves of a history, each with the machine that makes it. -/
def course (m : Machine ρ) (ops : List Operation) : List (Machine ρ × Move) :=
  m.along (m.moves ops)

/-- What every move keeps in balance, a row of moves does: where each one adds to a quantity if it
gains and takes from it if it loses, gains and losses along the row differ by what there is of the
quantity before and after it. -/
theorem along_balance {quantity : Machine ρ → Nat} {gains loses : Machine ρ → Move → Bool}
    (h : ∀ m move, (gains m move).toNat + quantity m
      = (loses m move).toNat + quantity (m.make move)) (m : Machine ρ) (moves : List Move) :
    (m.along moves).countP (fun c => gains c.1 c.2) + quantity m
      = (m.along moves).countP (fun c => loses c.1 c.2) + quantity (m.makeAll moves) := by
  induction moves generalizing m with
  | nil => rfl
  | cons move moves ih =>
    have hfirst := h m move
    have hrest := ih (m.make move)
    have hcount : ∀ b : Bool, (if b then 1 else 0) = b.toNat := by decide
    simp only [along, List.countP_cons, makeAll_cons, hcount]
    omega

/-! ## What a move answers and executes -/

/-- The answer to a move. -/
def answer (m : Machine ρ) : Move → Answer
  | .load size data => .loaded ((m.loadDeclared size data).map fun _ => ())
  | .step => .stepped m.step.1
  | .key _ | .tick => .silence

/-- The answers to a row of moves. -/
def answers (m : Machine ρ) (moves : List Move) : List Answer :=
  (m.along moves).map fun c => c.1.answer c.2

theorem answers_cons (m : Machine ρ) (move : Move) (moves : List Move) :
    m.answers (move :: moves) = m.answer move :: (m.make move).answers moves := rfl

/-- The instruction that a move executes, if it executes one. -/
def executed? (m : Machine ρ) : Move → Option Instruction
  | .step =>
    match m.step.1, m.fetch with
    | .ran, .ok instr => some instr
    | _, _ => none
  | _ => none

/-- A step executes an instruction and retires it, or it executes none and changes nothing. -/
theorem make_step_cases (m : Machine ρ) :
    (∃ instr after, m.executed? .step = some instr ∧ m.pending = none ∧ m.fetch = .ok instr ∧
        m.run instr = .done after ∧ m.make .step = after.retire) ∨
      (m.executed? .step = none ∧ m.make .step = m) := by
  have hcase := step_case m
  rw [executed?, make]
  generalize m.step.1 = outcome, m.step.2 = m' at hcase
  cases hcase with
  | executes instr after pending fetch run =>
    exact Or.inl ⟨instr, after, by rw [fetch], pending, fetch, run, rfl⟩
  | _ => exact Or.inr ⟨rfl, rfl⟩

/-- A step obeys the instruction that it executes. -/
theorem obeys_of_executed? {m : Machine ρ} {instr : Instruction}
    (h : m.executed? .step = some instr) : m.Obeys instr m.step.2 := by
  rcases m.make_step_cases with ⟨instr', after, hexec, hpending, hfetch, hrun, -⟩ | ⟨hnone, -⟩
  · obtain rfl : instr' = instr := Option.some.inj (hexec.symm.trans h)
    have hran : m.step.1 = .ran := by
      rw [(StepCase.executes instr' after hpending hfetch hrun).step_eq]
    exact .inStep hfetch (Prod.ext hran rfl)
  · rw [hnone] at h
    cases h

end Machine

end Chip8
