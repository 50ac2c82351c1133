import Chip8.Proofs.Moves
import Chip8.Proofs.Program

/-!
# Chip8 — the life of a machine up to its program

A machine without a program does nothing. The word at its origin is zero, which is no instruction,
so every step fails and changes nothing; its timers rest, so ticks change nothing; only its keys go
up and down. A program that declares more than fits is refused, and the machine stays as it is. The
first program that declares no more is taken. From then on the machine was used, and every other
program is refused for that, whatever it declares.

Main statements:

* `makeAll_unloaded` — without a program that fits, a machine stays new but for its keys;
* `loaded_makeAll` — once it has one, it is used from then on;
* `load_lifecycle` — what becomes of every load in a history, and of the machine.
-/

namespace Chip8

/-- The size that a program declares which a move loads. -/
def Move.declared? : Move → Option Nat
  | .load size _ => some size
  | _ => none

/-- The answer to a load. -/
def Answer.load? : Answer → Option (Except Fault Unit)
  | .loaded result => some result
  | _ => none

/-- What is answered when programs that declare these sizes are loaded one after the other. -/
def loadAnswers : List Nat → List (Except Fault Unit)
  | [] => []
  | size :: sizes =>
    if size ≤ programSpace then .ok () :: sizes.map fun _ => .error .notInitial
    else .error (.programTooLarge (size - programSpace)) :: loadAnswers sizes

namespace Machine

variable {ρ : Type}

/-! ## Machines without a program -/

/-- A new machine but for its keys. -/
def unloaded (variant : Variant) (host : ρ) (keys : Keypad) : Machine ρ :=
  { initial variant host with keys }

/-- The machine as it is when a program was loaded into another one. -/
structure HoldsProgram (before after : Machine ρ) (program : List UInt8) : Prop where
  -- the font, zeros up to the origin, the program, and zeros up to the end
  memory : after.memory.cells.toList = Memory.image program
  -- nothing else changed
  others : after = { before with memory := after.memory, loaded := true }

variable (variant : Variant) (host : ρ) (keys : Keypad)

theorem isInitial_unloaded : (unloaded variant host keys).isInitial = true := rfl

theorem loadDeclared_unloaded (size : Nat) (data : List UInt8) :
    (unloaded variant host keys).loadDeclared size data
      = if size ≤ programSpace then
          .ok { unloaded variant host keys with
            memory := Memory.initial.loadProgram data, loaded := true }
        else .error (.programTooLarge (size - programSpace)) := by
  rw [loadDeclared, isInitial_unloaded]
  by_cases hfits : size ≤ programSpace
  · rw [if_pos hfits, if_neg (by simp), if_neg (Nat.not_lt.2 hfits)]
    rfl
  · rw [if_neg hfits, if_neg (by simp), if_pos (Nat.lt_of_not_le hfits)]

theorem holdsProgram_unloaded {size : Nat} {data : List UInt8} (hfits : size ≤ programSpace)
    (hlength : data.length ≤ size) :
    ∃ after, (unloaded variant host keys).loadDeclared size data = .ok after ∧
      HoldsProgram (unloaded variant host keys) after data := by
  refine ⟨_, (loadDeclared_unloaded variant host keys size data).trans (if_pos hfits), ?_, rfl⟩
  exact Memory.toList_loadProgram (Nat.le_trans hlength hfits)

theorem applyChange_unloaded (change : KeyChange) :
    ∃ keys', (unloaded variant host keys).applyChange change = unloaded variant host keys' := by
  cases change with
  | press key =>
    rw [applyChange, press]
    split
    · exact ⟨keys.put key true, rfl⟩
    · exact ⟨keys, rfl⟩
  | release key =>
    rw [applyChange, release]
    split
    · exact ⟨keys.put key false, rfl⟩
    · exact ⟨keys, rfl⟩

variable [Host ρ]

theorem step_unloaded : (unloaded variant host keys).step
    = (.failed (.unknownOpcode 0), unloaded variant host keys) := by
  have hword : Memory.initial.word programOrigin = 0 := by decide +kernel
  have hfetch : (unloaded variant host keys).fetch = .error (.unknownOpcode 0) := by
    show Instruction.decode (Memory.initial.word programOrigin) = _
    rw [hword]
    rfl
  have hpending : (unloaded variant host keys).isWaiting = false := rfl
  rw [step, hpending, hfetch]
  rfl

theorem tick_unloaded : (unloaded variant host keys).tick = unloaded variant host keys := rfl

/-! ## Machines with a program -/

omit [Host ρ] in
theorem loadDeclared_loaded {m : Machine ρ} (h : m.loaded = true) (size : Nat)
    (data : List UInt8) : m.loadDeclared size data = .error .notInitial := by
  have hused : m.isInitial = false := by simp [isInitial, h]
  exact loadDeclared_of_used hused size data

theorem loaded_make {m : Machine ρ} (h : m.loaded = true) (move : Move) :
    (m.make move).loaded = true := by
  cases move with
  | load size data =>
    rw [make, tryLoad, loadDeclared_loaded h]
    exact h
  | step =>
    rcases m.make_step_cases with ⟨instr, after, -, -, -, hrun, hmake⟩ | ⟨-, hmake⟩
    · have hafter : after.loaded = m.loaded := (execute_frame hrun).2.2.2
      have hretire : after.retire.loaded = after.loaded :=
        (congrArg Machine.loaded after.retire_frame :)
      rw [hmake, hretire, hafter, h]
    · rw [hmake, h]
  | key change =>
    have hkey : (m.applyChange change).loaded = m.loaded :=
      (congrArg Machine.loaded (m.applyChange_frame change) :)
    rw [make, hkey, h]
  | tick => exact h

theorem loaded_makeAll {m : Machine ρ} (h : m.loaded = true) (moves : List Move) :
    (m.makeAll moves).loaded = true := by
  induction moves generalizing m with
  | nil => exact h
  | cons move moves ih => exact ih (loaded_make h move)

theorem load?_answers_loaded {m : Machine ρ} (h : m.loaded = true) (moves : List Move) :
    (m.answers moves).filterMap Answer.load?
      = (moves.filterMap Move.declared?).map fun _ => .error .notInitial := by
  induction moves generalizing m with
  | nil => rfl
  | cons move moves ih =>
    have hrest := ih (loaded_make h move)
    rw [answers_cons, List.filterMap_cons, List.filterMap_cons, hrest]
    cases move with
    | load size data =>
      rw [answer, loadDeclared_loaded h]
      rfl
    | _ => rfl

/-! ## From the one to the other -/

/-- A move of an unloaded machine loads a program, or leaves the machine unloaded. -/
theorem make_unloaded (move : Move) :
    ((unloaded variant host keys).answer move = .loaded (.ok ()) ∧
        ((unloaded variant host keys).make move).loaded = true) ∨
      ((unloaded variant host keys).answer move ≠ .loaded (.ok ()) ∧
        ∃ keys', (unloaded variant host keys).make move = unloaded variant host keys') := by
  cases move with
  | load size data =>
    rw [answer, make, tryLoad, loadDeclared_unloaded]
    split
    · exact Or.inl ⟨rfl, rfl⟩
    · exact Or.inr ⟨by simp [Except.map], keys, rfl⟩
  | step =>
    exact Or.inr ⟨by simp [answer], keys, congrArg Prod.snd (step_unloaded variant host keys)⟩
  | key change => exact Or.inr ⟨by simp [answer], applyChange_unloaded variant host keys change⟩
  | tick => exact Or.inr ⟨by simp [answer], keys, tick_unloaded variant host keys⟩

theorem makeAll_unloaded (moves : List Move) :
    (.loaded (.ok ()) ∈ (unloaded variant host keys).answers moves ∧
        ((unloaded variant host keys).makeAll moves).loaded = true) ∨
      (.loaded (.ok ()) ∉ (unloaded variant host keys).answers moves ∧
        ∃ keys', (unloaded variant host keys).makeAll moves = unloaded variant host keys') := by
  induction moves generalizing keys with
  | nil => exact Or.inr ⟨List.not_mem_nil, keys, rfl⟩
  | cons move moves ih =>
    rw [makeAll_cons, answers_cons, List.mem_cons]
    rcases make_unloaded variant host keys move with ⟨hok, hloaded⟩ | ⟨hnot, keys', hmake⟩
    · exact Or.inl ⟨Or.inl hok.symm, loaded_makeAll hloaded moves⟩
    · rw [hmake]
      rcases ih keys' with ⟨hok, hloaded⟩ | ⟨hnone, hnew⟩
      · exact Or.inl ⟨Or.inr hok, hloaded⟩
      · exact Or.inr ⟨fun hok => hok.elim (fun h => hnot h.symm) hnone, hnew⟩

theorem load?_answers_unloaded (moves : List Move) :
    ((unloaded variant host keys).answers moves).filterMap Answer.load?
      = loadAnswers (moves.filterMap Move.declared?) := by
  induction moves generalizing keys with
  | nil => rfl
  | cons move moves ih =>
    rw [answers_cons]
    cases move with
    | load size data =>
      have hload := loadDeclared_unloaded variant host keys size data
      by_cases hfits : size ≤ programSpace
      · rw [if_pos hfits] at hload
        have hrest := load?_answers_loaded
          (m := (unloaded variant host keys).make (.load size data))
          (by rw [make, tryLoad, hload]) moves
        simp [answer, hload, Answer.load?, Except.map, hrest, Move.declared?, loadAnswers, hfits]
      · rw [if_neg hfits] at hload
        have hmake : (unloaded variant host keys).make (.load size data)
            = unloaded variant host keys := by
          rw [make, tryLoad, hload]
        simp [answer, hload, Answer.load?, Except.map, hmake, ih keys, Move.declared?, loadAnswers,
          hfits]
    | step =>
      have hmake : (unloaded variant host keys).make .step = unloaded variant host keys :=
        congrArg Prod.snd (step_unloaded variant host keys)
      rw [hmake]
      exact ih keys
    | key change =>
      obtain ⟨keys', hmake⟩ := applyChange_unloaded variant host keys change
      rw [make, hmake]
      exact ih keys'
    | tick => exact ih keys

/-! ## Every history -/

/-- A program that is refused changes nothing. -/
theorem make_of_refused {m : Machine ρ} {move : Move} {fault : Fault}
    (h : m.answer move = .loaded (.error fault)) : m.make move = m := by
  cases move with
  | load size data =>
    cases hload : m.loadDeclared size data with
    | ok after =>
      simp only [answer, hload] at h
      cases h
    | error fault' => simp only [make, tryLoad, hload]
  | _ => cases h

/-- **The life of a machine up to its program.** In every history of a new machine, programs that do
not fit are refused for their size until the first that fits is taken, and from then on every
program is refused because the machine was used; a program that is refused changes nothing. The
machine is in its initial state just as long as no program was taken. Until then it is a new machine
but for its keys, its steps fail with the word zero, and a program that is loaded into it lies in
memory byte by byte from the origin on, between the font and zeros. -/
theorem load_lifecycle (variant : Variant) (host : ρ) (ops : List Operation) :
    let new := initial variant host
    let m := reached variant host ops
    let answers := new.answers (new.moves ops)
    answers.filterMap Answer.load? = loadAnswers ((new.moves ops).filterMap Move.declared?) ∧
    (∀ c ∈ new.course ops, ∀ fault, c.1.answer c.2 = .loaded (.error fault) →
      c.1.make c.2 = c.1) ∧
    (m.isInitial = true ↔ .loaded (.ok ()) ∉ answers) ∧
    (m.isInitial = true →
      m = { new with keys := m.keys } ∧
      m.step = (.failed (.unknownOpcode 0), m) ∧
      (∀ program, program.length ≤ programSpace →
        ∃ after, m.load program = .ok after ∧ HoldsProgram m after program) ∧
      ∀ rom : Rom, rom.IsMade → rom.size ≤ programSpace →
        ∃ after, m.loadRom rom = .ok after ∧ HoldsProgram m after rom.data) := by
  intro new m answers
  have hlast : new.makeAll (new.moves ops) = m := makeAll_moves new ops
  have hcases : (.loaded (.ok ()) ∈ answers ∧ m.loaded = true) ∨
      (.loaded (.ok ()) ∉ answers ∧ ∃ keys, m = unloaded variant host keys) :=
    hlast ▸ makeAll_unloaded variant host .allUp (new.moves ops)
  refine ⟨load?_answers_unloaded variant host .allUp _, ?_, ?_, ?_⟩
  · intro c _ fault hfault
    exact make_of_refused hfault
  · rcases hcases with ⟨htaken, hloaded⟩ | ⟨hnone, keys, hm⟩
    · simp [isInitial, hloaded, htaken]
    · rw [hm]
      exact iff_of_true rfl hnone
  · intro hinitial
    rcases hcases with ⟨-, hloaded⟩ | ⟨-, keys, hm⟩
    · simp [isInitial, hloaded] at hinitial
    · rw [hm]
      refine ⟨rfl, step_unloaded variant host keys, ?_, ?_⟩
      · intro program hfits
        exact holdsProgram_unloaded variant host keys hfits (Nat.le_refl _)
      · intro rom hmade hfits
        exact holdsProgram_unloaded variant host keys hfits hmade.length_data_le

/-- Two programs that are too large, the larger one first, and a key that stays down; then a short
image, and an empty program that comes too late. -/
theorem load_lifecycle_second_choice :
    let new := initial {} (SilentHost.mk 0)
    let ops : List Operation := [.load 4000 [1], .step, .key (.press 3), .load 3585 [], .tick]
    let later := ops ++ [.load 2 [0x12, 0x00], .step, .load 0 []]
    let m := reached {} (SilentHost.mk 0) ops
    let rom : Rom := .ofBytes "short" [0x12, 0x00]
    (new.answers (new.moves later)).filterMap Answer.load?
        = [.error (.programTooLarge 416), .error (.programTooLarge 1), .ok (),
            .error .notInitial] ∧
      m.isInitial = true ∧ m.step = (.failed (.unknownOpcode 0), m) ∧ rom.IsMade ∧
      rom.size ≤ programSpace ∧
      ∃ after, m.loadRom rom = .ok after ∧ HoldsProgram m after [0x12, 0x00] := by
  intro new ops later m rom
  obtain ⟨hanswers, -, -, -⟩ := load_lifecycle {} (SilentHost.mk 0) later
  obtain ⟨-, -, -, hwhile⟩ := load_lifecycle {} (SilentHost.mk 0) ops
  have hinitial : m.isInitial = true := by decide +kernel
  have hmade : rom.IsMade := .ofBytes "short" [0x12, 0x00]
  have hfits : rom.size ≤ programSpace := by decide
  obtain ⟨-, hstep, -, hroms⟩ := hwhile hinitial
  exact ⟨hanswers, hinitial, hstep, hmade, hfits, hroms rom hmade hfits⟩

end Machine

end Chip8
