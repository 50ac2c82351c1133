import Chip8.Machine.Input
import Chip8.Proofs.Decode

/-!
# Chip8 — what a step can do

A step goes one of five ways: the machine waits for a key, the word at the program counter is no
instruction, a call finds no room, a return finds no call, or the instruction is executed. Only the
last one changes the machine.

Main statements:

* `execute_refused` — a refused instruction is a return without a call or a call without room, and
  it changed nothing;
* `StepCase`, `step_cases` and `StepCase.step_eq` — the five ways, each with all that it says about
  the machine;
* `step_eq_self` — a step that executes nothing leaves the machine as it was;
* `does_of_execute` — an instruction that takes effect by itself takes effect in a step.
-/

namespace Chip8.Machine

variable {ρ : Type} [Host ρ]

/-! ## One instruction -/

/-- Why an instruction is refused: there is nowhere to return to, or no room for a return address.
The machine is left alone either way. -/
theorem execute_refused {instr : Instruction} {fault : Fault} {m after : Machine ρ}
    (h : execute instr m = .refused fault after) :
    after = m ∧
      ((instr = .ret ∧ m.stack = [] ∧ fault = .stackUnderflow (previousAddress m.pc)) ∨
        (∃ nnn, instr = .call nnn) ∧ stackLimit ≤ m.stack.length ∧
          fault = .stackOverflow (previousAddress m.pc)) := by
  cases instr with
  | ret =>
    rw [execute] at h
    split at h
    · rename_i hstack
      cases h
      exact ⟨rfl, Or.inl ⟨rfl, hstack, rfl⟩⟩
    · cases h
  | call nnn =>
    rw [execute] at h
    split at h
    · cases h
    · rename_i hfull
      cases h
      exact ⟨rfl, Or.inr ⟨⟨nnn, rfl⟩, Nat.not_lt.1 hfull, rfl⟩⟩
  | _ => cases h

/-- An executed return took the latest return address, and goes on there. -/
theorem done_ret {m after : Machine ρ} (h : execute .ret m = .done after) :
    ∃ address rest, m.stack = address :: rest ∧
      after = { m with stack := rest, pc := address } := by
  rw [execute] at h
  split at h
  · cases h
  · rename_i address rest hstack
    cases h
    exact ⟨address, rest, hstack, rfl⟩

/-- An executed call found room for the return address, and goes on where it says. -/
theorem done_call {nnn : UInt16} {m after : Machine ρ} (h : execute (.call nnn) m = .done after) :
    m.stack.length < stackLimit ∧ after = { m with stack := m.pc :: m.stack, pc := nnn } := by
  rw [execute] at h
  split at h
  · rename_i hroom
    cases h
    exact ⟨hroom, rfl⟩
  · cases h

omit [Host ρ] in
/-- A skip moves the program counter, and nothing else. -/
theorem skipIf_frame (m : Machine ρ) (condition : Bool) :
    m.skipIf condition = { m with pc := (m.skipIf condition).pc } := by
  unfold skipIf
  split <;> rfl

/-- No instruction reaches the variant, the keypad, the count of instructions or the note that a
program was loaded. -/
theorem execute_frame {instr : Instruction} {m after : Machine ρ}
    (h : execute instr m = .done after) :
    after.variant = m.variant ∧ after.keys = m.keys ∧ after.cycles = m.cycles ∧
      after.loaded = m.loaded := by
  cases instr with
  | ret =>
    obtain ⟨address, rest, -, rfl⟩ := done_ret h
    exact ⟨rfl, rfl, rfl, rfl⟩
  | call nnn =>
    obtain ⟨-, rfl⟩ := done_call h
    exact ⟨rfl, rfl, rfl, rfl⟩
  | skipIfByte | skipUnlessByte | skipIfSame | skipIfDiffer | skipIfKey | skipByKey =>
    cases h
    rw [skipIf_frame]
    exact ⟨rfl, rfl, rfl, rfl⟩
  | _ =>
    cases h
    exact ⟨rfl, rfl, rfl, rfl⟩

/-- Two instructions reach the host, one of them with the sound timer; the others leave both as they
are. -/
theorem execute_host {instr : Instruction} {m after : Machine ρ} (h : execute instr m = .done after)
    (hrandom : ∀ x nn, instr ≠ .random x nn) (hsound : ∀ x, instr ≠ .setSound x) :
    after.host = m.host ∧ after.sound = m.sound := by
  cases instr with
  | ret =>
    obtain ⟨address, rest, -, rfl⟩ := done_ret h
    exact ⟨rfl, rfl⟩
  | call nnn =>
    obtain ⟨-, rfl⟩ := done_call h
    exact ⟨rfl, rfl⟩
  | random x nn => exact absurd rfl (hrandom x nn)
  | setSound x => exact absurd rfl (hsound x)
  | skipIfByte | skipUnlessByte | skipIfSame | skipIfDiffer | skipIfKey | skipByKey =>
    cases h
    rw [skipIf_frame]
    exact ⟨rfl, rfl⟩
  | _ =>
    cases h
    exact ⟨rfl, rfl⟩

/-- An executed call found room on the stack, and an executed return an address. -/
theorem execute_possible {instr : Instruction} {m after : Machine ρ}
    (h : execute instr m = .done after) :
    (∀ nnn, instr = .call nnn → m.stack.length < stackLimit) ∧ (instr = .ret → m.stack ≠ []) := by
  constructor
  · rintro nnn rfl
    exact (done_call h).1
  · rintro rfl hempty
    obtain ⟨address, rest, hstack, -⟩ := done_ret h
    rw [hempty] at hstack
    cases hstack

/-! ## One step -/

/-- The ways from a machine to the outcome of its step and the machine after it. -/
inductive StepCase (m : Machine ρ) : Outcome → Machine ρ → Prop where
  -- the machine waits for a key
  | waits (x : UInt8) (pending : m.pending = some x) : StepCase m .blocked m
  -- the word at the program counter is no instruction
  | unknown (pending : m.pending = none)
      (fetch : m.fetch = .error (.unknownOpcode (m.memory.word m.pc))) :
      StepCase m (.failed (.unknownOpcode (m.memory.word m.pc))) m
  -- the instruction is a call that finds the stack full
  | overflows (nnn : UInt16) (pending : m.pending = none) (fetch : m.fetch = .ok (.call nnn))
      (full : stackLimit ≤ m.stack.length) :
      StepCase m (.failed (.stackOverflow (previousAddress (nextAddress m.pc)))) m
  -- the instruction is a return that finds the stack empty
  | underflows (pending : m.pending = none) (fetch : m.fetch = .ok .ret) (empty : m.stack = []) :
      StepCase m (.failed (.stackUnderflow (previousAddress (nextAddress m.pc)))) m
  -- the instruction is executed
  | executes (instr : Instruction) (after : Machine ρ) (pending : m.pending = none)
      (fetch : m.fetch = .ok instr) (run : m.run instr = .done after) :
      StepCase m .ran after.retire

/-- Every step goes one of these ways. -/
theorem step_cases {m m' : Machine ρ} {outcome : Outcome} (h : m.step = (outcome, m')) :
    StepCase m outcome m' := by
  rw [step, isWaiting] at h
  cases hp : m.pending with
  | some x =>
    rw [hp] at h
    cases h
    exact .waits x hp
  | none =>
    rw [hp] at h
    cases hf : m.fetch with
    | error fault =>
      obtain rfl := Instruction.decode_error hf
      rw [hf] at h
      cases h
      exact .unknown hp hf
    | ok instr =>
      rw [hf] at h
      cases hr : m.run instr with
      | refused fault after =>
        simp only [hr] at h
        cases h
        -- the refused machine differs from the one before in its program counter only
        obtain ⟨rfl, ⟨rfl, hempty, rfl⟩ | ⟨⟨nnn, rfl⟩, hfull, rfl⟩⟩ := execute_refused hr
        · exact .underflows hp hf hempty
        · exact .overflows nnn hp hf hfull
      | done after =>
        simp only [hr] at h
        cases h
        exact .executes instr after hp hf hr

/-- Every machine has a way to step. -/
theorem step_case (m : Machine ρ) : StepCase m m.step.1 m.step.2 :=
  step_cases rfl

/-- A machine that waits for a key stays as it is. -/
theorem step_of_isWaiting {m : Machine ρ} (h : m.isWaiting = true) : m.step = (.blocked, m) := by
  rw [step, if_pos h]

/-- The way from a machine says how it steps. -/
theorem StepCase.step_eq {m m' : Machine ρ} {outcome : Outcome} (h : StepCase m outcome m') :
    m.step = (outcome, m') := by
  cases h with
  | waits x pending =>
    have hwait : m.isWaiting = true := by rw [isWaiting, pending, Option.isSome_some]
    exact step_of_isWaiting hwait
  | unknown pending fetch =>
    rw [step, isWaiting, pending, fetch]
    rfl
  | overflows nnn pending fetch full =>
    have hrun : m.run (.call nnn) = .refused (.stackOverflow (previousAddress (nextAddress m.pc)))
        { m with pc := nextAddress m.pc } := by
      rw [run, execute, if_neg (Nat.not_lt.2 full)]
    rw [step, isWaiting, pending, fetch]
    simp [hrun]
  | underflows pending fetch empty =>
    have hrun : m.run .ret = .refused (.stackUnderflow (previousAddress (nextAddress m.pc)))
        { m with pc := nextAddress m.pc } := by
      rw [run, execute, empty]
    rw [step, isWaiting, pending, fetch]
    simp [hrun]
  | executes instr after pending fetch run =>
    rw [step, isWaiting, pending, fetch]
    simp [run]

/-- Only a machine that waits for a key is blocked. -/
theorem isWaiting_of_step {m m' : Machine ρ} (h : m.step = (.blocked, m')) :
    m.isWaiting = true := by
  cases step_cases h with
  | waits x pending => rw [isWaiting, pending, Option.isSome_some]

/-- A step that executes nothing changes nothing. -/
theorem step_eq_self {m m' : Machine ρ} {outcome : Outcome} (h : m.step = (outcome, m'))
    (hran : outcome ≠ .ran) : m' = m := by
  cases step_cases h with
  | executes => exact absurd rfl hran
  | _ => rfl

/-! ## What steps, ticks and keys leave alone -/

@[simp] theorem tick_pending (m : Machine ρ) : m.tick.pending = m.pending := rfl

/-- Besides the count of instructions, only the timers and the host can tell that an instruction was
retired. -/
theorem retire_frame (m : Machine ρ) : m.retire
    = { m with
        delay := m.retire.delay
        sound := m.retire.sound
        host := m.retire.host
        cycles := m.cycles + 1 } := by
  unfold retire
  split <;> rfl

@[simp] theorem retire_variant (m : Machine ρ) : m.retire.variant = m.variant :=
  (congrArg Machine.variant m.retire_frame :)

@[simp] theorem retire_cycles (m : Machine ρ) : m.retire.cycles = m.cycles + 1 :=
  (congrArg Machine.cycles m.retire_frame :)

@[simp] theorem step_variant (m : Machine ρ) : m.step.2.variant = m.variant := by
  cases hs : m.step with
  | mk outcome m' =>
    cases step_cases hs with
    | executes instr after _ _ run =>
      rw [retire_variant, (execute_frame run).1]
    | _ => rfl

omit [Host ρ] in
/-- A change of a key reaches the keypad, and the registers if one of them waits. -/
theorem applyChange_frame (m : Machine ρ) (change : KeyChange) : m.applyChange change
    = { m with
        v := (m.applyChange change).v
        keys := (m.applyChange change).keys
        pending := (m.applyChange change).pending } := by
  cases change with
  | press key =>
    rw [applyChange, press]
    split <;> rfl
  | release key =>
    rw [applyChange, release]
    split <;> rfl

omit [Host ρ] in
@[simp] theorem applyChange_variant (m : Machine ρ) (change : KeyChange) :
    (m.applyChange change).variant = m.variant :=
  (congrArg Machine.variant (m.applyChange_frame change) :)

omit [Host ρ] in
@[simp] theorem applyChange_cycles (m : Machine ρ) (change : KeyChange) :
    (m.applyChange change).cycles = m.cycles :=
  (congrArg Machine.cycles (m.applyChange_frame change) :)

/-! ## Instructions by themselves and in steps -/

/-- The second machine is what an instruction makes of the first, executed by itself or in a step
that fetches it. -/
inductive Obeys (m : Machine ρ) (instr : Instruction) : Machine ρ → Prop where
  | alone {after : Machine ρ} (done : execute instr m = .done after) : Obeys m instr after
  | inStep {after : Machine ρ} (fetch : m.fetch = .ok instr) (step : m.step = (.ran, after)) :
      Obeys m instr after

/-- The instruction takes effect, by itself and in every step that fetches it. -/
structure Does (m : Machine ρ) (instr : Instruction) (effect : Machine ρ → Prop) : Prop where
  alone : ∃ after, execute instr m = .done after
  -- unless a key is awaited, a step that fetches the instruction runs
  inStep : m.pending = none → m.fetch = .ok instr → m.step.1 = .ran
  effect : ∀ after, m.Obeys instr after → effect after

theorem Does.mono {m : Machine ρ} {instr : Instruction} {effect weaker : Machine ρ → Prop}
    (h : m.Does instr effect) (hweaker : ∀ after, effect after → weaker after) :
    m.Does instr weaker :=
  { h with effect := fun after hobeys => hweaker after (h.effect after hobeys) }

/-- A machine that waits for no key takes the effect of the instruction that it fetches. -/
theorem Does.step {m : Machine ρ} {instr : Instruction} {effect : Machine ρ → Prop}
    (h : m.Does instr effect) (hpending : m.pending = none) (hfetch : m.fetch = .ok instr) :
    m.step.1 = .ran ∧ effect m.step.2 := by
  have hran := h.inStep hpending hfetch
  exact ⟨hran, h.effect m.step.2 (.inStep hfetch (Prod.ext hran rfl))⟩

/-- What is left of an instruction is what its execution leaves at some program counter, and after a
step the instruction is retired as well. -/
theorem Obeys.execute {m after : Machine ρ} {instr : Instruction} (h : m.Obeys instr after) :
    ∃ pc done, execute instr { m with pc } = .done done ∧ (after = done ∨ after = done.retire) := by
  cases h with
  | alone done => exact ⟨m.pc, after, done, Or.inl rfl⟩
  | inStep fetch step =>
    cases step_cases step with
    | executes instr' done pending fetch' run =>
      obtain rfl : instr' = instr := Except.ok.inj (fetch'.symm.trans fetch)
      exact ⟨nextAddress m.pc, done, run, Or.inr rfl⟩

/-- An instruction takes effect if its execution does so wherever the program counter is, and if
retiring it leaves the effect as it is. -/
theorem does_of_execute {m : Machine ρ} {instr : Instruction} {effect : Machine ρ → Prop}
    (hdone : ∀ pc, ∃ done, execute instr { m with pc } = .done done ∧ effect done)
    (hretire : ∀ done : Machine ρ, effect done → effect done.retire) : m.Does instr effect where
  alone := by
    obtain ⟨done, hexec, -⟩ := hdone m.pc
    exact ⟨done, hexec⟩
  inStep := by
    intro hpending hfetch
    obtain ⟨done, hexec, -⟩ := hdone (nextAddress m.pc)
    rw [(StepCase.executes instr done hpending hfetch hexec).step_eq]
  effect := by
    intro after hobeys
    obtain ⟨pc, done, hexec, hafter⟩ := hobeys.execute
    obtain ⟨done', hexec', heffect⟩ := hdone pc
    obtain rfl : done' = done := Executed.done.inj (hexec'.symm.trans hexec)
    rcases hafter with rfl | rfl
    · exact heffect
    · exact hretire done' heffect

end Chip8.Machine
