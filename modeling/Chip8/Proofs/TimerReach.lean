import Chip8.Host.Seeded
import Chip8.Proofs.Moves

/-!
# Chip8 — what the timers reach

One instruction reads the delay timer, and the host hears the sound timer; nothing else asks for
either of them, nor for what makes them count down. So two machines that differ in their timers go
alike until that instruction is executed, however often each of them is ticked, provided that what
a host hears of sound does not change the random bytes that it hands out.

Two such machines are compared by what is left of them without their timers.

Main statements:

* `execute_untimed`, `step_untimed` — an instruction and a step of two such machines go alike;
* `untimed_tick` — a tick leaves nothing behind but timers and sound;
* `timers_unobservable` — two such machines go alike through any row of moves, whatever ticks are
  put in between.
-/

namespace Chip8

variable {ρ γ : Type} [Host ρ] (r : RandomSource ρ γ)

/-! ## Machines without their timers -/

namespace Machine

/-- What is left of a machine without its timers: they rest and the clock drives them, and of the
host there is the source of its random bytes. -/
def untimed (m : Machine ρ) : Machine γ :=
  { m with
    variant := { m.variant with timerMode := .fixed60Hz }
    host := r.source m.host
    delay := 0
    sound := 0 }

end Machine

/-- What is left of the outcome of an instruction without the timers. -/
def Executed.untimed : Executed ρ → Executed γ
  | .done after => .done (after.untimed r)
  | .refused fault after => .refused fault (after.untimed r)

namespace Machine

variable {r} {m m' : Machine ρ}

/-- Machines agree without their timers when they agree but for these, and their hosts in the
source of random bytes. -/
theorem untimed_eq_iff : m'.untimed r = m.untimed r ↔
    m' = { m with
        variant := { m.variant with timerMode := m'.variant.timerMode }
        delay := m'.delay
        sound := m'.sound
        host := m'.host } ∧
      r.source m'.host = r.source m.host := by
  constructor
  · intro h
    -- what is left of the one, with the timers and the host of the other, is the other
    let restored (u : Machine γ) : Machine ρ :=
      { u with
        variant := { u.variant with timerMode := m'.variant.timerMode }
        host := m'.host
        delay := m'.delay
        sound := m'.sound }
    exact ⟨congrArg restored h, congrArg Machine.host h⟩
  · rintro ⟨hothers, hsource⟩
    rw [hothers]
    simp only [untimed, hsource]

/-- A tick leaves nothing behind but timers and sound. -/
theorem untimed_tick (m : Machine ρ) : m.tick.untimed r = m.untimed r := by
  have hsource : r.source m.tick.host = r.source m.host := by
    rw [tick]
    split
    · exact r.soundOff m.host
    · rfl
  exact untimed_eq_iff.2 ⟨rfl, hsource⟩

/-- What is left after an instruction was retired is its count. -/
theorem untimed_retire (m : Machine ρ) :
    m.retire.untimed r = { m.untimed r with cycles := (m.untimed r).cycles + 1 } := by
  unfold retire
  split
  · exact untimed_tick { m with cycles := m.cycles + 1 }
  · rfl

/-- The host alone hears of a new value of the sound timer. -/
theorem untimed_setSound (m : Machine ρ) (value : UInt8) :
    (m.setSound value).untimed r = m.untimed r := by
  have hsource : r.source (m.setSound value).host = r.source m.host := by
    rw [setSound]
    split
    · exact r.soundOn m.host
    · exact r.soundOff m.host
    · rfl
  exact untimed_eq_iff.2 ⟨rfl, hsource⟩

theorem untimed_skipIf (h : m'.untimed r = m.untimed r) (condition : Bool) :
    (m'.skipIf condition).untimed r = (m.skipIf condition).untimed r := by
  obtain ⟨hothers, hsource⟩ := untimed_eq_iff.1 h
  rw [hothers]
  unfold skipIf
  split <;> exact untimed_eq_iff.2 ⟨rfl, hsource⟩

/-! ## Instructions -/

/-- An instruction other than the one that reads the delay timer goes alike on machines that agree
without their timers. -/
theorem execute_untimed (h : m'.untimed r = m.untimed r) {instr : Instruction}
    (hdelay : ∀ x, instr ≠ .readDelay x) :
    (execute instr m').untimed r = (execute instr m).untimed r := by
  obtain ⟨hothers, hsource⟩ := untimed_eq_iff.1 h
  rw [hothers]
  generalize m'.variant.timerMode = mode, m'.delay = delay, m'.sound = sound, m'.host = host
    at hsource
  cases instr with
  | ret =>
    simp only [execute]
    split
    · exact congrArg (Executed.refused _) (untimed_eq_iff.2 ⟨rfl, hsource⟩)
    · exact congrArg Executed.done (untimed_eq_iff.2 ⟨rfl, hsource⟩)
  | call nnn =>
    simp only [execute]
    split
    · exact congrArg Executed.done (untimed_eq_iff.2 ⟨rfl, hsource⟩)
    · exact congrArg (Executed.refused _) (untimed_eq_iff.2 ⟨rfl, hsource⟩)
  | skipIfByte | skipUnlessByte | skipIfSame | skipIfDiffer | skipIfKey | skipByKey =>
    exact congrArg Executed.done (untimed_skipIf (untimed_eq_iff.2 ⟨rfl, hsource⟩) _)
  | random x nn =>
    -- both hosts draw from the same source
    have hdraw := r.nextByte host
    rw [hsource, r.nextByte m.host, Prod.mk.injEq] at hdraw
    obtain ⟨hbyte, hsource'⟩ := hdraw
    simp only [execute, hbyte]
    exact congrArg Executed.done (untimed_eq_iff.2 ⟨rfl, hsource'.symm⟩)
  | readDelay x => exact absurd rfl (hdelay x)
  | setSound x =>
    refine congrArg Executed.done ?_
    rw [untimed_setSound, untimed_setSound]
    exact untimed_eq_iff.2 ⟨rfl, hsource⟩
  | _ => exact congrArg Executed.done (untimed_eq_iff.2 ⟨rfl, hsource⟩)

/-! ## Steps -/

/-- A move executes the instruction that reads the delay timer. -/
def readsDelay (m : Machine ρ) (move : Move) : Bool :=
  match m.executed? move with
  | some (.readDelay _) => true
  | _ => false

/-- An instruction that is executed is the one at the program counter. -/
theorem executed?_of_run {instr : Instruction} {after : Machine ρ} (hpending : m.pending = none)
    (hfetch : m.fetch = .ok instr) (hrun : m.run instr = .done after) :
    m.executed? .step = some instr := by
  have hstep : m.step = (.ran, after.retire) :=
    (StepCase.executes instr after hpending hfetch hrun).step_eq
  rw [executed?, hstep, hfetch]

/-- The instruction at the program counter is told from memory and the counter. -/
theorem fetch_untimed (h : m'.untimed r = m.untimed r) : m'.fetch = m.fetch := by
  have hpc : m'.pc = m.pc := (congrArg Machine.pc h :)
  have hmemory : m'.memory = m.memory := (congrArg Machine.memory h :)
  rw [fetch, hmemory, hpc, fetch]

/-- Machines that agree without their timers step alike, and they agree in the same way after the
step unless it reads the delay timer. -/
theorem step_untimed (h : m'.untimed r = m.untimed r) :
    m'.step.1 = m.step.1 ∧
      (m.readsDelay .step = false → m'.step.2.untimed r = m.step.2.untimed r) := by
  have hpending : m'.pending = m.pending := (congrArg Machine.pending h :)
  have hpc : m'.pc = m.pc := (congrArg Machine.pc h :)
  rw [step, step, isWaiting, isWaiting, hpending, fetch_untimed h, hpc]
  cases hwait : m.pending with
  | some x => exact ⟨rfl, fun _ => h⟩
  | none =>
    cases hword : m.fetch with
    | error fault => exact ⟨rfl, fun _ => h⟩
    | ok instr =>
      simp only [Option.isSome_none, Bool.false_eq_true, if_false]
      by_cases hdelay : ∃ x, instr = .readDelay x
      · obtain ⟨x, rfl⟩ := hdelay
        have hexec : m.executed? .step = some (.readDelay x) := executed?_of_run hwait hword rfl
        refine ⟨rfl, fun hnot => ?_⟩
        simp [readsDelay, hexec] at hnot
      · have hrun : (m'.run instr).untimed r = (m.run instr).untimed r := by
          rw [run, run, hpc]
          have hmoved := congrArg (fun u : Machine γ => { u with pc := nextAddress m.pc }) h
          exact execute_untimed hmoved fun x hx => hdelay ⟨x, hx⟩
        generalize m.run instr = executed, m'.run instr = executed' at hrun
        cases executed with
        | done after =>
          cases executed' with
          | done after' =>
            obtain hafter := Executed.done.inj hrun
            refine ⟨rfl, fun _ => ?_⟩
            rw [untimed_retire, untimed_retire, hafter]
          | refused => cases hrun
        | refused fault after =>
          cases executed' with
          | done => cases hrun
          | refused fault' after' =>
            obtain ⟨rfl, hafter⟩ := Executed.refused.inj hrun
            exact ⟨rfl, fun _ => congrArg (fun u : Machine γ => { u with pc := m.pc }) hafter⟩

/-! ## Moves -/

theorem applyChange_untimed (m : Machine ρ) (change : KeyChange) :
    (m.applyChange change).untimed r = (m.untimed r).applyChange change := by
  cases change with
  | press key =>
    rw [applyChange, applyChange, press, press]
    split <;> rfl
  | release key =>
    rw [applyChange, applyChange, release, release]
    split <;> rfl

theorem loadDeclared_untimed (m : Machine ρ) (size : Nat) (data : List UInt8) :
    (m.untimed r).loadDeclared size data = (m.loadDeclared size data).map (untimed r) := by
  have hinitial : (m.untimed r).isInitial = m.isInitial := rfl
  rw [loadDeclared, loadDeclared, hinitial]
  split
  · rfl
  · split <;> rfl

theorem tryLoad_untimed (m : Machine ρ) (size : Nat) (data : List UInt8) :
    (m.tryLoad size data).untimed r = (m.untimed r).tryLoad size data := by
  rw [tryLoad, tryLoad, loadDeclared_untimed]
  cases m.loadDeclared size data <;> rfl

/-- Machines that agree without their timers answer a move alike, and they agree in the same way
after it unless it reads the delay timer, which it does in both or in none. -/
theorem make_untimed (h : m'.untimed r = m.untimed r) (move : Move) :
    m'.answer move = m.answer move ∧ m'.readsDelay move = m.readsDelay move ∧
      (m.readsDelay move = false → (m'.make move).untimed r = (m.make move).untimed r) := by
  cases move with
  | load size data =>
    have hanswer : ∀ m : Machine ρ, m.answer (.load size data)
        = .loaded (((m.untimed r).loadDeclared size data).map fun _ => ()) := by
      intro m
      rw [answer, loadDeclared_untimed]
      cases m.loadDeclared size data <;> rfl
    refine ⟨?_, rfl, fun _ => ?_⟩
    · rw [hanswer, hanswer, h]
    · rw [make, make, tryLoad_untimed, tryLoad_untimed, h]
  | step =>
    obtain ⟨hstep, hafter⟩ := step_untimed h
    have hexec : m'.executed? .step = m.executed? .step := by
      rw [executed?, executed?, hstep, fetch_untimed h]
    refine ⟨congrArg Answer.stepped hstep, ?_, hafter⟩
    rw [readsDelay, readsDelay, hexec]
  | key change =>
    refine ⟨rfl, rfl, fun _ => ?_⟩
    rw [make, make, applyChange_untimed, applyChange_untimed, h]
  | tick =>
    refine ⟨rfl, rfl, fun _ => ?_⟩
    rw [make, make, untimed_tick, untimed_tick, h]

/-! ## Rows of moves -/

/-- No move of a row reads the delay timer. -/
def NeverReadsDelay (m : Machine ρ) (moves : List Move) : Prop :=
  ∀ c ∈ m.along moves, c.1.readsDelay c.2 = false

instance (m : Machine ρ) (moves : List Move) : Decidable (m.NeverReadsDelay moves) :=
  inferInstanceAs (Decidable (∀ c ∈ _, _))

theorem neverReadsDelay_cons (m : Machine ρ) (move : Move) (moves : List Move) :
    m.NeverReadsDelay (move :: moves)
      ↔ m.readsDelay move = false ∧ (m.make move).NeverReadsDelay moves :=
  List.forall_mem_cons

/-- The answers to the moves of a row other than ticks. -/
def answersButTicks (m : Machine ρ) (moves : List Move) : List Answer :=
  ((m.along moves).filter fun c => c.2 ≠ .tick).map fun c => c.1.answer c.2

/-- The row of moves without its ticks. -/
def untick (moves : List Move) : List Move :=
  moves.filter (· ≠ .tick)

/-- Of two machines that agree without their timers the one goes through a row of moves as the other
goes through the row without its ticks. -/
theorem makeAll_untick (h : m'.untimed r = m.untimed r) (moves : List Move) :
    (m'.NeverReadsDelay (untick moves) ↔ m.NeverReadsDelay moves) ∧
      (m.NeverReadsDelay moves →
        m'.answersButTicks (untick moves) = m.answersButTicks moves ∧
          (m'.makeAll (untick moves)).untimed r = (m.makeAll moves).untimed r) := by
  induction moves generalizing m m' with
  | nil => exact ⟨by simp [NeverReadsDelay, untick, along], fun _ => ⟨rfl, h⟩⟩
  | cons move moves ih =>
    by_cases htick : move = .tick
    · subst htick
      -- the row without its ticks stays where it is
      obtain ⟨hiff, hrest⟩ := ih (h.trans (untimed_tick m).symm)
      have hreads : m.NeverReadsDelay (.tick :: moves) ↔ m.tick.NeverReadsDelay moves :=
        (neverReadsDelay_cons m .tick moves).trans (and_iff_right rfl)
      have huntick : untick (.tick :: moves) = untick moves := rfl
      rw [hreads, huntick]
      exact ⟨hiff, hrest⟩
    · have huntick : untick (move :: moves) = move :: untick moves :=
        List.filter_cons_of_pos (by simpa using htick)
      have hanswers : ∀ (m : Machine ρ) moves, m.answersButTicks (move :: moves)
          = m.answer move :: (m.make move).answersButTicks moves := by
        intro m moves
        simp [answersButTicks, along, htick]
      obtain ⟨hanswer, hreads, hmake⟩ := make_untimed h move
      rw [huntick, neverReadsDelay_cons, neverReadsDelay_cons, hreads, hanswers, hanswers, hanswer]
      cases hdelay : m.readsDelay move with
      | true => simp
      | false =>
        obtain ⟨hiff, hrest⟩ := ih (hmake hdelay)
        refine ⟨by rw [hiff], fun hnever => ?_⟩
        obtain ⟨hans, hafter⟩ := hrest hnever.2
        exact ⟨congrArg _ hans, hafter⟩

/-- **The timers reach the delay read and the sound, and nothing else.** Let two machines agree but
for what drives their timers, for these and for what their hosts keep of sound, and let each go
through the same loads, steps and changes of keys, with ticks of its own in between. As long as the
one does not execute the instruction that reads the delay timer, the other does not either, every
move is answered alike in both, and afterwards they agree again but for their timers and the sound;
so their sources of random bytes agree as well. -/
theorem timers_unobservable (r : RandomSource ρ γ) {m m' : Machine ρ} {moves moves' : List Move}
    (hmachines : m'.untimed r = m.untimed r) (hmoves : untick moves' = untick moves)
    (hdelay : m.NeverReadsDelay moves) :
    m'.NeverReadsDelay moves' ∧ m'.answersButTicks moves' = m.answersButTicks moves ∧
      (m'.makeAll moves').untimed r = (m.makeAll moves).untimed r := by
  -- both go as the second machine does without any tick
  obtain ⟨hiff, hfirst⟩ := makeAll_untick hmachines moves
  obtain ⟨hiff', hsecond⟩ := makeAll_untick (r := r) (Eq.refl (m'.untimed r)) moves'
  rw [hmoves] at hiff' hsecond
  have hdelay' : m'.NeverReadsDelay moves' := hiff'.1 (hiff.2 hdelay)
  obtain ⟨hanswers, hafter⟩ := hfirst hdelay
  obtain ⟨hanswers', hafter'⟩ := hsecond hdelay'
  exact ⟨hdelay', hanswers'.symm.trans hanswers, hafter'.symm.trans hafter⟩

/-- The second machine ticks by the clock while its sound is on. Both set their timers to a random
byte, wait for a key and take another random byte; in the end their delay timers differ. -/
theorem timers_unobservable_waiting :
    let r := SeededHost.randomSource
    let m := reached {} (SeededHost.ofSeed 7)
      [.load 10 [0xC0, 0xFF, 0xF0, 0x15, 0xF0, 0x18, 0xF1, 0x0A, 0xC2, 0x0F]]
    let m' := { m with
      variant := { m.variant with timerMode := .fixed60Hz }
      delay := 9
      sound := 1
      host := { m.host with sounding := true, beeps := 3 } }
    let moves : List Move :=
      [.step, .step, .step, .tick, .step, .step, .load 0 [], .key (.press 4), .step]
    let moves' : List Move :=
      [.tick, .step, .step, .step, .step, .tick, .step, .load 0 [], .key (.press 4), .step]
    m'.untimed r = m.untimed r ∧ untick moves' = untick moves ∧ m.NeverReadsDelay moves ∧
      (m'.makeAll moves').delay ≠ (m.makeAll moves).delay ∧
      m'.NeverReadsDelay moves' ∧ m'.answersButTicks moves' = m.answersButTicks moves ∧
      (m'.makeAll moves').untimed r = (m.makeAll moves).untimed r := by
  intro r m m' moves moves'
  have hmachines : m'.untimed r = m.untimed r := rfl
  have hmoves : untick moves' = untick moves := by decide
  have hdelay : m.NeverReadsDelay moves := by decide +kernel
  have hdiffer : (m'.makeAll moves').delay ≠ (m.makeAll moves).delay := by decide +kernel
  exact ⟨hmachines, hmoves, hdelay, hdiffer, timers_unobservable r hmachines hmoves hdelay⟩

end Machine

end Chip8
