import Chip8.Host.Seeded
import Chip8.Proofs.HostMap
import Chip8.Proofs.Moves

/-!
# Chip8 — what the host hears

The host is told when sound starts and when it stops. Four things move the sound timer: an
instruction that sets it, which may start the sound, stop it or let it go on, the tick after an
instruction, the tick of a pacer, and a tick from outside. Yet the host hears the changes of the
timer from rest to running and back, each once and in order, and nothing else. So what it hears
alternates, and the last that it heard says whether the timer runs.

The changes of the timer are read off its values one after another, where an instruction that is
executed and the tick that follows it are told apart: a sound that an instruction starts and its own
tick ends is heard.

Main statements:

* `hear_makeAll` — a host hears just the changes of the timer;
* `soundCalls_eq_alternating`, `getLastD_soundCalls`, `count_on_soundCalls` — what changes of a
  timer look like;
* `sound_calls_follow_timer` — what any host and what the seeded host hears in any history.
-/

namespace Chip8

/-! ## Calls -/

/-- What a host is told of sound. -/
inductive SoundCall where
  | on
  | off
  deriving DecidableEq

namespace SoundCall

/-- The other call. -/
def other : SoundCall → SoundCall
  | on => off
  | off => on

/-- So many calls in turn, beginning with this one. -/
def alternating : SoundCall → Nat → List SoundCall
  | _, 0 => []
  | call, n + 1 => call :: alternating call.other n

/-- The call that fits a timer: sound is on while it runs. -/
def ofTimer (t : UInt8) : SoundCall :=
  if Timer.isRunning t then on else off

/-- The call when a timer goes from one value to another, if it starts or stops. -/
def between (before after : UInt8) : List SoundCall :=
  if ofTimer after = ofTimer before then [] else [ofTimer after]

theorem ofTimer_eq_on {t : UInt8} : ofTimer t = on ↔ 0 < t := by
  rw [ofTimer, Timer.isRunning, UInt8.pos_iff_ne_zero]
  by_cases h : t = 0 <;> simp [h]

theorem eq_other_of_ne {call call' : SoundCall} (h : call' ≠ call) : call' = call.other := by
  cases call <;> cases call' <;> first | rfl | exact absurd rfl h

theorem between_self (t : UInt8) : between t t = [] :=
  if_pos rfl

/-- A tick makes a call when the timer runs out. -/
theorem between_countdown (t : UInt8) :
    between t (Timer.countdown t) = if Timer.runsOut t then [off] else [] := by
  have hruns := Timer.runsOut_iff t
  unfold between ofTimer
  cases hbefore : Timer.isRunning t with
  | true => cases hafter : Timer.isRunning (Timer.countdown t) <;> simp_all
  | false =>
    -- a timer at rest stays there
    obtain rfl : t = 0 := by simpa [Timer.isRunning] using hbefore
    rfl

end SoundCall

open SoundCall

/-- The calls while a timer goes through these values, from one that it had before. -/
def soundCalls : UInt8 → List UInt8 → List SoundCall
  | _, [] => []
  | t, t' :: ts => between t t' ++ soundCalls t' ts

/-- How often a timer that goes through these values, from one that it had before, rises from
zero. -/
def rises : UInt8 → List UInt8 → Nat
  | _, [] => 0
  | t, t' :: ts => (if t = 0 ∧ 0 < t' then 1 else 0) + rises t' ts

theorem getLastD_append (t : UInt8) (before after : List UInt8) :
    (before ++ after).getLastD t = after.getLastD (before.getLastD t) := by
  rw [List.getLastD_eq_getLast?, List.getLast?_append, Option.getD_or, List.getLastD_eq_getLast?,
    List.getLastD_eq_getLast?]

theorem soundCalls_append (t : UInt8) (before after : List UInt8) :
    soundCalls t (before ++ after)
      = soundCalls t before ++ soundCalls (before.getLastD t) after := by
  induction before generalizing t with
  | nil => rfl
  | cons t' before ih =>
    rw [List.cons_append, soundCalls, soundCalls, ih, List.append_assoc, List.getLastD_cons]

/-- The changes of a timer alternate. -/
theorem soundCalls_eq_alternating (t : UInt8) (values : List UInt8) :
    soundCalls t values = alternating (ofTimer t).other (soundCalls t values).length := by
  induction values generalizing t with
  | nil => rfl
  | cons t' values ih =>
    rw [soundCalls, between]
    by_cases hsame : ofTimer t' = ofTimer t
    · rw [if_pos hsame, ← hsame]
      exact ih t'
    · -- after a change the other call is next
      rw [if_neg hsame, ← eq_other_of_ne hsame, List.singleton_append, List.length_cons,
        alternating, ← ih]

/-- The last change of a timer fits its last value. -/
theorem getLastD_soundCalls (t : UInt8) (values : List UInt8) :
    (soundCalls t values).getLastD (ofTimer t) = ofTimer (values.getLastD t) := by
  induction values generalizing t with
  | nil => rfl
  | cons t' values ih =>
    rw [soundCalls, between, List.getLastD_cons, ← ih]
    by_cases hsame : ofTimer t' = ofTimer t
    · rw [if_pos hsame, hsame, List.nil_append]
    · rw [if_neg hsame, List.singleton_append, List.getLastD_cons]

theorem count_on_soundCalls (t : UInt8) (values : List UInt8) :
    (soundCalls t values).count on = rises t values := by
  induction values generalizing t with
  | nil => rfl
  | cons t' values ih =>
    have hbefore : ofTimer t = on ↔ ¬ t = 0 := by rw [ofTimer_eq_on, UInt8.pos_iff_ne_zero]
    have hfirst : (between t t').count on = if t = 0 ∧ 0 < t' then 1 else 0 := by
      simp only [between, ← ofTimer_eq_on]
      cases h : ofTimer t <;> cases h' : ofTimer t' <;> simp_all
    rw [soundCalls, rises, List.count_append, ih, hfirst]

/-! ## What a host hears -/

/-- What a host keeps of the sound that it is told of. -/
structure Hearing (ρ α : Type) [Host ρ] where
  heard : ρ → α
  hear : α → SoundCall → α
  nextByte : ∀ host, heard (Host.nextByte host).2 = heard host
  soundOn : ∀ host : ρ, heard (Host.soundOn host) = hear (heard host) on
  soundOff : ∀ host : ρ, heard (Host.soundOff host) = hear (heard host) off

variable {ρ α : Type} [Host ρ]

namespace Machine

variable (hearing : Hearing ρ α)

/-- Where the timer stays as it is, nothing is to be heard. -/
theorem hear_of_sound_eq {m after : Machine ρ} (hsound : after.sound = m.sound)
    (hheard : hearing.heard after.host = hearing.heard m.host) :
    hearing.heard after.host
      = (between m.sound after.sound).foldl hearing.hear (hearing.heard m.host) := by
  rw [hsound, between_self, List.foldl_nil, hheard]

theorem hear_execute {instr : Instruction} {m after : Machine ρ}
    (h : execute instr m = .done after) :
    hearing.heard after.host
      = (between m.sound after.sound).foldl hearing.hear (hearing.heard m.host) := by
  cases instr with
  | random x nn =>
    cases h
    exact hear_of_sound_eq hearing rfl (hearing.nextByte m.host)
  | setSound x =>
    cases h
    cases hbefore : Timer.isRunning m.sound <;> cases hafter : Timer.isRunning (m.reg x) <;>
      simp [setSound, between, ofTimer, hbefore, hafter, hearing.soundOn, hearing.soundOff]
  | _ =>
    obtain ⟨hhost, hsound⟩ := execute_host h (by simp) (by simp)
    exact hear_of_sound_eq hearing hsound (congrArg hearing.heard hhost)

theorem hear_tick (m : Machine ρ) :
    hearing.heard m.tick.host
      = (between m.sound m.tick.sound).foldl hearing.hear (hearing.heard m.host) := by
  have hcalls : between m.sound m.tick.sound = if Timer.runsOut m.sound then [off] else [] :=
    between_countdown m.sound
  rw [hcalls, tick]
  by_cases hsound : Timer.runsOut m.sound = true <;> simp [hsound, hearing.soundOff]

theorem hear_retire (m : Machine ρ) :
    hearing.heard m.retire.host
      = (between m.sound m.retire.sound).foldl hearing.hear (hearing.heard m.host) := by
  unfold retire
  split
  · exact hear_tick hearing { m with cycles := m.cycles + 1 }
  · exact hear_of_sound_eq hearing rfl rfl

/-- The machines that a move goes through: an instruction is executed before it is retired. -/
def stages (m : Machine ρ) (move : Move) : List (Machine ρ) :=
  match (m.executed? move).map m.run with
  | some (.done after) => [after, m.make move]
  | _ => [m.make move]

/-- The values that the sound timer goes through in a row of moves. -/
def soundValues (course : List (Machine ρ × Move)) : List UInt8 :=
  course.flatMap fun c => (c.1.stages c.2).map (·.sound)

theorem soundValues_along_cons (m : Machine ρ) (move : Move) (moves : List Move) :
    soundValues (m.along (move :: moves))
      = (m.stages move).map (·.sound) ++ soundValues ((m.make move).along moves) :=
  List.flatMap_cons ..

theorem getLastD_stages (m : Machine ρ) (move : Move) (t : UInt8) :
    ((m.stages move).map (·.sound)).getLastD t = (m.make move).sound := by
  unfold stages
  split <;> rfl

theorem hear_make (m : Machine ρ) (move : Move) :
    hearing.heard (m.make move).host
      = (soundCalls m.sound ((m.stages move).map (·.sound))).foldl hearing.hear
          (hearing.heard m.host) := by
  have hone : ∀ t t', soundCalls t [t'] = between t t' := fun t t' => List.append_nil _
  cases move with
  | load size data =>
    have hhost : (m.tryLoad size data).host = m.host :=
      (congrArg Machine.host (m.tryLoad_frame size data) :)
    have hsound : (m.tryLoad size data).sound = m.sound :=
      (congrArg Machine.sound (m.tryLoad_frame size data) :)
    refine (hear_of_sound_eq hearing hsound (congrArg hearing.heard hhost)).trans ?_
    rw [← hone]
    rfl
  | step =>
    rcases m.make_step_cases with ⟨instr, after, hexec, -, -, hrun, hmake⟩ | ⟨hexec, hmake⟩
    -- the instruction is heard before the tick that follows it
    · have hstages : m.stages .step = [after, after.retire] := by
        simp [stages, hexec, hrun, hmake]
      have hafter := hear_execute hearing hrun
      rw [hstages, hmake, List.map_cons, soundCalls, List.foldl_append, List.map_singleton, hone,
        hear_retire, hafter]
    · have hstages : m.stages .step = [m] := by simp [stages, hexec, hmake]
      rw [hstages, hmake, List.map_singleton, hone]
      exact hear_of_sound_eq hearing rfl rfl
  | key change =>
    obtain ⟨hhost, hsound⟩ : (m.applyChange change).host = m.host ∧
        (m.applyChange change).sound = m.sound := by
      cases change <;> simp only [applyChange, press, release] <;> split <;> exact ⟨rfl, rfl⟩
    refine (hear_of_sound_eq hearing hsound (congrArg hearing.heard hhost)).trans ?_
    rw [← hone]
    rfl
  | tick =>
    refine (hear_tick hearing m).trans ?_
    rw [← hone]
    rfl

/-- A host hears of a row of moves just the changes of the timer. -/
theorem hear_makeAll (m : Machine ρ) (moves : List Move) :
    hearing.heard (m.makeAll moves).host
      = (soundCalls m.sound (soundValues (m.along moves))).foldl hearing.hear
          (hearing.heard m.host) := by
  induction moves generalizing m with
  | nil => rfl
  | cons move moves ih =>
    rw [makeAll_cons, ih, hear_make, soundValues_along_cons, soundCalls_append,
      getLastD_stages, List.foldl_append]

theorem getLastD_soundValues (m : Machine ρ) (moves : List Move) :
    (soundValues (m.along moves)).getLastD m.sound = (m.makeAll moves).sound := by
  induction moves generalizing m with
  | nil => rfl
  | cons move moves ih =>
    rw [soundValues_along_cons, makeAll_cons, ← ih, getLastD_append, getLastD_stages]

/-- A host hears of a history just the changes of the timer, which rests at first. -/
theorem hear_reached (variant : Variant) (host : ρ) (ops : List Operation) :
    hearing.heard (reached variant host ops).host
      = (soundCalls 0 (soundValues ((initial variant host).course ops))).foldl hearing.hear
          (hearing.heard host) := by
  rw [reached, ← makeAll_moves]
  exact hear_makeAll hearing (initial variant host) _

theorem getLastD_soundValues_course (variant : Variant) (host : ρ) (ops : List Operation) :
    (soundValues ((initial variant host).course ops)).getLastD 0
      = (reached variant host ops).sound := by
  rw [reached, ← makeAll_moves]
  exact getLastD_soundValues (initial variant host) _

end Machine

/-! ## Recorded and seeded hosts -/

/-- A host with a record of what it was told of sound. -/
structure Recorder (ρ : Type) where
  inner : ρ
  calls : List SoundCall := []

instance : Host (Recorder ρ) where
  nextByte r := ((Host.nextByte r.inner).1, { r with inner := (Host.nextByte r.inner).2 })
  soundOn r := ⟨Host.soundOn r.inner, r.calls ++ [on]⟩
  soundOff r := ⟨Host.soundOff r.inner, r.calls ++ [off]⟩
  reportsSound := Host.reportsSound ρ

/-- Without its record the host is what it was. -/
def Recorder.forget : HostMap (Recorder ρ) ρ where
  map := Recorder.inner
  nextByte _ := rfl
  soundOn _ := rfl
  soundOff _ := rfl

/-- The record holds every call. -/
def Recorder.hearing : Hearing (Recorder ρ) (List SoundCall) where
  heard := Recorder.calls
  hear calls call := calls ++ [call]
  nextByte _ := rfl
  soundOn _ := rfl
  soundOff _ := rfl

/-- The seeded host keeps whether sound is on and counts how often it starts. -/
def SeededHost.hearing : Hearing SeededHost (Bool × Nat) where
  heard host := (host.sounding, host.beeps)
  hear heard call := (call == on, if call = on then heard.2 + 1 else heard.2)
  nextByte host := by
    have hnext : (Host.nextByte host).2 = { host with generator := host.generator.next.2 } := rfl
    rw [hnext]
  soundOn _ := rfl
  soundOff _ := rfl

theorem foldl_seededHost (calls : List SoundCall) (call : SoundCall) (beeps : Nat) :
    calls.foldl SeededHost.hearing.hear (call == on, beeps)
      = (calls.getLastD call == on, beeps + calls.count on) := by
  induction calls generalizing call beeps with
  | nil => rfl
  | cons next calls ih =>
    have hhear : SeededHost.hearing.hear (call == on, beeps) next
        = (next == on, if next = on then beeps + 1 else beeps) := rfl
    rw [List.foldl_cons, hhear, ih, List.getLastD_cons]
    cases next with
    | on => rw [List.count_cons_self, if_pos rfl, Nat.add_right_comm, Nat.add_assoc]
    | off => rw [List.count_cons_of_ne (by simp), if_neg (by simp)]

namespace Machine

/-- **The host hears the sound timer.** Whatever happens to a new machine, in whatever host, a
record of what the host is told of sound changes nothing else, and it alternates, beginning with
the start of sound; its last entry is a start just while the sound timer runs. So the seeded host
sounds just while the timer runs, and it counts how often the timer rises from zero, where a value
that an instruction stores counts even if the tick that follows takes it away. -/
theorem sound_calls_follow_timer (variant : Variant) (host : ρ) (ops : List Operation) :
    let m := reached variant (⟨host, []⟩ : Recorder ρ) ops
    m.rehost Recorder.forget = reached variant host ops ∧
    m.host.calls = alternating on m.host.calls.length ∧
    (m.host.calls.getLast? = some on ↔ 0 < m.sound) ∧
    ∀ seed,
      let s := reached variant (SeededHost.ofSeed seed) ops
      let course := (initial variant (SeededHost.ofSeed seed)).course ops
      (s.host.sounding = true ↔ 0 < s.sound) ∧ s.host.beeps = rises 0 (soundValues course) := by
  intro m
  -- the record is what a timer at rest makes of the values that it goes through
  have hcalls : m.host.calls
      = soundCalls 0 (soundValues ((initial variant (⟨host, []⟩ : Recorder ρ)).course ops)) :=
    (hear_reached Recorder.hearing variant _ ops).trans ((foldl_snoc _ _).trans (List.nil_append _))
  refine ⟨(reached_rehost Recorder.forget variant _ ops).symm, ?_, ?_, ?_⟩
  · rw [hcalls]
    exact soundCalls_eq_alternating 0 _
  · have hfits := getLastD_soundCalls 0
      (soundValues ((initial variant (⟨host, []⟩ : Recorder ρ)).course ops))
    rw [getLastD_soundValues_course, ← hcalls, List.getLastD_eq_getLast?] at hfits
    rw [← ofTimer_eq_on, ← hfits]
    cases m.host.calls.getLast? <;> simp [ofTimer, Timer.isRunning]
  · intro seed s course
    have hfits := getLastD_soundCalls 0 (soundValues course)
    rw [getLastD_soundValues_course] at hfits
    have hpair : (s.host.sounding, s.host.beeps)
        = ((soundCalls 0 (soundValues course)).getLastD off == on,
            0 + (soundCalls 0 (soundValues course)).count on) :=
      (hear_reached SeededHost.hearing variant _ ops).trans (foldl_seededHost _ off 0)
    rw [Nat.zero_add, count_on_soundCalls, Prod.mk.injEq] at hpair
    refine ⟨?_, hpair.2⟩
    rw [hpair.1, beq_iff_eq, ← ofTimer_eq_on, ← hfits]
    rfl

/-- A sound that an instruction starts and its own tick ends is heard and counted. -/
example :
    let m := initial {} (SilentHost.mk 0)
    let ops := [.load 4 [0x60, 0x01, 0xF0, 0x18], .step, .step]
    (m.undergoAll ops).sound = 0 ∧ soundValues (m.course ops) = [0, 0, 0, 1, 0] ∧
      rises 0 (soundValues (m.course ops)) = 1 := by
  decide +kernel

end Machine

end Chip8
