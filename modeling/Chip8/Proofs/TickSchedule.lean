import Chip8.Proofs.Journal
import Mathlib.Data.Set.Card
import Mathlib.Order.Interval.Finset.Nat

/-!
# Chip8 — when the clock ticks the timers

A machine whose timers go by the clock is ticked at fixed cycles of its pacer, one for each sixtieth
of a second. Whatever was polled when, however long the machine waited for keys and whatever failed,
an instruction finds exactly those ticks made whose cycle has come; and a poll that gets through
leaves exactly the ticks of the longest time polled so far.

Two facts carry the argument. A pacer is *punctual*: the last tick that it made had its cycle
already. And an instruction is not executed while the next tick is due; a next tick beyond the quota
has its cycle at the target or behind it, so it is not due either.

Main statement:

* `ticks_on_schedule` — the ticks before an instruction and the ticks after a poll, for every run.
-/

namespace Chip8.Pacer

variable {ρ : Type}

/-! ## Punctual pacers -/

/-- The last tick had its cycle before it was made. -/
def isPunctual (p : Pacer) : Prop :=
  p.ticks * p.rate / ticksPerSecond ≤ p.cycles

theorem isPunctual_initial (start rate : Nat) : (Pacer.initial start rate).isPunctual := by
  simp [isPunctual, Pacer.initial]

theorem isPunctual.tick {p : Pacer} {elapsed : Nat} (hcut : elapsed * p.rate / second < bound64)
    (hdue : p.tickIsDue (elapsed * ticksPerSecond / second)) :
    isPunctual { p with ticks := p.ticks + 1 } := by
  have hdeadline := hdue.2
  rwa [tickDeadline_of_le hdue.1 hcut] at hdeadline

theorem isPunctual.advance {p : Pacer} (h : p.isPunctual) {cycle : Nat} (hle : p.cycles ≤ cycle) :
    isPunctual { p with cycles := cycle } :=
  Nat.le_trans h hle

/-- A tick that is not due has its cycle still to come, while the target is not reached. -/
theorem lt_next_tick {p : Pacer} {elapsed : Nat} (hcut : elapsed * p.rate / second < bound64)
    (hdue : ¬ p.tickIsDue (elapsed * ticksPerSecond / second))
    (hlt : p.cycles < elapsed * p.rate / second) :
    p.cycles < (p.ticks + 1) * p.rate / ticksPerSecond := by
  rcases Nat.lt_or_ge p.ticks (elapsed * ticksPerSecond / second) with hless | hmore
  -- within the quota only its deadline can keep the tick from being due
  · have hnot : ¬ tickDeadline (p.ticks + 1) p.rate ≤ p.cycles := fun hle => hdue ⟨hless, hle⟩
    rw [tickDeadline_of_le hless hcut] at hnot
    exact Nat.not_le.1 hnot
  -- beyond the quota its cycle lies at the target or behind it
  · exact Nat.lt_of_lt_of_le hlt (le_tick_cycle (Nat.lt_succ_of_le hmore))

/-! ## Journals on schedule -/

/-- After so many ticks, every instruction of the journal comes when the last tick before it had its
cycle and the next one has not. -/
def onSchedule (rate : Nat) : Nat → List Deed → Prop
  | _, [] => True
  | made, .tick :: rest => onSchedule rate (made + 1) rest
  | made, .instruction cycle :: rest =>
    (made * rate / ticksPerSecond ≤ cycle ∧ cycle < (made + 1) * rate / ticksPerSecond) ∧
      onSchedule rate made rest
  | made, .skip _ :: rest => onSchedule rate made rest
  | made, .key _ :: rest => onSchedule rate made rest

theorem onSchedule_append (rate made : Nat) (before after : List Deed) :
    onSchedule rate made (before ++ after)
      ↔ onSchedule rate made before ∧ onSchedule rate (made + before.count .tick) after := by
  induction before generalizing made with
  | nil => simp [onSchedule]
  | cons deed before ih =>
    cases deed with
    | tick =>
      have hcount : made + 1 + before.count .tick = made + (Deed.tick :: before).count .tick := by
        rw [List.count_cons_self]
        omega
      rw [List.cons_append, onSchedule, onSchedule, ih, hcount]
    | instruction cycle =>
      rw [List.cons_append, onSchedule, onSchedule, ih, List.count_cons_of_ne (by simp)]
      exact and_assoc.symm
    | skip cycle =>
      rw [List.cons_append, onSchedule, onSchedule, ih, List.count_cons_of_ne (by simp)]
    | key change =>
      rw [List.cons_append, onSchedule, onSchedule, ih, List.count_cons_of_ne (by simp)]

/-- The ticks whose cycle has come are as many as were made, if the last one made had its cycle and
the next one has not. -/
theorem encard_ticks {rate made cycle : Nat} (hlast : made * rate / ticksPerSecond ≤ cycle)
    (hnext : cycle < (made + 1) * rate / ticksPerSecond) :
    {k : ℕ | 1 ≤ k ∧ k * rate / ticksPerSecond ≤ cycle}.encard = made := by
  -- later ticks have no earlier cycles, so the ticks whose cycle has come are the first ones
  have hset : {k : ℕ | 1 ≤ k ∧ k * rate / ticksPerSecond ≤ cycle} = Finset.Icc 1 made := by
    ext k
    rw [Set.mem_ofPred_eq, Finset.coe_Icc, Set.mem_Icc]
    refine and_congr_right fun _ => ⟨fun hk => ?_, fun hk => ?_⟩
    · by_contra hmore
      have hle : (made + 1) * rate / ticksPerSecond ≤ k * rate / ticksPerSecond :=
        Nat.div_le_div_right (Nat.mul_le_mul_right rate (Nat.not_le.1 hmore))
      omega
    · exact Nat.le_trans (Nat.div_le_div_right (Nat.mul_le_mul_right rate hk)) hlast
  rw [hset, Set.encard_coe_eq_coe_finsetCard, Nat.card_Icc, Nat.add_sub_cancel]

/-! ## Runs on schedule -/

/-- What a run with a machine whose timers go by the clock keeps. -/
structure Scheduled (start rate : Nat) (r : Run ρ) : Prop where
  start_eq : r.pacer.start = start
  rate_eq : r.pacer.rate = rate
  mode_eq : r.machine.variant.timerMode = .fixed60Hz
  ticks_eq : r.pacer.ticks = r.journal.count .tick
  punctual : r.pacer.isPunctual
  onTime : onSchedule rate 0 r.journal
  -- the ticks of a poll that got through are made
  complete : ∀ now n, (now, .ok n) ∈ r.polls →
    (now - start) * ticksPerSecond / second ≤ r.pacer.ticks
  -- no ticks are made but those of some poll
  bounded : r.pacer.ticks = 0 ∨
    ∃ poll ∈ r.polls, r.pacer.ticks ≤ (poll.1 - start) * ticksPerSecond / second

theorem scheduled_initial {start rate : Nat} {m : Machine ρ}
    (hmode : m.variant.timerMode = .fixed60Hz) :
    Scheduled start rate (Run.initial start rate m) where
  start_eq := rfl
  rate_eq := rfl
  mode_eq := hmode
  ticks_eq := rfl
  punctual := isPunctual_initial start rate
  onTime := trivial
  complete := by simp [Run.initial]
  bounded := Or.inl rfl

/-- An instruction of a run on schedule finds those ticks made whose cycle has come. -/
theorem Scheduled.count_before {start rate cycle : Nat} {r : Run ρ} {before after : List Deed}
    (h : Scheduled start rate r) (hjournal : r.journal = before ++ .instruction cycle :: after) :
    (before.count .tick : ℕ∞) = {k : ℕ | 1 ≤ k ∧ k * rate / ticksPerSecond ≤ cycle}.encard := by
  have honTime := h.onTime
  rw [hjournal, onSchedule_append, onSchedule, Nat.zero_add] at honTime
  obtain ⟨-, ⟨hlast, hnext⟩, -⟩ := honTime
  exact (encard_ticks hlast hnext).symm

/-- When a poll has got through and no later one failed before it, the ticks of the longest time
polled are made, and no others. -/
theorem Scheduled.count_after {start rate now n longest : Nat} {r : Run ρ}
    {earlier : List (Nat × Except Fault Nat)} (h : Scheduled start rate r)
    (hpolls : r.polls = earlier ++ [(now, .ok n)])
    (hfailed : ∀ later fault, (later, .error fault) ∈ earlier → later ≤ now)
    (hlongest : (r.polls.map fun poll => poll.1 - start).max? = some longest) :
    r.journal.count .tick = longest * ticksPerSecond / second := by
  obtain ⟨hattained, hmax⟩ := List.max?_eq_some_iff.1 hlongest
  rw [← h.ticks_eq]
  apply Nat.le_antisymm
  -- the ticks made are those of some poll, and none was longer
  · rcases h.bounded with hzero | ⟨poll, hmem, hbound⟩
    · rw [hzero]
      exact Nat.zero_le _
    · have hle : poll.1 - start ≤ longest := hmax _ (List.mem_map_of_mem hmem)
      exact Nat.le_trans hbound (Nat.div_le_div_right (Nat.mul_le_mul_right _ hle))
  · -- the longest time was polled with success, or it is the time of the last poll as well
    obtain ⟨⟨time, result⟩, hmem, rfl⟩ := List.mem_map.1 hattained
    cases result with
    | ok k => exact h.complete time k hmem
    | error fault =>
      rw [hpolls] at hmem
      have hearlier : (time, .error fault) ∈ earlier := by simpa using hmem
      have hle : time ≤ now := hfailed time fault hearlier
      have hlast : (now, .ok n) ∈ r.polls := by simp [hpolls]
      have hticks := h.complete now n hlast
      exact Nat.le_trans
        (Nat.div_le_div_right (Nat.mul_le_mul_right _ (Nat.sub_le_sub_right hle _))) hticks

/-! ## Polls and keys -/

variable [Host ρ] {p : Pacer} {m : Machine ρ} {now : Nat}

/-- The deeds of a loop with the target and the quota of some time are on schedule. -/
theorem onSchedule_deeds {elapsed rate : Nat} (hcut : elapsed * rate / second < bound64) (p : Pacer)
    (m : Machine ρ) (hrate : p.rate = rate) (h : p.isPunctual) :
    onSchedule rate p.ticks
      (deeds (elapsed * rate / second) (elapsed * ticksPerSecond / second) p m) := by
  fun_induction deeds (elapsed * rate / second) (elapsed * ticksPerSecond / second) p m with
  | case1 p m hdue ih =>
    subst hrate
    exact ih rfl (isPunctual.tick hcut hdue)
  | case2 p m hdue hlt after hstep ih =>
    subst hrate
    -- the instruction comes behind the last tick made and before the next one
    exact ⟨⟨h, lt_next_tick hcut hdue hlt⟩, ih rfl (h.advance (Nat.le_succ _))⟩
  | case3 p m hdue hlt after hstep ih =>
    subst hrate
    exact ih rfl (h.advance (Nat.le_of_lt hlt))
  | case4 => trivial
  | case5 => trivial

/-- A poll keeps a pacer punctual. -/
theorem isPunctual_poll (hmode : m.variant.timerMode = .fixed60Hz) (hword : now < bound64)
    (hcut : p.elapsed now * p.rate / second < bound64) (h : p.isPunctual) :
    (p.poll m now).pacer.isPunctual := by
  refine (catchUp_invariant (fun p' _ => p'.rate = p.rate ∧ p'.isPunctual) ?_ ?_ ?_ ⟨rfl, h⟩
    0 #[]).2
  · intro p' m' hdue ⟨hrate, _⟩
    rw [hmode, quota, due_ticks (elapsed_lt hword)] at hdue
    rw [← hrate] at hcut
    exact ⟨hrate, isPunctual.tick hcut hdue⟩
  · intro p' m' after _ _ _ ⟨hrate, h'⟩
    exact ⟨hrate, h'.advance (Nat.le_succ _)⟩
  · intro p' m' _ hlt _ ⟨hrate, h'⟩
    exact ⟨hrate, h'.advance (Nat.le_of_lt hlt)⟩

/-- The deeds of a poll by a punctual pacer are on schedule. -/
theorem onSchedule_pollDeeds (hmode : m.variant.timerMode = .fixed60Hz) (hword : now < bound64)
    (hcut : p.elapsed now * p.rate / second < bound64) (h : p.isPunctual) :
    onSchedule p.rate p.ticks (p.pollDeeds m now) := by
  rw [pollDeeds, target, due_of_lt hcut, hmode, quota, due_ticks (elapsed_lt hword)]
  exact onSchedule_deeds hcut p m rfl h

/-- A poll that gets through makes all the ticks of its time. -/
theorem quota_le_ticks (hmode : m.variant.timerMode = .fixed60Hz) (hword : now < bound64)
    (hcut : p.elapsed now * p.rate / second < bound64) {n : Nat}
    (hok : (p.poll m now).result = .ok n) :
    p.elapsed now * ticksPerSecond / second ≤ (p.poll m now).pacer.ticks := by
  have hsettled : Settled (p.target now) (p.quota now m.variant.timerMode) (p.poll m now) :=
    catchUp_settled 0 #[]
  have hquota : p.quota now m.variant.timerMode = p.elapsed now * ticksPerSecond / second := by
    rw [hmode, quota, due_ticks (elapsed_lt hword)]
  rw [← hquota]
  by_contra hmore
  have hmore := Nat.not_le.1 hmore
  -- the next tick has its deadline by the target, which is reached, so it would be due
  have hdeadline := tickDeadline_le_target hword hcut (catchUp_mono 0 #[]).2 hmore
  refine hsettled.noTick ⟨hmore, ?_⟩
  rw [(poll_frame p m now).2.1]
  exact Nat.le_trans hdeadline (hsettled.reached n hok)

/-- A poll makes no ticks beyond those of its time. -/
theorem ticks_le_quota (hmode : m.variant.timerMode = .fixed60Hz) (hword : now < bound64) :
    (p.poll m now).pacer.ticks ≤ max p.ticks (p.elapsed now * ticksPerSecond / second) := by
  have hle : (p.poll m now).pacer.ticks ≤ max p.ticks (p.quota now m.variant.timerMode) :=
    catchUp_ticks_le 0 #[]
  rwa [hmode, quota, due_ticks (elapsed_lt hword)] at hle

/-- A change of a key keeps a run on schedule. -/
theorem Scheduled.key {start rate : Nat} {r : Run ρ} (h : Scheduled start rate r)
    (change : KeyChange) : Scheduled start rate (r.next (.key change)) where
  start_eq := h.start_eq
  rate_eq := h.rate_eq
  mode_eq := by
    rw [Run.next, Machine.applyChange_variant, h.mode_eq]
  ticks_eq := by
    rw [Run.next, List.count_append, List.count_singleton, h.ticks_eq]
    rfl
  punctual := h.punctual
  onTime := by
    rw [Run.next, onSchedule_append]
    exact ⟨h.onTime, trivial⟩
  complete := h.complete
  bounded := h.bounded

/-- A poll keeps a run on schedule. -/
theorem Scheduled.poll {start rate now : Nat} {r : Run ρ} (h : Scheduled start rate r)
    (hword : now < bound64) (hcut : (now - start) * rate / second < bound64) :
    Scheduled start rate (r.next (.poll now)) := by
  have helapsed : r.pacer.elapsed now = now - start := by rw [elapsed, h.start_eq]
  have hcut' : r.pacer.elapsed now * r.pacer.rate / second < bound64 := by
    rwa [helapsed, h.rate_eq]
  obtain ⟨hstart, hrate, hvariant⟩ := poll_frame r.pacer r.machine now
  have hmono : r.pacer.ticks ≤ (r.pacer.poll r.machine now).pacer.ticks := (catchUp_mono 0 #[]).2
  constructor
  case start_eq => exact hstart.trans h.start_eq
  case rate_eq => exact hrate.trans h.rate_eq
  case mode_eq =>
    rw [Run.next, hvariant, h.mode_eq]
  case ticks_eq =>
    rw [Run.next, List.count_append, ← h.ticks_eq]
    exact replay_ticks (replay_deeds _ _ _ _ 0 #[])
  case punctual => exact isPunctual_poll h.mode_eq hword hcut' h.punctual
  case onTime =>
    rw [Run.next, onSchedule_append, Nat.zero_add, ← h.ticks_eq, ← h.rate_eq]
    refine ⟨?_, onSchedule_pollDeeds h.mode_eq hword hcut' h.punctual⟩
    rw [h.rate_eq]
    exact h.onTime
  case complete =>
    intro time n hmem
    -- the ticks of an earlier poll stay made, those of this one were just made
    rcases List.mem_append.1 hmem with hold | hnew
    · exact Nat.le_trans (h.complete time n hold) hmono
    · simp only [List.mem_singleton, Prod.mk.injEq] at hnew
      obtain ⟨rfl, hok⟩ := hnew
      rw [← helapsed]
      exact quota_le_ticks h.mode_eq hword hcut' hok.symm
  case bounded =>
    have hle := ticks_le_quota (p := r.pacer) h.mode_eq hword
    rw [helapsed] at hle
    have hnew : (now, (r.pacer.poll r.machine now).result) ∈ (r.next (.poll now)).polls :=
      List.mem_append_right _ (List.mem_singleton_self _)
    -- either this poll bounds the ticks, or it made none and an earlier one still does
    rcases Nat.le_total r.pacer.ticks ((now - start) * ticksPerSecond / second) with hless | hmore
    · rw [Nat.max_eq_right hless] at hle
      exact Or.inr ⟨_, hnew, hle⟩
    · rw [Nat.max_eq_left hmore] at hle
      have heq : (r.next (.poll now)).pacer.ticks = r.pacer.ticks := Nat.le_antisymm hle hmono
      rcases h.bounded with hzero | ⟨poll, hmem, hbound⟩
      · exact Or.inl (heq.trans hzero)
      · exact Or.inr ⟨poll, List.mem_append_left _ hmem, heq.trans_le hbound⟩

/-- A run with uncut targets is on schedule. -/
theorem scheduled_play {start rate : Nat} {stimuli : List Stimulus}
    (hmode : m.variant.timerMode = .fixed60Hz)
    (hpolls : ∀ now, .poll now ∈ stimuli →
      now < bound64 ∧ (now - start) * rate / second < bound64) :
    Scheduled start rate ((Run.initial start rate m).play stimuli) := by
  refine Run.play_invariant (Scheduled start rate) (scheduled_initial hmode) ?_
  intro r stimulus hmem h
  cases stimulus with
  | poll now =>
    obtain ⟨hword, hcut⟩ := hpolls now hmem
    exact h.poll hword hcut
  | key change => exact h.key change

/-- While the timers go by instructions the pacer makes no ticks. -/
theorem ticks_play_perInstruction {start rate : Nat} (stimuli : List Stimulus)
    (hmode : m.variant.timerMode = .perInstruction) :
    ((Run.initial start rate m).play stimuli).pacer.ticks = 0 := by
  refine (Run.play_invariant
    (fun r => r.pacer.ticks = 0 ∧ r.machine.variant.timerMode = .perInstruction)
    ⟨rfl, hmode⟩ ?_).1
  intro r stimulus _ ⟨hticks, hmode'⟩
  cases stimulus with
  | poll now =>
    rw [Run.next, ticks_poll_perInstruction hmode', (poll_frame r.pacer r.machine now).2.2]
    exact ⟨hticks, hmode'⟩
  | key change =>
    rw [Run.next, Machine.applyChange_variant]
    exact ⟨hticks, hmode'⟩

/-- **Ticks come on schedule.** Take any run of polls and changes of keys from a new pacer and any
machine, with a journal that accounts for it. If the timers go by the clock and no target is cut,
then an instruction executed at a cycle finds exactly those ticks made before it whose cycle has
come; and when the last poll has got through, the ticks made are those of the longest time polled
so far, unless a poll at a later time failed before. If the timers go by instructions, the pacer
never ticks them. -/
theorem ticks_on_schedule (start rate : Nat) (m : Machine ρ) (stimuli : List Stimulus) :
    let r := (Run.initial start rate m).play stimuli
    replay (Pacer.initial start rate, m) r.journal = some (r.pacer, r.machine) ∧
    (m.variant.timerMode = .perInstruction → .tick ∉ r.journal) ∧
    (m.variant.timerMode = .fixed60Hz →
      (∀ now, .poll now ∈ stimuli → now < bound64 ∧ (now - start) * rate / second < bound64) →
      (∀ before cycle after, r.journal = before ++ .instruction cycle :: after →
        (before.count .tick : ℕ∞)
          = {k : ℕ | 1 ≤ k ∧ k * rate / ticksPerSecond ≤ cycle}.encard) ∧
      (∀ earlier now n longest, r.polls = earlier ++ [(now, .ok n)] →
        (∀ later fault, (later, .error fault) ∈ earlier → later ≤ now) →
        (r.polls.map fun poll => poll.1 - start).max? = some longest →
        r.journal.count .tick = longest * ticksPerSecond / second)) := by
  intro r
  have hreplay := Run.replay_play start rate m stimuli
  refine ⟨hreplay, ?_, ?_⟩
  · intro hmode
    -- the pacer has made no ticks, and it has made as many as the journal says
    have hcount := replay_ticks hreplay
    rw [ticks_play_perInstruction stimuli hmode] at hcount
    exact List.count_eq_zero.1 ((Nat.zero_add _).symm.trans hcount.symm)
  · intro hmode hpolls
    have h : Scheduled start rate r := scheduled_play hmode hpolls
    refine ⟨?_, ?_⟩
    · intro before cycle after hjournal
      exact h.count_before hjournal
    · intro earlier now n longest hlast hfailed hlongest
      exact h.count_after hlast hfailed hlongest

/-- A poll for one instruction with a tick behind it: what it adds to a run. -/
theorem Run.next_poll_run_tick {r : Run ρ} {after ticked : Machine ρ}
    (hmode : r.machine.variant.timerMode = .fixed60Hz)
    (htarget : r.pacer.target now = r.pacer.cycles + 1)
    (hquota : due (r.pacer.elapsed now) ticksPerSecond = r.pacer.ticks + 1)
    (hdeadline : tickDeadline (r.pacer.ticks + 1) r.pacer.rate = r.pacer.cycles + 1)
    (hstep : r.machine.step = (.ran, after)) (htick : after.tick = ticked) :
    r.next (.poll now)
      = { pacer := { r.pacer with cycles := r.pacer.cycles + 1, ticks := r.pacer.ticks + 1 }
          machine := ticked
          journal := r.journal ++ [.instruction r.pacer.cycles, .tick]
          polls := r.polls ++ [(now, .ok 1)] } := by
  obtain ⟨p, m, journal, polls⟩ := r
  have hearly : ¬ p.tickIsDue (p.ticks + 1) := fun hdue =>
    Nat.not_succ_le_self p.cycles (hdeadline.symm.trans_le hdue.2)
  have hdue : tickIsDue { p with cycles := p.cycles + 1 } (p.ticks + 1) :=
    ⟨Nat.lt_succ_self _, hdeadline.le⟩
  have hmade : ¬ tickIsDue { p with cycles := p.cycles + 1, ticks := p.ticks + 1 } (p.ticks + 1) :=
    fun hdue => Nat.lt_irrefl _ hdue.1
  have hlt : p.cycles < p.cycles + 1 := Nat.lt_succ_self _
  have hloop : effect (catchUp (p.cycles + 1) (p.ticks + 1) p m 0 #[])
      = (.ok 1, { p with cycles := p.cycles + 1, ticks := p.ticks + 1 }, ticked) := by
    rw [catchUp_run hearly hlt hstep, catchUp_tick hdue, htick,
      catchUp_reached hmade (Nat.le_refl _)]
    rfl
  have hdeeds : deeds (p.cycles + 1) (p.ticks + 1) p m = [.instruction p.cycles, .tick] := by
    rw [deeds_run hearly hlt hstep, deeds_tick hdue, deeds_reached hmade (Nat.le_refl _)]
  rw [Run.next_poll htarget (by rw [hmode, quota, hquota]) hloop, hdeeds]

/-- A machine whose memory is full of jumps to one address. -/
def spinning (pc : UInt16) (cycles : Nat) (keys : Keypad) : Machine SilentHost :=
  { Machine.initial { timerMode := .fixed60Hz } ⟨0⟩ with
    memory := ⟨Vector.replicate 4096 0x12⟩, pc, cycles, keys }

theorem step_spinning (pc : UInt16) (cycles : Nat) (keys : Keypad) :
    (spinning pc cycles keys).step = (.ran, spinning 0x212 (cycles + 1) keys) := by
  have hfetch : (spinning pc cycles keys).fetch = .ok (.jump 0x212) := by
    simp only [spinning, Machine.initial, Machine.fetch, Memory.word, Memory.read, Fin.getElem_fin,
      Vector.getElem_replicate]
    rfl
  have hwait : (spinning pc cycles keys).isWaiting = false := rfl
  rw [Machine.step, hfetch, hwait]
  rfl

/-- Two polls at sixty instructions in a second, a little more than a sixtieth apart, with a key
between them. -/
theorem ticks_on_schedule_spinning :
    let m := spinning programOrigin 0 .allUp
    let stimuli : List Stimulus := [.poll 16666667, .key (.press 3), .poll 33333334]
    let r := (Run.initial 0 60 m).play stimuli
    m.variant.timerMode = .fixed60Hz ∧
    (∀ now, .poll now ∈ stimuli → now < bound64 ∧ (now - 0) * 60 / second < bound64) ∧
    r.journal = [.instruction 0, .tick, .key (.press 3)] ++ .instruction 1 :: [.tick] ∧
    r.polls = [(16666667, .ok 1)] ++ [(33333334, .ok 1)] ∧
    ((1 : ℕ) : ℕ∞) = {k : ℕ | 1 ≤ k ∧ k * 60 / ticksPerSecond ≤ 1}.encard ∧
    r.journal.count .tick = 33333334 * ticksPerSecond / second := by
  intro m stimuli r
  have hmode : m.variant.timerMode = .fixed60Hz := rfl
  have hpolls : ∀ now, .poll now ∈ stimuli →
      now < bound64 ∧ (now - 0) * 60 / second < bound64 := by
    simp [stimuli, second, bound64]
  have hfirst : (Run.initial 0 60 m).next (.poll 16666667)
      = ⟨⟨0, 60, 1, 1⟩, spinning 0x212 1 .allUp, [.instruction 0, .tick],
          [(16666667, .ok 1)]⟩ :=
    Run.next_poll_run_tick rfl (by decide) (by decide) (by decide) (step_spinning ..) rfl
  have hkey : ((Run.initial 0 60 m).next (.poll 16666667)).next (.key (.press 3))
      = ⟨⟨0, 60, 1, 1⟩, spinning 0x212 1 (.put .allUp 3 true),
          [.instruction 0, .tick, .key (.press 3)], [(16666667, .ok 1)]⟩ := by
    rw [hfirst]
    rfl
  have hrun : r = ⟨⟨0, 60, 2, 2⟩, spinning 0x212 2 (.put .allUp 3 true),
      [.instruction 0, .tick, .key (.press 3), .instruction 1, .tick],
      [(16666667, .ok 1), (33333334, .ok 1)]⟩ := by
    refine (congrArg (Run.next · (.poll 33333334)) hkey).trans ?_
    exact Run.next_poll_run_tick rfl (by decide) (by decide) (by decide) (step_spinning ..) rfl
  have hjournal :
      r.journal = [.instruction 0, .tick, .key (.press 3)] ++ .instruction 1 :: [.tick] :=
    congrArg Run.journal hrun
  have hresults : r.polls = [(16666667, .ok 1)] ++ [(33333334, .ok 1)] := congrArg Run.polls hrun
  obtain ⟨hbefore, hafter⟩ := (ticks_on_schedule 0 60 m stimuli).2.2 hmode hpolls
  refine ⟨hmode, hpolls, hjournal, hresults, hbefore _ _ _ hjournal, ?_⟩
  exact hafter _ _ _ 33333334 hresults (by simp) (by rw [hresults]; decide)

end Chip8.Pacer
