import Chip8.Proofs.Account
import Chip8.Proofs.Standstill

/-!
# Chip8 — how far targets go forward

The cycles that are due by some time never become fewer, but a target is their number cut to
sixty-four bits. It goes forward as long as that number fits, and not one nanosecond longer: the
first time at which it does not fit has a target below that of the time before. So no target ever
falls back just if there is at most one instruction for each nanosecond; at every higher rate there
is a time, within the sixty-four bits of a clock, at which one does.

While targets go forward so do the deadlines of ticks, and a machine that can go on does go on with
the next poll that has a later target. From then on a machine may be kept waiting for nothing.

Main statements:

* `exists_due_lt` — where the cycles no longer fit, a target has fallen back;
* `due_mono_iff` — targets go forward up to a time just if the cycles of that time fit;
* `cycles_lt_catchUp` — the loop of a poll gets a machine on that is behind and can step;
* `targets_go_forward` — what goes forward and how long;
* `target_falls_back` — a machine that could go on and is not asked to.
-/

namespace Chip8.Pacer

/-! ## Targets -/

/-- Where the cycles that are due no longer fit into sixty-four bits, a target has fallen back from
one nanosecond to the next. -/
theorem exists_due_lt {rate horizon : Nat} (hrate : rate < bound64)
    (h : bound64 ≤ horizon * rate / second) :
    ∃ elapsed < horizon, due (elapsed + 1) rate < due elapsed rate := by
  -- the last time at which they do
  obtain ⟨elapsed, hlt, hfits, hnext⟩ : ∃ elapsed < horizon,
      elapsed * rate / second < bound64 ∧ bound64 ≤ (elapsed + 1) * rate / second := by
    induction horizon with
    | zero =>
      rw [Nat.zero_mul, Nat.zero_div] at h
      exact absurd h (by decide)
    | succ horizon ih =>
      rcases Nat.lt_or_ge (horizon * rate / second) bound64 with hfits | hbeyond
      · exact ⟨horizon, Nat.lt_succ_self _, hfits, h⟩
      · obtain ⟨elapsed, hlt, hcross⟩ := ih hbeyond
        exact ⟨elapsed, Nat.lt_succ_of_lt hlt, hcross⟩
  refine ⟨elapsed, hlt, ?_⟩
  rw [due_of_lt hfits, due, cut64]
  rw [Nat.add_mul, Nat.one_mul] at hnext ⊢
  -- in a nanosecond fewer cycles fall due than are cut off
  generalize elapsed * rate = product at *
  simp only [second, bound64] at *
  omega

/-- Targets go forward up to some time just if the cycles that are due by then fit into sixty-four
bits. -/
theorem due_mono_iff {rate horizon : Nat} (hrate : rate < bound64) :
    (∀ earlier later, earlier ≤ later → later ≤ horizon → due earlier rate ≤ due later rate)
      ↔ horizon * rate / second < bound64 := by
  constructor
  · intro hmono
    by_contra hbeyond
    obtain ⟨elapsed, hlt, hback⟩ := exists_due_lt hrate (Nat.not_lt.1 hbeyond)
    exact absurd (hmono elapsed (elapsed + 1) (Nat.le_succ _) hlt) (Nat.not_le.2 hback)
  · intro hfits earlier later hle hlater
    have hcycles : later * rate / second ≤ horizon * rate / second :=
      Nat.div_le_div_right (Nat.mul_le_mul_right rate hlater)
    exact due_mono_of_lt hle (Nat.lt_of_le_of_lt hcycles hfits)

/-- Up to the end of the clock targets go forward just if there is no more than one instruction for
each nanosecond. -/
theorem due_mono_word_iff {rate : Nat} (hrate : rate < bound64) :
    (∀ earlier later, earlier ≤ later → later < bound64 → due earlier rate ≤ due later rate)
      ↔ rate ≤ second := by
  have hword : ∀ later, later < bound64 ↔ later ≤ bound64 - 1 := by
    intro later
    simp only [bound64]
    omega
  have hfits : (bound64 - 1) * rate / second < bound64 ↔ rate ≤ second := by
    simp only [second, bound64] at *
    omega
  simp only [hword]
  exact (due_mono_iff hrate).trans hfits

/-! ## Deadlines -/

/-- The deadlines of the ticks that are due by some time go forward if the cycles of that time fit
into sixty-four bits. -/
theorem tickDeadline_mono {tick rate horizon : Nat} (htick : tick < due horizon ticksPerSecond)
    (hfits : horizon * rate / second < bound64) :
    tickDeadline tick rate ≤ tickDeadline (tick + 1) rate := by
  have hnext : tick + 1 ≤ horizon * ticksPerSecond / second := Nat.le_trans htick (due_le _ _)
  rw [tickDeadline_of_le (Nat.le_of_succ_le hnext) hfits, tickDeadline_of_le hnext hfits]
  exact Nat.div_le_div_right (Nat.mul_le_mul_right rate (Nat.le_succ tick))

/-! ## Machines that can go on -/

variable {ρ : Type} [Host ρ] {target quota : Nat} {p : Pacer} {m : Machine ρ}

/-- A machine that can step can step after a tick. -/
theorem ran_step_tick (h : m.step.1 = .ran) : m.tick.step.1 = .ran := by
  by_contra hstill
  have hstep := Machine.step_of_core (Machine.core_tick m).symm rfl hstill
  rw [hstep] at h
  exact hstill h

theorem cycles_lt_of_step {after : Machine ρ} (h : m.step = (.ran, after)) :
    m.cycles < after.cycles := by
  have hcycles := Machine.cycles_step_of_ran (congrArg Prod.fst h)
  rw [h] at hcycles
  exact Nat.lt_of_succ_le hcycles.ge

/-- The loop of a poll takes no instruction back. -/
theorem cycles_le_catchUp (ran : Nat) (told : Array Event) :
    m.cycles ≤ (catchUp target quota p m ran told).machine.cycles := by
  refine catchUp_invariant (fun _ m' => m.cycles ≤ m'.cycles) ?_ ?_ ?_ (Nat.le_refl _) ran told
  · intro _ _ _ h
    exact h
  · intro _ m' after _ _ hstep h
    exact Nat.le_trans h (Nat.le_of_lt (cycles_lt_of_step hstep))
  · intro _ _ _ _ _ h
    exact h

/-- The loop of a poll gets a machine on that is behind the target and can step. -/
theorem cycles_lt_catchUp (hlt : p.cycles < target) (hran : m.step.1 = .ran) (ran : Nat)
    (told : Array Event) : m.cycles < (catchUp target quota p m ran told).machine.cycles := by
  fun_induction catchUp target quota p m ran told with
  | case1 p m ran told hdue ih => exact ih hlt (ran_step_tick hran)
  | case2 p m ran told hdue hlt' after hstep ih =>
    exact Nat.lt_of_lt_of_le (cycles_lt_of_step hstep) (cycles_le_catchUp _ _)
  | case3 p m ran told hdue hlt' after hstep ih =>
    rw [hstep] at hran
    cases hran
  | case4 p m ran told hdue hlt' fault after hstep =>
    rw [hstep] at hran
    cases hran
  | case5 p m ran told hdue hge => exact absurd hlt hge

/-- A run whose polls so far came no later than some time gets a machine on that can step, if more
cycles are due at the next poll than at that time. -/
theorem Run.cycles_lt_poll {start rate now later : Nat} {stimuli : List Stimulus}
    (hpolls : ∀ poll ∈ ((Run.initial start rate m).play stimuli).polls, poll.1 ≤ now)
    (hran : ((Run.initial start rate m).play stimuli).machine.step.1 = .ran)
    (hmore : (now - start) * rate / second < (later - start) * rate / second)
    (hfits : (later - start) * rate / second < bound64) :
    let r := (Run.initial start rate m).play stimuli
    r.machine.cycles < (r.pacer.poll r.machine later).machine.cycles := by
  intro r
  have hpaced : Paced start rate r := paced_play start rate m stimuli
  have htarget : r.pacer.target later = (later - start) * rate / second := by
    rw [target, elapsed, hpaced.start_eq, hpaced.rate_eq, due_of_lt hfits]
  -- the pacer is no further than its clock, however much of the way the machine waited
  have hbehind : r.pacer.cycles < r.pacer.target later := by
    rw [htarget]
    exact Nat.lt_of_le_of_lt (hpaced.bounded now hpolls) hmore
  exact cycles_lt_catchUp hbehind hran 0 #[]

/-- **How long targets go forward.** At any rate, targets go forward up to some time just if the
cycles that are due by then fit into sixty-four bits; up to the end of the clock they do at the
rates up to one instruction for each nanosecond, and at no other. If the cycles of some time fit,
the deadlines of all ticks that are due by then go forward as well. And then every run gets on: if
its polls so far came no later than `now`, at the last of which its machine may have waited, and if
the machine can step now, then a poll for which more cycles are due than for `now` executes at least
one instruction. -/
theorem targets_go_forward {rate : Nat} (hrate : rate < bound64) (horizon : Nat) :
    ((∀ earlier later, earlier ≤ later → later ≤ horizon → due earlier rate ≤ due later rate)
        ↔ horizon * rate / second < bound64) ∧
      ((∀ earlier later, earlier ≤ later → later < bound64 → due earlier rate ≤ due later rate)
        ↔ rate ≤ second) ∧
      (horizon * rate / second < bound64 →
        (∀ tick < due horizon ticksPerSecond,
          tickDeadline tick rate ≤ tickDeadline (tick + 1) rate) ∧
        ∀ (m : Machine ρ) (start now later : Nat) (stimuli : List Stimulus),
          let r := (Run.initial start rate m).play stimuli
          (∀ poll ∈ r.polls, poll.1 ≤ now) → later - start ≤ horizon →
          (now - start) * rate / second < (later - start) * rate / second →
          r.machine.step.1 = .ran →
          r.machine.cycles < (r.pacer.poll r.machine later).machine.cycles) := by
  refine ⟨due_mono_iff hrate, due_mono_word_iff hrate, fun hfits => ⟨?_, ?_⟩⟩
  · intro tick htick
    exact tickDeadline_mono htick hfits
  · intro m start now later stimuli r hpolls hlater hmore hran
    have hcycles : (later - start) * rate / second ≤ horizon * rate / second :=
      Nat.div_le_div_right (Nat.mul_le_mul_right rate hlater)
    exact Run.cycles_lt_poll hpolls hran hmore (Nat.lt_of_le_of_lt hcycles hfits)

theorem not_tickIsDue_zero (p : Pacer) : ¬ p.tickIsDue 0 :=
  fun hdue => Nat.not_lt_zero _ hdue.1

/-- At two instructions for each nanosecond a machine waits for a key when it is polled first, and
gets on when it is polled again a nanosecond later. -/
theorem targets_go_forward_released :
    let m := { spinning programOrigin 0 .allUp with pending := some 0 }
    let r := (Run.initial 0 2000000000 m).play [.poll 1, .key (.press 0)]
    2000000000 < bound64 ∧ 2 * 2000000000 / second < bound64 ∧ r.polls = [(1, .ok 0)] ∧
      2 - 0 ≤ 2 ∧ (1 - 0) * 2000000000 / second < (2 - 0) * 2000000000 / second ∧
      r.machine.step.1 = .ran ∧
      r.machine.cycles < (r.pacer.poll r.machine 2).machine.cycles := by
  intro m r
  -- no tick is due yet, so the poll only skips to its target
  have hloop : effect (catchUp 2 0 ⟨0, 2000000000, 0, 0⟩ m 0 #[])
      = (.ok 0, ⟨0, 2000000000, 2, 0⟩, m) := by
    rw [catchUp_skip (not_tickIsDue_zero _) Nat.zero_lt_two rfl,
      catchUp_reached (not_tickIsDue_zero _) (by decide)]
    rfl
  have hwaited : (Run.initial 0 2000000000 m).next (.poll 1)
      = ⟨⟨0, 2000000000, 2, 0⟩, m, [] ++ deeds 2 0 ⟨0, 2000000000, 0, 0⟩ m, [(1, .ok 0)]⟩ :=
    Run.next_poll (by decide) (by decide) hloop
  have hpolls : r.polls = [(1, .ok 0)] := congrArg Run.polls hwaited
  have hmachine : r.machine = spinning programOrigin 0 (.put .allUp 0 true) :=
    congrArg (fun r' => r'.machine.applyChange (.press 0)) hwaited
  have hran : r.machine.step.1 = .ran := by rw [hmachine, step_spinning]
  have hlatest : ∀ poll ∈ r.polls, poll.1 ≤ 1 := by simp [hpolls]
  obtain ⟨-, -, hforward⟩ :=
    targets_go_forward (ρ := SilentHost) (show 2000000000 < bound64 by decide) 2
  obtain ⟨-, hruns⟩ := hforward (by decide)
  exact ⟨by decide, by decide, hpolls, by decide, by decide, hran,
    hruns m 0 1 2 _ hlatest (by decide) (by decide) hran⟩

/-- At two instructions for each nanosecond the cycles of the time `later` are the first that do not
fit. Its target is zero, and the machine, which waited for a key up to the nanosecond before and was
given the key, is not asked to step. Within a sixtieth of a second the deadline of a tick falls back
as well. -/
theorem target_falls_back :
    let rate := 2000000000
    let earlier := 9223372036854775807
    let later := 9223372036854775808
    let m := Machine.reached {} (SilentHost.mk 0) [.load 4 [0xF0, 0x0A, 0x12, 0x02]]
    let waited := (Pacer.initial 0 rate).poll m earlier
    let released := waited.machine.press 0
    let polled := waited.pacer.poll released later
    rate < bound64 ∧ earlier ≤ later ∧ later < bound64 ∧
      due later rate < due earlier rate ∧
      (∃ tick < due 9223372036866666667 ticksPerSecond,
        tickDeadline (tick + 1) rate < tickDeadline tick rate) ∧
      waited.result = .ok 1 ∧ waited.machine.isWaiting = true ∧ released.step.1 = .ran ∧
      earlier * rate / second < later * rate / second ∧
      polled.result = .ok 0 ∧ polled.machine = released := by
  intro rate earlier later m waited released polled
  have hmode : m.variant.timerMode = .perInstruction := rfl
  -- the first instruction waits for a key, so the rest of the way is skipped
  obtain ⟨hran, hwait, hpressed⟩ : m.step.1 = .ran ∧ m.step.2.isWaiting = true ∧
      (m.step.2.press 0).step.1 = .ran := by
    decide +kernel
  have hstep : m.step = (.ran, m.step.2) := Prod.ext hran rfl
  have htarget : (Pacer.initial 0 rate).target earlier = 18446744073709551614 := by decide
  have hwaited : effect waited = (.ok 1, ⟨0, rate, 18446744073709551614, 0⟩, m.step.2) := by
    have hticks : (Pacer.initial 0 rate).ticks = 0 := rfl
    rw [show waited = _ from poll_perInstruction hmode earlier, htarget, hticks,
      catchUp_run (not_tickIsDue_zero _) (by decide) hstep,
      catchUp_skip (not_tickIsDue_zero _) (by decide) hwait,
      catchUp_reached (not_tickIsDue_zero _) (by decide)]
    rfl
  simp only [effect, Prod.mk.injEq] at hwaited
  obtain ⟨hresult, hpacer, hmachine⟩ := hwaited
  have hreleased : released = m.step.2.press 0 := congrArg (Machine.press · 0) hmachine
  have hreleased_ran : released.step.1 = .ran := hreleased ▸ hpressed
  -- the cycles of the next nanosecond are cut to none
  have hpolled : effect polled = (.ok 0, waited.pacer, released) := by
    have hmode' : released.variant.timerMode = .perInstruction := by
      rw [hreleased, show (m.step.2.press 0).variant = m.step.2.variant from
        Machine.applyChange_variant m.step.2 (.press 0), Machine.step_variant, hmode]
    have hnone : waited.pacer.target later = 0 := by
      rw [hpacer]
      decide
    have hticks : waited.pacer.ticks = 0 := by rw [hpacer]
    rw [show polled = _ from poll_perInstruction hmode' later, hnone, hticks,
      catchUp_reached (not_tickIsDue_zero _) (Nat.zero_le _)]
    rfl
  simp only [effect, Prod.mk.injEq] at hpolled
  obtain ⟨hnone, -, hsame⟩ := hpolled
  refine ⟨by decide, by decide, by decide, by decide, ⟨553402322211, by decide, by decide⟩, hresult,
    ?_, hreleased_ran, by decide, hnone, hsame⟩
  rw [hmachine]
  exact hwait

end Chip8.Pacer
