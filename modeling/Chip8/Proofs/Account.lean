import Chip8.Proofs.Outcome
import Chip8.Proofs.TickSchedule

/-!
# Chip8 — what a pacer accounts for

A pacer counts cycles: one for each instruction that it had executed, and those that it skipped
while the machine waited. A poll brings the count to its target, or stops in front of a fault; it
skips only on behalf of a machine that waits. So a pacer never has more instructions executed than
its clock allows, and a wait leaves nothing to be made up for.

Main statements:

* `length_deeds_le` — the loop of a poll ends after so many turns;
* `catchUp_account` — what the loop counts, on each of its ways out;
* `Paced.poll` — what a poll adds to a run;
* `polls_keep_account` — the account of every poll, and of every run.
-/

namespace Chip8.Pacer

/-- An entry of a journal is an instruction. -/
def Deed.isInstruction : Deed → Bool
  | .instruction _ => true
  | _ => false

/-- How many instructions were executed by a journal. -/
def executed (journal : List Deed) : Nat :=
  journal.countP Deed.isInstruction

theorem executed_append (before after : List Deed) :
    executed (before ++ after) = executed before + executed after :=
  List.countP_append

/-! ## The account of a loop -/

variable {ρ : Type}

/-- What the loop counts: so many instructions on the way from one cycle to the target, all of it
unless the machine waits, or up to a fault. -/
structure LoopAccount (target cycles ran : Nat) (made : List Deed) (polled : Polled ρ) : Prop where
  ok : ∀ n, polled.result = .ok n →
    n = ran + executed made ∧ polled.pacer.cycles = max cycles target ∧
    executed made ≤ target - cycles ∧
    (executed made < target - cycles → polled.machine.isWaiting = true)
  error : ∀ fault, polled.result = .error fault → polled.pacer.cycles = cycles + executed made

variable {target cycles ran : Nat} {made : List Deed} {polled : Polled ρ}

theorem LoopAccount.tick (h : LoopAccount target cycles ran made polled) :
    LoopAccount target cycles ran (.tick :: made) polled :=
  ⟨h.ok, h.error⟩

/-- An instruction in front is one more cycle of the way and one more of the count. -/
theorem LoopAccount.run (hlt : cycles < target)
    (h : LoopAccount target (cycles + 1) (ran + 1) made polled) :
    LoopAccount target cycles ran (.instruction cycles :: made) polled := by
  have hmade : executed (.instruction cycles :: made) = executed made + 1 :=
    List.countP_cons_of_pos rfl
  constructor
  case ok =>
    intro n hn
    obtain ⟨hcount, harrives, hwithin, hwaits⟩ := h.ok n hn
    rw [hmade]
    exact ⟨by omega, by omega, by omega, fun hless => hwaits (by omega)⟩
  case error =>
    intro fault hfault
    rw [h.error fault hfault, hmade]
    omega

/-- A skip in front leaves nothing of the way, and the machine goes on to wait. -/
theorem LoopAccount.skip (hlt : cycles < target) (h : LoopAccount target target ran made polled)
    (hwait : polled.machine.isWaiting = true)
    (hshort : ∀ fault, polled.result = .error fault → polled.pacer.cycles < target) :
    LoopAccount target cycles ran (.skip target :: made) polled := by
  have hmade : executed (.skip target :: made) = executed made :=
    List.countP_cons_of_neg (by simp [Deed.isInstruction])
  constructor
  case ok =>
    intro n hn
    obtain ⟨hcount, harrives, hwithin, -⟩ := h.ok n hn
    rw [hmade]
    exact ⟨hcount, by omega, by omega, fun _ => hwait⟩
  case error =>
    -- at the target no fault can stop the loop
    intro fault hfault
    have hstops := h.error fault hfault
    have hless := hshort fault hfault
    omega

theorem loopAccount_fail (fault : Fault) (p : Pacer) (m : Machine ρ) (told : Array Event) :
    LoopAccount target p.cycles ran [] ⟨.error fault, p, m, told⟩ where
  ok := by
    intro n hn
    cases hn
  error _ _ := rfl

theorem loopAccount_reached {p : Pacer} (hge : target ≤ p.cycles) (m : Machine ρ)
    (told : Array Event) : LoopAccount target p.cycles ran [] ⟨.ok ran, p, m, told⟩ where
  ok := by
    intro n hn
    cases hn
    refine ⟨rfl, (Nat.max_eq_left hge).symm, Nat.zero_le _, fun hless => ?_⟩
    omega
  error := by
    intro fault hfault
    cases hfault

/-! ## The count of the machine -/

variable [Host ρ]

theorem perform_cycles {start after : Pacer × Machine ρ} {deed : Deed}
    (h : perform start deed = some after) :
    after.2.cycles = start.2.cycles + executed [deed] := by
  obtain ⟨p, m⟩ := start
  cases deed with
  | tick =>
    cases h
    rfl
  | instruction cycle =>
    obtain ⟨hran, -, rfl⟩ := perform_instruction h
    exact Machine.cycles_step_of_ran hran
  | skip cycle =>
    obtain ⟨-, rfl⟩ := perform_skip h
    rfl
  | key change =>
    cases h
    exact Machine.applyChange_cycles m change

/-- The machine has counted the instructions that a journal accounts for. -/
theorem replay_cycles {start after : Pacer × Machine ρ} {journal : List Deed}
    (h : replay start journal = some after) :
    after.2.cycles = start.2.cycles + executed journal :=
  replay_countP (fun state => state.2.cycles) perform_cycles h

/-! ## The loop of a poll -/

variable {quota : Nat} {p : Pacer} {m : Machine ρ}

/-- The loop ends after as many turns as there are cycles to the target and ticks to the quota. -/
theorem length_deeds_le (target quota : Nat) (p : Pacer) (m : Machine ρ) :
    (deeds target quota p m).length ≤ (target - p.cycles) + (quota - p.ticks) := by
  fun_induction deeds target quota p m with
  | case1 p m hdue ih =>
    have hquota := hdue.1
    simp only [List.length_cons] at ih ⊢
    omega
  | case2 p m hdue hlt after hstep ih =>
    simp only [List.length_cons] at ih ⊢
    omega
  | case3 p m hdue hlt after hstep ih =>
    simp only [List.length_cons] at ih ⊢
    omega
  | case4 => exact Nat.zero_le _
  | case5 => exact Nat.zero_le _

theorem catchUp_isWaiting (hwait : m.isWaiting = true) (ran : Nat) (told : Array Event) :
    (catchUp target quota p m ran told).machine.isWaiting = true := by
  refine catchUp_invariant (fun _ m' => m'.isWaiting = true) ?_ ?_ ?_ hwait ran told
  · intro _ _ _ h
    exact h
  · intro _ m' after _ _ hstep h
    rw [Machine.step_of_isWaiting h] at hstep
    cases hstep
  · intro _ _ _ _ h _
    exact h

theorem catchUp_account (ran : Nat) (told : Array Event) :
    LoopAccount target p.cycles ran (deeds target quota p m)
      (catchUp target quota p m ran told) := by
  fun_induction catchUp target quota p m ran told with
  | case1 p m ran told hdue ih =>
    rw [deeds_tick hdue]
    exact ih.tick
  | case2 p m ran told hdue hlt after hstep ih =>
    rw [deeds_run hdue hlt hstep]
    exact ih.run hlt
  | case3 p m ran told hdue hlt after hstep ih =>
    have hwait := Machine.isWaiting_of_step hstep
    obtain rfl := Machine.step_eq_self hstep (by simp)
    rw [deeds_skip hdue hlt hwait]
    exact ih.skip hlt (catchUp_isWaiting hwait _ _) (catchUp_settled _ _).short
  | case4 p m ran told hdue hlt fault after hstep =>
    rw [deeds_fail hdue hlt hstep]
    exact loopAccount_fail fault p after _
  | case5 p m ran told hdue hlt =>
    rw [deeds_reached hdue (Nat.not_lt.1 hlt)]
    exact loopAccount_reached (Nat.not_lt.1 hlt) m told

/-! ## A poll -/

/-- What a poll accounts for, with the target that it works out. -/
structure PollAccount (p : Pacer) (m : Machine ρ) (now : Nat) : Prop where
  -- the deeds of the poll are all that it does, and it ends after so many turns
  replayed : replay (p, m) (p.pollDeeds m now)
    = some ((p.poll m now).pacer, (p.poll m now).machine)
  turns : (p.pollDeeds m now).length
    ≤ (p.target now - p.cycles) + (p.quota now m.variant.timerMode - p.ticks)
  -- the machine has counted the same instructions
  counted : (p.poll m now).machine.cycles = m.cycles + executed (p.pollDeeds m now)
  -- a poll that gets through is at the target; what it did not execute on the way was a wait
  ok : ∀ n, (p.poll m now).result = .ok n →
    (p.poll m now).pacer.cycles = max p.cycles (p.target now) ∧
    executed (p.pollDeeds m now) = n ∧
    n ≤ max p.cycles (p.target now) - p.cycles ∧
    (n < max p.cycles (p.target now) - p.cycles → (p.poll m now).machine.isWaiting = true)
  -- a poll that fails is short of the target, behind what it executed and in front of the fault
  error : ∀ fault, (p.poll m now).result = .error fault →
    (p.poll m now).pacer.cycles = p.cycles + executed (p.pollDeeds m now) ∧
    (p.poll m now).pacer.cycles < p.target now ∧
    (p.poll m now).machine.step = (.failed fault, (p.poll m now).machine)

theorem poll_account (p : Pacer) (m : Machine ρ) (now : Nat) : PollAccount p m now := by
  have haccount : LoopAccount (p.target now) p.cycles 0 (p.pollDeeds m now) (p.poll m now) :=
    catchUp_account 0 #[]
  have hsettled : Settled (p.target now) (p.quota now m.variant.timerMode) (p.poll m now) :=
    catchUp_settled 0 #[]
  have hreplay : replay (p, m) (p.pollDeeds m now)
      = some ((p.poll m now).pacer, (p.poll m now).machine) := replay_deeds _ _ _ _ 0 #[]
  have hway : max p.cycles (p.target now) - p.cycles = p.target now - p.cycles := by omega
  constructor
  case replayed => exact hreplay
  case turns => exact length_deeds_le _ _ p m
  case counted => exact replay_cycles hreplay
  case ok =>
    intro n hn
    obtain ⟨hcount, harrives, hwithin, hwaits⟩ := haccount.ok n hn
    rw [Nat.zero_add] at hcount
    rw [hway, hcount]
    exact ⟨harrives, rfl, hwithin, hwaits⟩
  case error =>
    intro fault hfault
    exact ⟨haccount.error fault hfault, hsettled.short fault hfault,
      hsettled.failing fault hfault⟩

theorem cycles_poll_le (p : Pacer) (m : Machine ρ) (now : Nat) :
    (p.poll m now).pacer.cycles ≤ max p.cycles (p.target now) := by
  have haccount := poll_account p m now
  cases hresult : (p.poll m now).result with
  | ok n => exact Nat.le_of_eq (haccount.ok n hresult).1
  | error fault =>
    have hshort := (haccount.error fault hresult).2.1
    exact Nat.le_trans (Nat.le_of_lt hshort) (Nat.le_max_right ..)

/-- The instructions of a poll are among the cycles by which it moves the pacer. -/
theorem executed_pollDeeds_le (p : Pacer) (m : Machine ρ) (now : Nat) :
    p.cycles + executed (p.pollDeeds m now) ≤ (p.poll m now).pacer.cycles := by
  have haccount := poll_account p m now
  cases hresult : (p.poll m now).result with
  | ok n =>
    obtain ⟨hcycles, hcount, hwithin, -⟩ := haccount.ok n hresult
    omega
  | error fault => exact Nat.le_of_eq (haccount.error fault hresult).1.symm

/-! ## Runs -/

theorem due_le (elapsed rate : Nat) : due elapsed rate ≤ elapsed * rate / second :=
  Nat.mod_le ..

/-- In a run, the instructions executed from some point on are among the cycles by which the pacer
has moved since. -/
theorem executed_play_le (r : Run ρ) (stimuli : List Stimulus) :
    executed (r.play stimuli).journal + r.pacer.cycles
      ≤ executed r.journal + (r.play stimuli).pacer.cycles := by
  refine Run.play_invariant
    (fun r' => executed r'.journal + r.pacer.cycles ≤ executed r.journal + r'.pacer.cycles)
    (Nat.le_refl _) ?_
  intro r' stimulus _ h
  cases stimulus with
  | poll now =>
    have hpoll := executed_pollDeeds_le r'.pacer r'.machine now
    rw [Run.next, executed_append]
    dsimp only
    omega
  | key change =>
    have hkey : executed [.key change] = 0 := rfl
    rw [Run.next, executed_append, hkey]
    exact h

/-- How far the pacer of a run is: where its polls got through, and no further than its clock. -/
structure Paced (start rate : Nat) (r : Run ρ) : Prop where
  start_eq : r.pacer.start = start
  rate_eq : r.pacer.rate = rate
  reached : ∀ now n, (now, .ok n) ∈ r.polls → due (now - start) rate ≤ r.pacer.cycles
  bounded : ∀ now, (∀ poll ∈ r.polls, poll.1 ≤ now) →
    r.pacer.cycles ≤ (now - start) * rate / second

omit [Host ρ] in
theorem paced_initial (start rate : Nat) (m : Machine ρ) :
    Paced start rate (Run.initial start rate m) where
  start_eq := rfl
  rate_eq := rfl
  reached := by simp [Run.initial]
  bounded _ _ := Nat.zero_le _

theorem Paced.poll {start rate : Nat} {r : Run ρ} (h : Paced start rate r) (now : Nat) :
    Paced start rate (r.next (.poll now)) := by
  obtain ⟨hstart, hrate, -⟩ := poll_frame r.pacer r.machine now
  have htarget : r.pacer.target now = due (now - start) rate := by
    rw [target, elapsed, h.start_eq, h.rate_eq]
  constructor
  case start_eq => exact hstart.trans h.start_eq
  case rate_eq => exact hrate.trans h.rate_eq
  case reached =>
    intro time n hmem
    rcases List.mem_append.1 hmem with hold | hnew
    -- the pacer does not go back behind what it had reached
    · exact Nat.le_trans (h.reached time n hold) (catchUp_mono 0 #[]).1
    · simp only [List.mem_singleton, Prod.mk.injEq] at hnew
      obtain ⟨rfl, hok⟩ := hnew
      have hcycles := ((poll_account r.pacer r.machine time).ok n hok.symm).1
      rw [← htarget, Run.next, hcycles]
      exact Nat.le_max_right ..
  case bounded =>
    intro latest hlatest
    have hnow : now ≤ latest :=
      hlatest _ (List.mem_append_right _ (List.mem_singleton_self _))
    have hold : r.pacer.cycles ≤ (latest - start) * rate / second :=
      h.bounded latest fun poll hpoll => hlatest poll (List.mem_append_left _ hpoll)
    have hnew : r.pacer.target now ≤ (latest - start) * rate / second := by
      rw [htarget]
      refine Nat.le_trans (due_le _ _) (Nat.div_le_div_right ?_)
      exact Nat.mul_le_mul_right _ (Nat.sub_le_sub_right hnow _)
    exact Nat.le_trans (cycles_poll_le _ _ _) (Nat.max_le.2 ⟨hold, hnew⟩)

theorem paced_play (start rate : Nat) (m : Machine ρ) (stimuli : List Stimulus) :
    Paced start rate ((Run.initial start rate m).play stimuli) := by
  refine Run.play_invariant (Paced start rate) (paced_initial start rate m) ?_
  intro r stimulus _ h
  cases stimulus with
  | poll now => exact h.poll now
  -- a key moves neither the pacer nor the polls
  | key change => exact ⟨h.start_eq, h.rate_eq, h.reached, h.bounded⟩

theorem Run.play_append (r : Run ρ) (first later : List Stimulus) :
    r.play (first ++ later) = (r.play first).play later :=
  List.foldl_append ..

/-- **Polls keep their account.** Every poll, by any pacer of any machine, ends at its target with
the instructions it names, or in front of the fault it names; what it did not execute on the way to
the target was a wait, and the machine still waits. So take any run of polls and changes of keys
from a new pacer, and a time `now` no earlier than its polls (the time of the last one, if these are
in order). The run has executed no more than is due by then; and what it executed after any earlier
point is no more than what fell due since a poll that had got through by that point, however long
the machine waited before. -/
theorem polls_keep_account (p : Pacer) (m : Machine ρ) (polled start rate : Nat)
    (first later : List Stimulus) :
    PollAccount p m polled ∧
    let r₁ := (Run.initial start rate m).play first
    let r₂ := r₁.play later
    replay (Pacer.initial start rate, m) r₂.journal = some (r₂.pacer, r₂.machine) ∧
    r₂.machine.cycles = m.cycles + executed r₂.journal ∧
    ∀ now, (∀ poll ∈ r₂.polls, poll.1 ≤ now) →
      executed r₂.journal ≤ (now - start) * rate / second ∧
      ∀ time n, (time, .ok n) ∈ r₁.polls → (time - start) * rate / second < bound64 →
        executed r₂.journal + (time - start) * rate / second
          ≤ executed r₁.journal + (now - start) * rate / second := by
  refine ⟨poll_account p m polled, ?_⟩
  intro r₁ r₂
  have hwhole : (Run.initial start rate m).play (first ++ later) = r₂ := Run.play_append ..
  have hreplay : replay (Pacer.initial start rate, m) r₂.journal = some (r₂.pacer, r₂.machine) :=
    hwhole ▸ Run.replay_play start rate m (first ++ later)
  have hpaced : Paced start rate r₂ := hwhole ▸ paced_play start rate m (first ++ later)
  refine ⟨hreplay, replay_cycles hreplay, ?_⟩
  intro now hnow
  have hcycles : r₂.pacer.cycles ≤ (now - start) * rate / second := hpaced.bounded now hnow
  refine ⟨?_, ?_⟩
  · -- a new pacer is at cycle zero, with nothing executed
    have hrun : executed r₂.journal + 0 ≤ executed [] + r₂.pacer.cycles :=
      hwhole ▸ executed_play_le (Run.initial start rate m) (first ++ later)
    have hnone : executed [] = 0 := rfl
    rw [Nat.add_zero, hnone, Nat.zero_add] at hrun
    exact Nat.le_trans hrun hcycles
  · intro time n hok hcut
    have hreached := (paced_play start rate m first).reached time n hok
    rw [due_of_lt hcut] at hreached
    have hrun := executed_play_le r₁ later
    calc executed r₂.journal + (time - start) * rate / second
        ≤ executed r₂.journal + r₁.pacer.cycles := Nat.add_le_add_left hreached _
      _ ≤ executed r₁.journal + r₂.pacer.cycles := hrun
      _ ≤ executed r₁.journal + (now - start) * rate / second := Nat.add_le_add_left hcycles _

/-- Two polls at sixty instructions in a second, with the awaited key between them: what the machine
missed while it waited is not made up for. -/
theorem polls_keep_account_waiting :
    let m := { spinning programOrigin 0 .allUp with pending := some 0 }
    let first : List Stimulus := [.poll 16666667, .key (.press 0)]
    let r₁ := (Run.initial 0 60 m).play first
    let r₂ := r₁.play [.poll 33333334]
    r₁.polls = [(16666667, .ok 0)] ∧ r₁.journal = [.skip 1, .tick, .key (.press 0)] ∧
    r₂.polls = r₁.polls ++ [(33333334, .ok 1)] ∧
    r₂.journal = r₁.journal ++ [.instruction 1, .tick] ∧
    executed r₂.journal + (16666667 - 0) * 60 / second
      ≤ executed r₁.journal + (33333334 - 0) * 60 / second := by
  intro m first r₁ r₂
  have hwait : m.isWaiting = true := rfl
  have htick : m.tick = m := rfl
  -- the poll skips to its target, and the tick of the cycle there is due
  have hearly : ¬ tickIsDue ⟨0, 60, 0, 0⟩ 1 := by decide
  have hdue : tickIsDue ⟨0, 60, 1, 0⟩ 1 := by decide
  have hmade : ¬ tickIsDue ⟨0, 60, 1, 1⟩ 1 := by decide
  have hloop : effect (catchUp 1 1 ⟨0, 60, 0, 0⟩ m 0 #[]) = (.ok 0, ⟨0, 60, 1, 1⟩, m) := by
    rw [catchUp_skip hearly Nat.zero_lt_one hwait, catchUp_tick hdue, htick,
      catchUp_reached hmade (Nat.le_refl _)]
    rfl
  have hdeeds : deeds 1 1 ⟨0, 60, 0, 0⟩ m = [.skip 1, .tick] := by
    rw [deeds_skip hearly Nat.zero_lt_one hwait, deeds_tick hdue,
      deeds_reached hmade (Nat.le_refl _)]
  have hwaited : (Run.initial 0 60 m).next (.poll 16666667)
      = ⟨⟨0, 60, 1, 1⟩, m, [.skip 1, .tick], [(16666667, .ok 0)]⟩ := by
    rw [Run.next_poll (by decide) (by decide) hloop]
    exact congrArg (Run.mk _ _ · _) hdeeds
  have hfirst : r₁ = ⟨⟨0, 60, 1, 1⟩, spinning programOrigin 0 (.put .allUp 0 true),
      [.skip 1, .tick, .key (.press 0)], [(16666667, .ok 0)]⟩ :=
    congrArg (Run.next · (.key (.press 0))) hwaited
  have hsecond : r₂ = ⟨⟨0, 60, 2, 2⟩, spinning 0x212 1 (.put .allUp 0 true),
      [.skip 1, .tick, .key (.press 0), .instruction 1, .tick],
      [(16666667, .ok 0), (33333334, .ok 1)]⟩ := by
    refine (congrArg (Run.next · (.poll 33333334)) hfirst).trans ?_
    exact Run.next_poll_run_tick rfl (by decide) (by decide) (by decide) (step_spinning ..) rfl
  have hmem : (16666667, .ok 0) ∈ r₁.polls := by
    rw [hfirst]
    exact List.mem_singleton_self _
  have hlatest : ∀ poll ∈ r₂.polls, poll.1 ≤ 33333334 := by
    simp [hsecond]
  obtain ⟨-, hsince⟩ := (polls_keep_account (.initial 0 60) m 0 0 60 first
    [.poll 33333334]).2.2.2 33333334 hlatest
  refine ⟨congrArg Run.polls hfirst, congrArg Run.journal hfirst, ?_, ?_,
    hsince 16666667 0 hmem (by decide)⟩
  · rw [hsecond, hfirst]
    rfl
  · rw [hsecond, hfirst]
    rfl

end Chip8.Pacer
