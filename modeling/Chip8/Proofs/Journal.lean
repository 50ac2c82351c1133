import Chip8.Proofs.CatchUp

/-!
# Chip8 — the journal of a run

A journal says, one entry after another, what a pacer and the keys did to a machine: the timers
ticked, an instruction was executed at some cycle of the pacer, the pacer skipped the rest of a
wait, a key changed. It is a full account: `replay` runs through it and checks every entry against
the pacer and the machine that the entries before it left.

A run starts with a new pacer and goes on with polls and changes of keys in any order.

Main statements:

* `replay_deeds` — the deeds of a poll account for what the poll leaves behind;
* `replay_countP` — what every deed of some kind counts, the journal counts;
* `Run.replay_play` — the journal of a run accounts for the whole run;
* `replay_ticks` — the pacer has made as many ticks as its journal says.
-/

namespace Chip8.Pacer

variable {ρ : Type} [Host ρ]

/-! ## Deeds -/

/-- One entry of a journal. -/
inductive Deed where
  -- the pacer ticks the timers
  | tick
  -- the pacer has an instruction executed at this cycle
  | instruction (cycle : Nat)
  -- the pacer skips to this cycle, as the machine waits
  | skip (cycle : Nat)
  -- a key changes
  | key (change : KeyChange)
  deriving DecidableEq

/-- What the loop of a poll does, turn by turn. A failing instruction is no deed. -/
def deeds (target quota : Nat) (p : Pacer) (m : Machine ρ) : List Deed :=
  if p.tickIsDue quota then
    .tick :: deeds target quota { p with ticks := p.ticks + 1 } m.tick
  else if p.cycles < target then
    match m.step with
    | (.ran, after) =>
      .instruction p.cycles :: deeds target quota { p with cycles := p.cycles + 1 } after
    | (.blocked, after) => .skip target :: deeds target quota { p with cycles := target } after
    | (.failed _, _) => []
  else []
termination_by (target - p.cycles) + (quota - p.ticks)
decreasing_by
  all_goals simp only [tickIsDue] at *
  all_goals omega

section Turns

variable {target quota : Nat} {p : Pacer} {m : Machine ρ}

theorem deeds_tick (h : p.tickIsDue quota) :
    deeds target quota p m
      = .tick :: deeds target quota { p with ticks := p.ticks + 1 } m.tick := by
  rw [deeds, if_pos h]

theorem deeds_run {after : Machine ρ} (h : ¬ p.tickIsDue quota) (hlt : p.cycles < target)
    (hstep : m.step = (.ran, after)) :
    deeds target quota p m
      = .instruction p.cycles :: deeds target quota { p with cycles := p.cycles + 1 } after := by
  rw [deeds, if_neg h, if_pos hlt, hstep]

theorem deeds_skip (h : ¬ p.tickIsDue quota) (hlt : p.cycles < target)
    (hwait : m.isWaiting = true) :
    deeds target quota p m = .skip target :: deeds target quota { p with cycles := target } m := by
  rw [deeds, if_neg h, if_pos hlt, Machine.step_of_isWaiting hwait]

theorem deeds_fail {after : Machine ρ} {fault : Fault} (h : ¬ p.tickIsDue quota)
    (hlt : p.cycles < target) (hstep : m.step = (.failed fault, after)) :
    deeds target quota p m = [] := by
  rw [deeds, if_neg h, if_pos hlt, hstep]

theorem deeds_reached (h : ¬ p.tickIsDue quota) (hge : target ≤ p.cycles) :
    deeds target quota p m = [] := by
  rw [deeds, if_neg h, if_neg (Nat.not_lt.2 hge)]

end Turns

/-- The deeds of a poll. -/
def pollDeeds (p : Pacer) (m : Machine ρ) (now : Nat) : List Deed :=
  deeds (p.target now) (p.quota now m.variant.timerMode) p m

/-- What a deed makes of a pacer and a machine, if it is possible there: an instruction has to stand
at the cycle of the pacer and to be executable, and nothing is skipped unless the machine waits. -/
def perform : Pacer × Machine ρ → Deed → Option (Pacer × Machine ρ)
  | (p, m), .tick => some ({ p with ticks := p.ticks + 1 }, m.tick)
  | (p, m), .instruction cycle =>
    match m.step with
    | (.ran, after) =>
      if cycle = p.cycles then some ({ p with cycles := p.cycles + 1 }, after) else none
    | _ => none
  | (p, m), .skip cycle => if m.isWaiting then some ({ p with cycles := cycle }, m) else none
  | (p, m), .key change => some (p, m.applyChange change)

/-- What a journal makes of a pacer and a machine, if every entry is possible where it stands. -/
def replay (start : Pacer × Machine ρ) (journal : List Deed) : Option (Pacer × Machine ρ) :=
  journal.foldlM perform start

/-- The deeds of the loop account for what it leaves behind. -/
theorem replay_deeds (target quota : Nat) (p : Pacer) (m : Machine ρ) (ran : Nat)
    (told : Array Event) :
    replay (p, m) (deeds target quota p m)
      = some ((catchUp target quota p m ran told).pacer,
          (catchUp target quota p m ran told).machine) := by
  -- each turn of the loop is one deed, and replaying starts with the same turn
  fun_induction catchUp target quota p m ran told with
  | case1 p m ran told hdue ih =>
    rw [deeds_tick hdue]
    exact ih
  | case2 p m ran told hdue hlt after hstep ih =>
    rw [deeds_run hdue hlt hstep]
    simpa [replay, perform, hstep] using ih
  | case3 p m ran told hdue hlt after hstep ih =>
    have hwait := Machine.isWaiting_of_step hstep
    obtain rfl := Machine.step_eq_self hstep (by simp)
    rw [deeds_skip hdue hlt hwait]
    simpa [replay, perform, hwait] using ih
  | case4 p m ran told hdue hlt fault after hstep =>
    obtain rfl := Machine.step_eq_self hstep (by simp)
    rw [deeds_fail hdue hlt hstep]
    rfl
  | case5 p m ran told hdue hlt =>
    rw [deeds_reached hdue (Nat.not_lt.1 hlt)]
    rfl

/-! ## What a deed asks for -/

/-- An instruction in a journal was executed where the pacer was. -/
theorem perform_instruction {p : Pacer} {m : Machine ρ} {cycle : Nat} {after : Pacer × Machine ρ}
    (h : perform (p, m) (.instruction cycle) = some after) :
    m.step.1 = .ran ∧ cycle = p.cycles ∧
      after = ({ p with cycles := p.cycles + 1 }, m.step.2) := by
  simp only [perform] at h
  split at h
  · rename_i next hstep
    split at h
    · rename_i hcycle
      cases h
      rw [hstep]
      exact ⟨rfl, hcycle, rfl⟩
    · cases h
  · cases h

/-- A skip in a journal found the machine waiting. -/
theorem perform_skip {p : Pacer} {m : Machine ρ} {cycle : Nat} {after : Pacer × Machine ρ}
    (h : perform (p, m) (.skip cycle) = some after) :
    m.isWaiting = true ∧ after = ({ p with cycles := cycle }, m) := by
  simp only [perform] at h
  split at h
  · rename_i hwait
    cases h
    exact ⟨hwait, rfl⟩
  · cases h

/-- What grows by one with every deed of some kind has grown by their number in the journal. -/
theorem replay_countP (quantity : Pacer × Machine ρ → Nat) {kind : Deed → Bool}
    (hperform : ∀ {start after : Pacer × Machine ρ} {deed : Deed},
      perform start deed = some after → quantity after = quantity start + [deed].countP kind)
    {start after : Pacer × Machine ρ} {journal : List Deed}
    (h : replay start journal = some after) :
    quantity after = quantity start + journal.countP kind := by
  induction journal generalizing start with
  | nil =>
    cases h
    rfl
  | cons deed journal ih =>
    rw [replay, List.foldlM_cons] at h
    obtain ⟨next, hnext, hrest⟩ := Option.bind_eq_some_iff.1 h
    rw [ih hrest, hperform hnext, Nat.add_assoc, ← List.countP_append, List.singleton_append]

theorem perform_ticks {start after : Pacer × Machine ρ} {deed : Deed}
    (h : perform start deed = some after) :
    after.1.ticks = start.1.ticks + [deed].count .tick := by
  obtain ⟨p, m⟩ := start
  cases deed with
  | tick =>
    cases h
    rfl
  | instruction cycle =>
    obtain ⟨-, -, rfl⟩ := perform_instruction h
    rfl
  | skip cycle =>
    obtain ⟨-, rfl⟩ := perform_skip h
    rfl
  | key change =>
    cases h
    rfl

/-- The pacer has made as many ticks as the journal says. -/
theorem replay_ticks {start after : Pacer × Machine ρ} {journal : List Deed}
    (h : replay start journal = some after) :
    after.1.ticks = start.1.ticks + journal.count .tick :=
  replay_countP (fun state => state.1.ticks) perform_ticks h

/-! ## Runs -/

/-- What happens to a machine with a pacer. -/
inductive Stimulus where
  -- the pacer is polled at this time
  | poll (now : Nat)
  -- a key changes
  | key (change : KeyChange)
  deriving DecidableEq

/-- A run so far. -/
structure Run (ρ : Type) where
  pacer : Pacer
  machine : Machine ρ
  journal : List Deed := []
  -- the polls so far, each with its time and its result
  polls : List (Nat × Except Fault Nat) := []

namespace Run

/-- A run that begins at some time with a pacer of some rate. -/
def initial (start rate : Nat) (m : Machine ρ) : Run ρ where
  pacer := .initial start rate
  machine := m

/-- The run with what happens next. -/
def next (r : Run ρ) : Stimulus → Run ρ
  | .poll now =>
    let polled := r.pacer.poll r.machine now
    { pacer := polled.pacer
      machine := polled.machine
      journal := r.journal ++ r.pacer.pollDeeds r.machine now
      polls := r.polls ++ [(now, polled.result)] }
  | .key change =>
    { r with
      machine := r.machine.applyChange change
      journal := r.journal ++ [.key change] }

/-- The run with all that happens from then on. -/
def play (r : Run ρ) (stimuli : List Stimulus) : Run ρ :=
  stimuli.foldl next r

/-- What a poll adds to a run, told from what its loop leaves behind. -/
theorem next_poll {r : Run ρ} {now target quota : Nat} {result : Except Fault Nat} {p : Pacer}
    {m : Machine ρ} (htarget : r.pacer.target now = target)
    (hquota : r.pacer.quota now r.machine.variant.timerMode = quota)
    (hloop : effect (catchUp target quota r.pacer r.machine 0 #[]) = (result, p, m)) :
    r.next (.poll now)
      = { pacer := p
          machine := m
          journal := r.journal ++ deeds target quota r.pacer r.machine
          polls := r.polls ++ [(now, result)] } := by
  subst htarget hquota
  simp only [effect, Prod.mk.injEq] at hloop
  obtain ⟨rfl, rfl, rfl⟩ := hloop
  rfl

/-- What holds of a run and is kept by all that can happen next holds from then on. -/
theorem play_invariant (Inv : Run ρ → Prop) {stimuli : List Stimulus} {r : Run ρ} (h : Inv r)
    (hnext : ∀ r, ∀ stimulus ∈ stimuli, Inv r → Inv (r.next stimulus)) :
    Inv (r.play stimuli) := by
  induction stimuli generalizing r with
  | nil => exact h
  | cons stimulus stimuli ih =>
    exact ih (hnext r stimulus (List.mem_cons_self ..) h) fun r s hs =>
      hnext r s (List.mem_cons_of_mem _ hs)

/-- The entries that are added to a journal account for what happened next. -/
theorem replay_next {start : Pacer × Machine ρ} {r : Run ρ}
    (h : replay start r.journal = some (r.pacer, r.machine)) (stimulus : Stimulus) :
    replay start (r.next stimulus).journal
      = some ((r.next stimulus).pacer, (r.next stimulus).machine) := by
  -- what is added to the journal is replayed from where the rest of it led
  cases stimulus with
  | poll now =>
    rw [next, replay, List.foldlM_append, ← replay, h]
    exact replay_deeds _ _ _ _ 0 #[]
  | key change =>
    rw [next, replay, List.foldlM_append, ← replay, h]
    rfl

/-- The journal of a run accounts for the whole run. -/
theorem replay_play (start rate : Nat) (m : Machine ρ) (stimuli : List Stimulus) :
    replay (Pacer.initial start rate, m) ((initial start rate m).play stimuli).journal
      = some (((initial start rate m).play stimuli).pacer,
          ((initial start rate m).play stimuli).machine) := by
  refine play_invariant
    (fun r => replay (Pacer.initial start rate, m) r.journal = some (r.pacer, r.machine)) ?_ ?_
  · rfl
  · intro r stimulus _ h
    exact replay_next h stimulus

end Run

end Chip8.Pacer
