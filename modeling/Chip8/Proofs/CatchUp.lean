import Chip8.Proofs.Schedule
import Chip8.Proofs.Step
import Mathlib.Logic.Function.Iterate

/-!
# Chip8 — catching up

What the loop of a poll does between its first turn and its last. A turn ticks the timers, executes
an instruction, or skips to the target because the machine waits; the loop ends when the target is
reached or an instruction fails.

Main statements:

* `catchUp_invariant` — what every turn keeps, the loop keeps;
* `catchUp_effect` — the count and the events handed to the loop are only added to;
* `catchUp_of_isWaiting` — the loop on a machine that waits makes all its ticks and skips;
* `catchUp_settled` — where the loop ends, it has nothing left to do;
* `catchUp_extend` — catching up with a target on the way changes nothing.
-/

namespace Chip8.Pacer

variable {ρ : Type} [Host ρ] {target quota : Nat} {p : Pacer} {m : Machine ρ}

/-! ## Turns of the loop -/

theorem catchUp_tick (h : p.tickIsDue quota) (ran : Nat) (told : Array Event) :
    catchUp target quota p m ran told
      = catchUp target quota { p with ticks := p.ticks + 1 } m.tick ran (told ++ m.tickEvents) := by
  rw [catchUp, if_pos h]

theorem catchUp_run {after : Machine ρ} (h : ¬ p.tickIsDue quota) (hlt : p.cycles < target)
    (hstep : m.step = (.ran, after)) (ran : Nat) (told : Array Event) :
    catchUp target quota p m ran told
      = catchUp target quota { p with cycles := p.cycles + 1 } after (ran + 1)
          (told ++ m.stepEvents) := by
  rw [catchUp, if_neg h, if_pos hlt, hstep]

theorem catchUp_skip (h : ¬ p.tickIsDue quota) (hlt : p.cycles < target)
    (hwait : m.isWaiting = true) (ran : Nat) (told : Array Event) :
    catchUp target quota p m ran told
      = catchUp target quota { p with cycles := target } m ran
          ((told ++ m.stepEvents).push (.skippedTo target)) := by
  rw [catchUp, if_neg h, if_pos hlt, Machine.step_of_isWaiting hwait]

theorem catchUp_fail {after : Machine ρ} {fault : Fault} (h : ¬ p.tickIsDue quota)
    (hlt : p.cycles < target) (hstep : m.step = (.failed fault, after)) (ran : Nat)
    (told : Array Event) :
    catchUp target quota p m ran told = ⟨.error fault, p, after, told ++ m.stepEvents⟩ := by
  rw [catchUp, if_neg h, if_pos hlt, hstep]

theorem catchUp_reached (h : ¬ p.tickIsDue quota) (hge : target ≤ p.cycles) (ran : Nat)
    (told : Array Event) : catchUp target quota p m ran told = ⟨.ok ran, p, m, told⟩ := by
  rw [catchUp, if_neg h, if_neg (Nat.not_lt.2 hge)]

/-- What every turn of the loop keeps, the loop keeps. -/
theorem catchUp_invariant (Inv : Pacer → Machine ρ → Prop)
    (htick : ∀ p m, p.tickIsDue quota → Inv p m → Inv { p with ticks := p.ticks + 1 } m.tick)
    (hrun : ∀ p m m', ¬ p.tickIsDue quota → p.cycles < target → m.step = (.ran, m') → Inv p m →
      Inv { p with cycles := p.cycles + 1 } m')
    (hskip : ∀ p m, ¬ p.tickIsDue quota → p.cycles < target → m.isWaiting = true → Inv p m →
      Inv { p with cycles := target } m)
    (h : Inv p m) (ran : Nat) (told : Array Event) :
    Inv (catchUp target quota p m ran told).pacer (catchUp target quota p m ran told).machine := by
  -- along the turns of the loop: a tick, an instruction, a skip, a fault, the end
  fun_induction catchUp target quota p m ran told with
  | case1 p m ran told hdue ih => exact ih (htick p m hdue h)
  | case2 p m ran told hdue hlt after hstep ih => exact ih (hrun p m after hdue hlt hstep h)
  | case3 p m ran told hdue hlt after hstep ih =>
    obtain rfl := Machine.step_eq_self hstep (by simp)
    exact ih (hskip p after hdue hlt (Machine.isWaiting_of_step hstep) h)
  | case4 p m ran told hdue hlt fault after hstep =>
    obtain rfl := Machine.step_eq_self hstep (by simp)
    exact h
  | case5 p m ran told hdue hlt => exact h

/-! ## What the loop leaves alone and what it moves -/

/-- The loop moves the two counters of the pacer and nothing else of it, and keeps the variant. -/
theorem catchUp_frame (ran : Nat) (told : Array Event) :
    (catchUp target quota p m ran told).pacer.start = p.start ∧
      (catchUp target quota p m ran told).pacer.rate = p.rate ∧
      (catchUp target quota p m ran told).machine.variant = m.variant := by
  refine catchUp_invariant (fun p' m' => p'.start = p.start ∧ p'.rate = p.rate ∧
    m'.variant = m.variant) ?_ ?_ ?_ ⟨rfl, rfl, rfl⟩ ran told
  · intro p' m' _ h
    exact h
  · intro p' m' after _ _ hstep ⟨hstart, hrate, hvariant⟩
    refine ⟨hstart, hrate, ?_⟩
    rw [← hvariant, ← m'.step_variant, hstep]
  · intro p' m' _ _ _ h
    exact h

/-- The counters never go back. -/
theorem catchUp_mono (ran : Nat) (told : Array Event) :
    p.cycles ≤ (catchUp target quota p m ran told).pacer.cycles ∧
      p.ticks ≤ (catchUp target quota p m ran told).pacer.ticks := by
  refine catchUp_invariant (fun p' _ => p.cycles ≤ p'.cycles ∧ p.ticks ≤ p'.ticks)
    ?_ ?_ ?_ ⟨Nat.le_refl _, Nat.le_refl _⟩ ran told
  · intro p' _ _ ⟨hcycles, hticks⟩
    exact ⟨hcycles, Nat.le_succ_of_le hticks⟩
  · intro p' _ _ _ _ _ ⟨hcycles, hticks⟩
    exact ⟨Nat.le_succ_of_le hcycles, hticks⟩
  · intro p' _ _ hlt _ ⟨hcycles, hticks⟩
    exact ⟨Nat.le_trans hcycles (Nat.le_of_lt hlt), hticks⟩

/-- No tick is made beyond the quota. -/
theorem catchUp_ticks_le (ran : Nat) (told : Array Event) :
    (catchUp target quota p m ran told).pacer.ticks ≤ max p.ticks quota := by
  refine catchUp_invariant (fun p' _ => p'.ticks ≤ max p.ticks quota) ?_ ?_ ?_
    (Nat.le_max_left ..) ran told
  · intro p' _ hdue _
    exact Nat.le_trans hdue.1 (Nat.le_max_right ..)
  · intro p' _ _ _ _ _ h
    exact h
  · intro p' _ _ _ _ h
    exact h

/-! ## The count and the events are only added to -/

/-- What a poll leaves behind, apart from what it told. -/
def effect (polled : Polled ρ) : Except Fault Nat × Pacer × Machine ρ :=
  (polled.result, polled.pacer, polled.machine)

/-- Instructions that ran before the loop are counted on top, and what was told before does not
matter. -/
theorem catchUp_effect_add (before ran : Nat) (told told' : Array Event) :
    effect (catchUp target quota p m (before + ran) told')
      = ((catchUp target quota p m ran told).result.map (before + ·),
          (catchUp target quota p m ran told).pacer,
          (catchUp target quota p m ran told).machine) := by
  -- the turns are decided by the pacer and the machine, never by the count or the events
  fun_induction catchUp target quota p m ran told generalizing told' with
  | case1 p m ran told hdue ih =>
    rw [catchUp_tick hdue]
    exact ih _
  | case2 p m ran told hdue hlt after hstep ih =>
    rw [catchUp_run hdue hlt hstep]
    exact ih _
  | case3 p m ran told hdue hlt after hstep ih =>
    have hwait := Machine.isWaiting_of_step hstep
    obtain rfl := Machine.step_eq_self hstep (by simp)
    rw [catchUp_skip hdue hlt hwait]
    exact ih _
  | case4 p m ran told hdue hlt fault after hstep =>
    rw [catchUp_fail hdue hlt hstep]
    rfl
  | case5 p m ran told hdue hlt =>
    rw [catchUp_reached hdue (Nat.not_lt.1 hlt)]
    rfl

theorem catchUp_effect (ran : Nat) (told : Array Event) :
    effect (catchUp target quota p m ran told)
      = ((catchUp target quota p m 0 #[]).result.map (ran + ·),
          (catchUp target quota p m 0 #[]).pacer, (catchUp target quota p m 0 #[]).machine) :=
  catchUp_effect_add ran 0 #[] told

/-- What was told before does not matter. -/
theorem catchUp_told (ran : Nat) (told told' : Array Event) :
    effect (catchUp target quota p m ran told) = effect (catchUp target quota p m ran told') := by
  rw [catchUp_effect ran told, catchUp_effect ran told']

/-! ## A machine that waits -/

/-- The loop on a machine that waits for a key makes every tick of the quota and skips to the
target, provided that no deadline within the quota lies behind the target. -/
theorem catchUp_of_isWaiting (hwait : m.isWaiting = true)
    (hwithin : ∀ k, p.ticks ≤ k → k < quota → tickDeadline (k + 1) p.rate ≤ target) (ran : Nat)
    (told : Array Event) :
    effect (catchUp target quota p m ran told)
      = (.ok ran, { p with cycles := max p.cycles target, ticks := max p.ticks quota },
          Machine.tick^[quota - p.ticks] m) := by
  fun_induction catchUp target quota p m ran told with
  | case1 p m ran told hdue ih =>
    have hlt : p.ticks < quota := hdue.1
    have hcount : quota - p.ticks = quota - (p.ticks + 1) + 1 := by omega
    rw [ih hwait fun k hk => hwithin k (Nat.le_of_succ_le hk), hcount,
      Function.iterate_succ_apply, Nat.max_eq_right hlt, Nat.max_eq_right (Nat.le_of_lt hlt)]
  | case2 p m ran told hdue hlt after hstep ih =>
    rw [Machine.step_of_isWaiting hwait] at hstep
    cases hstep
  | case3 p m ran told hdue hlt after hstep ih =>
    rw [Machine.step_of_isWaiting hwait] at hstep
    cases hstep
    rw [ih hwait hwithin, Nat.max_self, Nat.max_eq_right (Nat.le_of_lt hlt)]
  | case4 p m ran told hdue hlt fault after hstep =>
    rw [Machine.step_of_isWaiting hwait] at hstep
    cases hstep
  | case5 p m ran told hdue hlt =>
    have hge : target ≤ p.cycles := Nat.not_lt.1 hlt
    -- a tick left over would be due, as its deadline is not behind the target
    have hquota : quota ≤ p.ticks := by
      by_contra hmore
      have hmore : p.ticks < quota := Nat.not_le.1 hmore
      exact hdue ⟨hmore, Nat.le_trans (hwithin _ (Nat.le_refl _) hmore) hge⟩
    rw [Nat.max_eq_left hge, Nat.max_eq_left hquota, Nat.sub_eq_zero_of_le hquota]
    rfl

theorem isWaiting_iterate_tick (n : Nat) : (Machine.tick^[n] m).isWaiting = m.isWaiting := by
  induction n with
  | zero => rfl
  | succ n ih =>
    rw [Function.iterate_succ_apply', ← ih]
    rfl

/-- While the machine waits, a target and a quota on the way to later ones make no difference. -/
theorem catchUp_extend_of_isWaiting {target₁ target₂ quota₁ quota₂ : Nat}
    (hwait : m.isWaiting = true) (htarget : target₁ ≤ target₂) (hquota : quota₁ ≤ quota₂)
    (hwithin₁ : ∀ k, p.ticks ≤ k → k < quota₁ → tickDeadline (k + 1) p.rate ≤ target₁)
    (hwithin₂ : ∀ k, p.ticks ≤ k → k < quota₂ → tickDeadline (k + 1) p.rate ≤ target₂)
    (ran : Nat) (told : Array Event) :
    (catchUp target₁ quota₁ p m ran told).result = .ok ran ∧
      ∀ told', effect (catchUp target₂ quota₂ (catchUp target₁ quota₁ p m ran told).pacer
          (catchUp target₁ quota₁ p m ran told).machine ran told')
        = effect (catchUp target₂ quota₂ p m ran told) := by
  have hfirst := catchUp_of_isWaiting hwait hwithin₁ ran told
  simp only [effect, Prod.mk.injEq] at hfirst
  obtain ⟨hresult, hpacer, hmachine⟩ := hfirst
  refine ⟨hresult, fun told' => ?_⟩
  -- both ways end at the later target, with the ticks of the larger quota
  have hcycles : max (max p.cycles target₁) target₂ = max p.cycles target₂ := by omega
  have hticks : max (max p.ticks quota₁) quota₂ = max p.ticks quota₂ := by omega
  have hcount : quota₂ - max p.ticks quota₁ + (quota₁ - p.ticks) = quota₂ - p.ticks := by omega
  have hwait' : (Machine.tick^[quota₁ - p.ticks] m).isWaiting = true := by
    rw [isWaiting_iterate_tick, hwait]
  rw [hpacer, hmachine, catchUp_of_isWaiting hwait hwithin₂]
  refine (catchUp_of_isWaiting hwait' ?_ ran told').trans ?_
  · intro k hk
    exact hwithin₂ k (Nat.le_trans (Nat.le_max_left ..) hk)
  · simp only [← Function.iterate_add_apply, hcycles, hticks, hcount]

/-! ## Where the loop ends -/

/-- Nothing is left to do: no tick is due, and the target is reached unless a fault stands before
it. -/
structure Settled (target quota : Nat) (polled : Polled ρ) : Prop where
  noTick : ¬ polled.pacer.tickIsDue quota
  reached : ∀ n, polled.result = .ok n → target ≤ polled.pacer.cycles
  short : ∀ fault, polled.result = .error fault → polled.pacer.cycles < target
  failing : ∀ fault, polled.result = .error fault →
    polled.machine.step = (.failed fault, polled.machine)

/-- Where the loop ends, nothing is left to do. -/
theorem catchUp_settled (ran : Nat) (told : Array Event) :
    Settled target quota (catchUp target quota p m ran told) := by
  fun_induction catchUp target quota p m ran told with
  | case1 p m ran told hdue ih => exact ih
  | case2 p m ran told hdue hlt after hstep ih => exact ih
  | case3 p m ran told hdue hlt after hstep ih => exact ih
  | case4 p m ran told hdue hlt fault after hstep =>
    obtain rfl := Machine.step_eq_self hstep (by simp)
    refine ⟨hdue, ?_, fun _ _ => hlt, ?_⟩
    · intro n h
      cases h
    · intro fault' h
      cases h
      exact hstep
  | case5 p m ran told hdue hlt =>
    refine ⟨hdue, fun _ _ => Nat.not_lt.1 hlt, ?_, ?_⟩ <;>
    · intro fault h
      cases h

/-- A loop whose target and quota lie behind where another one ended does nothing: it ends at once,
with the same fault if one stands before its target. -/
theorem Settled.catchUp {polled : Polled ρ} (h : Settled target quota polled) {target' quota' : Nat}
    (htarget : target' ≤ target) (hquota : quota' ≤ quota) :
    ∃ result, effect (catchUp target' quota' polled.pacer polled.machine 0 #[])
        = (result, polled.pacer, polled.machine) ∧
      (result = .ok 0 ∨ ∃ fault, polled.result = .error fault ∧ result = .error fault) := by
  have hdue : ¬ polled.pacer.tickIsDue quota' := fun hdue =>
    h.noTick ⟨Nat.lt_of_lt_of_le hdue.1 hquota, hdue.2⟩
  by_cases hlt : polled.pacer.cycles < target'
  · -- the target was not reached before, so a fault stands in front of it
    cases hresult : polled.result with
    | ok n =>
      have := h.reached n hresult
      omega
    | error fault =>
      rw [catchUp_fail hdue hlt (h.failing fault hresult)]
      exact ⟨_, rfl, Or.inr ⟨fault, rfl, rfl⟩⟩
  · rw [catchUp_reached hdue (Nat.not_lt.1 hlt)]
    exact ⟨_, rfl, Or.inl rfl⟩

/-! ## A target on the way -/

/-- Catching up with a target and a quota, and then with a later target and a larger quota, is
catching up with the later ones at once. A fault on the way to the first target is the fault on the
way to the second. -/
theorem catchUp_extend {target₁ target₂ quota₁ quota₂ : Nat} (htarget : target₁ ≤ target₂)
    (hquota : quota₁ ≤ quota₂)
    (hwithin₁ : ∀ k, p.ticks ≤ k → k < quota₁ → tickDeadline (k + 1) p.rate ≤ target₁)
    (hwithin₂ : ∀ k, p.ticks ≤ k → k < quota₂ → tickDeadline (k + 1) p.rate ≤ target₂)
    (hbeyond : ∀ k, quota₁ ≤ k → k < quota₂ → target₁ ≤ tickDeadline (k + 1) p.rate)
    (ran : Nat) (told : Array Event) :
    (∀ n told', (catchUp target₁ quota₁ p m ran told).result = .ok n →
      effect (catchUp target₂ quota₂ (catchUp target₁ quota₁ p m ran told).pacer
          (catchUp target₁ quota₁ p m ran told).machine n told')
        = effect (catchUp target₂ quota₂ p m ran told)) ∧
    (∀ fault, (catchUp target₁ quota₁ p m ran told).result = .error fault →
      effect (catchUp target₂ quota₂ p m ran told)
        = effect (catchUp target₁ quota₁ p m ran told)) := by
  -- before the first target the larger quota has no tick due that the smaller one has not
  have hsame : ∀ p' : Pacer, p'.rate = p.rate → p'.cycles < target₁ → ¬ p'.tickIsDue quota₁ →
      ¬ p'.tickIsDue quota₂ := by
    intro p' hrate hlt hnot hdue
    rcases Nat.lt_or_ge p'.ticks quota₁ with hless | hmore
    · exact hnot ⟨hless, hdue.2⟩
    · have := hbeyond p'.ticks hmore hdue.1
      have := hdue.2
      rw [hrate] at this
      omega
  fun_induction catchUp target₁ quota₁ p m ran told with
  | case1 p m ran told hdue ih =>
    have hdue₂ : p.tickIsDue quota₂ := ⟨Nat.lt_of_lt_of_le hdue.1 hquota, hdue.2⟩
    rw [catchUp_tick hdue₂]
    exact ih (fun k hk => hwithin₁ k (Nat.le_of_succ_le hk))
      (fun k hk => hwithin₂ k (Nat.le_of_succ_le hk)) hbeyond hsame
  | case2 p m ran told hdue hlt after hstep ih =>
    rw [catchUp_run (hsame p rfl hlt hdue) (Nat.lt_of_lt_of_le hlt htarget) hstep]
    exact ih hwithin₁ hwithin₂ hbeyond hsame
  | case3 p m ran told hdue hlt after hstep ih =>
    have hwait := Machine.isWaiting_of_step hstep
    obtain rfl := Machine.step_eq_self hstep (by simp)
    -- from here on the machine waits, and the two loops part only in where they skip to
    obtain ⟨hresult, heffect⟩ :=
      catchUp_extend_of_isWaiting hwait htarget hquota hwithin₁ hwithin₂ ran told
    rw [catchUp_skip hdue hlt hwait] at hresult heffect
    refine ⟨?_, ?_⟩
    · intro n told' h
      rw [hresult] at h
      cases h
      exact heffect told'
    · intro fault h
      rw [hresult] at h
      cases h
  | case4 p m ran told hdue hlt fault after hstep =>
    refine ⟨?_, ?_⟩
    · intro n told' h
      cases h
    · intro fault' _
      rw [catchUp_fail (hsame p rfl hlt hdue) (Nat.lt_of_lt_of_le hlt htarget) hstep]
  | case5 p m ran told hdue hlt =>
    refine ⟨?_, ?_⟩
    · intro n told' h
      cases h
      exact catchUp_told _ _ _
    · intro fault h
      cases h

/-! ## A poll -/

/-- A poll moves the two counters of the pacer and nothing else of it, and keeps the variant. -/
theorem poll_frame (p : Pacer) (m : Machine ρ) (now : Nat) :
    (p.poll m now).pacer.start = p.start ∧ (p.poll m now).pacer.rate = p.rate ∧
      (p.poll m now).machine.variant = m.variant :=
  catchUp_frame 0 #[]

@[simp] theorem elapsed_poll (p : Pacer) (m : Machine ρ) (now later : Nat) :
    (p.poll m now).pacer.elapsed later = p.elapsed later := by
  rw [elapsed, (poll_frame p m now).1, elapsed]

/-- A poll leaves the target of every time as it is. -/
theorem target_poll (p : Pacer) (m : Machine ρ) (now later : Nat) :
    (p.poll m now).pacer.target later = p.target later := by
  rw [target, elapsed_poll, (poll_frame p m now).2.1, target]

theorem poll_perInstruction {p : Pacer} {m : Machine ρ}
    (h : m.variant.timerMode = .perInstruction) (now : Nat) :
    p.poll m now = catchUp (p.target now) p.ticks p m 0 #[] := by
  rw [poll, h, quota]

/-- A poll of a machine whose timers go by instructions makes no ticks. -/
theorem ticks_poll_perInstruction {p : Pacer} {m : Machine ρ}
    (h : m.variant.timerMode = .perInstruction) (now : Nat) :
    (p.poll m now).pacer.ticks = p.ticks := by
  have hle : (p.poll m now).pacer.ticks ≤ max p.ticks p.ticks :=
    poll_perInstruction h now ▸ catchUp_ticks_le 0 #[]
  rw [Nat.max_self] at hle
  exact Nat.le_antisymm hle (catchUp_mono 0 #[]).2

/-- A poll leaves the quota of every time as it is. -/
theorem quota_poll (p : Pacer) (m : Machine ρ) (now later : Nat) :
    (p.poll m now).pacer.quota later (p.poll m now).machine.variant.timerMode
      = p.quota later m.variant.timerMode := by
  rw [(poll_frame p m now).2.2]
  cases h : m.variant.timerMode with
  | fixed60Hz => rw [quota, elapsed_poll, quota]
  | perInstruction => rw [quota, ticks_poll_perInstruction h, quota]

theorem elapsed_lt {p : Pacer} {now : Nat} (hword : now < bound64) : p.elapsed now < bound64 :=
  Nat.lt_of_le_of_lt (Nat.sub_le ..) hword

theorem elapsed_mono {p : Pacer} {now later : Nat} (hle : now ≤ later) :
    p.elapsed now ≤ p.elapsed later :=
  Nat.sub_le_sub_right hle _

/-- No deadline within the quota of a poll lies behind its target. -/
theorem tickDeadline_le_target {p : Pacer} {now : Nat} {mode : TimerMode} (hword : now < bound64)
    (hcut : p.elapsed now * p.rate / second < bound64) {k : Nat} (hk : p.ticks ≤ k)
    (hquota : k < p.quota now mode) : tickDeadline (k + 1) p.rate ≤ p.target now := by
  cases mode with
  | fixed60Hz =>
    rw [quota, due_ticks (elapsed_lt hword)] at hquota
    exact tickDeadline_le_due hquota hcut
  | perInstruction => exact absurd hquota (Nat.not_lt.2 hk)

/-- No deadline beyond the quota of a poll and within that of a later one lies before the target of
the first. -/
theorem target_le_tickDeadline {p : Pacer} {now later : Nat} {mode : TimerMode} (hle : now ≤ later)
    (hword : later < bound64) (hcut : p.elapsed later * p.rate / second < bound64) {k : Nat}
    (hk : p.quota now mode ≤ k) (hquota : k < p.quota later mode) :
    p.target now ≤ tickDeadline (k + 1) p.rate := by
  cases mode with
  | fixed60Hz =>
    rw [quota, due_ticks (elapsed_lt (Nat.lt_of_le_of_lt hle hword))] at hk
    rw [quota, due_ticks (elapsed_lt hword)] at hquota
    exact due_le_tickDeadline (Nat.lt_succ_of_le hk) hquota hcut
  | perInstruction => exact absurd hquota (Nat.not_lt.2 hk)

/-- A target on the way is not cut if a later one is not. -/
theorem uncut_of_le {p : Pacer} {now later : Nat} (hle : now ≤ later)
    (hcut : p.elapsed later * p.rate / second < bound64) :
    p.elapsed now * p.rate / second < bound64 :=
  Nat.lt_of_le_of_lt (Nat.div_le_div_right (Nat.mul_le_mul_right _ (elapsed_mono hle))) hcut

/-- Later times have no smaller targets, as long as these are not cut. -/
theorem target_mono {p : Pacer} {now later : Nat} (hle : now ≤ later)
    (hcut : p.elapsed later * p.rate / second < bound64) : p.target now ≤ p.target later :=
  due_mono_of_lt (elapsed_mono hle) hcut

/-- Later times have no smaller quotas. -/
theorem quota_mono {p : Pacer} {now later : Nat} (mode : TimerMode) (hle : now ≤ later)
    (hword : later < bound64) : p.quota now mode ≤ p.quota later mode := by
  cases mode with
  | fixed60Hz => exact due_mono_of_lt (elapsed_mono hle) (ticks_lt (elapsed_lt hword))
  | perInstruction => exact Nat.le_refl _

end Chip8.Pacer
