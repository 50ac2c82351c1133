import Chip8.Proofs.CatchUp

/-!
# Chip8 — how often a pacer is asked

A pacer may be polled at any times, late, early, twice or with a clock that goes back: what becomes
of the machine depends on the latest of these times alone.

The reason is in `Chip8.Proofs.Schedule`. A poll on the way to a later one makes no tick early, as
its quota is smaller, and none late: a tick beyond its quota has its deadline at its target or
behind it, so no instruction that it executes comes after the deadline.

Main statement:

* `pollAll_eq_poll_latest` — a row of polls leaves what one poll at the latest of their times
  leaves, and their results amount to its result.
-/

namespace Chip8.Pacer

variable {ρ : Type} [Host ρ]

/-! ## A row of polls -/

/-- What a row of polls leaves behind. -/
structure PolledAll (ρ : Type) where
  -- the result of each poll
  results : List (Except Fault Nat)
  pacer : Pacer
  machine : Machine ρ

/-- Polls at these times in turn, with nothing else in between. -/
def pollAll (p : Pacer) (m : Machine ρ) : List Nat → PolledAll ρ
  | [] => ⟨[], p, m⟩
  | now :: later =>
    let polled := p.poll m now
    let rest := polled.pacer.pollAll polled.machine later
    ⟨polled.result :: rest.results, rest.pacer, rest.machine⟩

/-- Results that amount to a count are counts that add up to it; results that amount to a fault are
this fault, at least once, and counts. -/
def amountTo (results : List (Except Fault Nat)) : Except Fault Nat → Prop
  | .ok n => ∃ counts : List Nat, results = counts.map .ok ∧ counts.foldr (· + ·) 0 = n
  | .error fault =>
    .error fault ∈ results ∧ ∀ result ∈ results, result = .error fault ∨ ∃ n, result = .ok n

theorem amountTo_singleton (result : Except Fault Nat) : amountTo [result] result := by
  cases result with
  | ok n => exact ⟨[n], rfl, by simp⟩
  | error fault => exact ⟨by simp, by simp⟩

/-- A count before a result is added to it. -/
theorem amountTo_ok_pair (n : Nat) (result : Except Fault Nat) :
    amountTo [.ok n, result] (result.map (n + ·)) := by
  cases result with
  | ok k => exact ⟨[n, k], rfl, by simp⟩
  | error fault => exact ⟨by simp, by simp⟩

/-- A result before nothing, or before the same fault, stays. -/
theorem amountTo_pair_of_idle {result idle : Except Fault Nat}
    (h : idle = .ok 0 ∨ ∃ fault, result = .error fault ∧ idle = .error fault) :
    amountTo [result, idle] result := by
  rcases h with rfl | ⟨fault, rfl, rfl⟩
  · cases result with
    | ok n => exact ⟨[n, 0], rfl, by simp⟩
    | error fault => exact ⟨by simp, by simp⟩
  · exact ⟨by simp, by simp⟩

/-- Of two results that amount to a third the second may be spelled out. -/
theorem amountTo_cons {first second whole : Except Fault Nat} {results : List (Except Fault Nat)}
    (hpair : amountTo [first, second] whole) (hrest : amountTo results second) :
    amountTo (first :: results) whole := by
  cases whole with
  | ok n =>
    -- both are counts, and the second is the sum of counts in turn
    obtain ⟨counts, hcounts, hsum⟩ := hpair
    match counts, hcounts, hsum with
    | [a, b], hcounts, hsum =>
      simp only [List.map_cons, List.map_nil, List.cons.injEq, and_true] at hcounts
      obtain ⟨rfl, rfl⟩ := hcounts
      obtain ⟨counts, rfl, rfl⟩ := hrest
      exact ⟨a :: counts, rfl, by simpa using hsum⟩
  | error fault =>
    obtain ⟨hmem, hall⟩ := hpair
    have hfirst := hall first (by simp)
    rcases hall second (by simp) with rfl | ⟨n, rfl⟩
    -- the second is the fault, which is found again among the results that it stands for
    · obtain ⟨hmem', hall'⟩ := hrest
      refine ⟨List.mem_cons_of_mem _ hmem', ?_⟩
      simpa using ⟨hfirst, hall'⟩
    -- the second is a count, so the fault is the first
    · obtain ⟨counts, rfl, -⟩ := hrest
      refine ⟨?_, by simpa using hfirst⟩
      have hfault : .error fault = first := by simpa using hmem
      rw [hfault]
      exact List.mem_cons_self ..

/-! ## Two polls -/

variable {p : Pacer} {m : Machine ρ} {now later : Nat}

/-- The second of two polls catches up with the target and the quota that it has from the start. -/
theorem poll_poll :
    (p.poll m now).pacer.poll (p.poll m now).machine later
      = catchUp (p.target later) (p.quota later m.variant.timerMode) (p.poll m now).pacer
          (p.poll m now).machine 0 #[] := by
  rw [← target_poll p m now later, ← quota_poll p m now later, poll]

/-- A poll does nothing after one at the same time or a later one, except that it meets the fault of
that one again if its target is beyond it. -/
theorem poll_poll_of_ge (hle : later ≤ now) (hword : now < bound64)
    (hcut : p.elapsed now * p.rate / second < bound64) :
    ((p.poll m now).pacer.poll (p.poll m now).machine later).pacer = (p.poll m now).pacer ∧
    ((p.poll m now).pacer.poll (p.poll m now).machine later).machine = (p.poll m now).machine ∧
    amountTo [(p.poll m now).result,
        ((p.poll m now).pacer.poll (p.poll m now).machine later).result]
      (p.poll m now).result := by
  have hsettled : Settled (p.target now) (p.quota now m.variant.timerMode) (p.poll m now) :=
    catchUp_settled 0 #[]
  obtain ⟨idle, heffect, hidle⟩ := hsettled.catchUp (target_mono hle hcut)
    (quota_mono m.variant.timerMode hle hword)
  simp only [effect, Prod.mk.injEq] at heffect
  obtain ⟨hresult, hpacer, hmachine⟩ := heffect
  rw [poll_poll, hresult]
  exact ⟨hpacer, hmachine, amountTo_pair_of_idle hidle⟩

/-- A poll and then a later one leave what the later one leaves alone. -/
theorem poll_poll_of_le (hle : now ≤ later) (hword : later < bound64)
    (hcut : p.elapsed later * p.rate / second < bound64) :
    ((p.poll m now).pacer.poll (p.poll m now).machine later).pacer = (p.poll m later).pacer ∧
    ((p.poll m now).pacer.poll (p.poll m now).machine later).machine
      = (p.poll m later).machine ∧
    amountTo [(p.poll m now).result,
        ((p.poll m now).pacer.poll (p.poll m now).machine later).result]
      (p.poll m later).result := by
  have hword' : now < bound64 := Nat.lt_of_le_of_lt hle hword
  -- the schedule is what puts the first target and quota on the way to the second
  obtain ⟨hok, herror⟩ := catchUp_extend (m := m) (target_mono hle hcut)
    (quota_mono m.variant.timerMode hle hword)
    (fun _ => tickDeadline_le_target hword' (uncut_of_le hle hcut))
    (fun _ => tickDeadline_le_target hword hcut)
    (fun _ => target_le_tickDeadline hle hword hcut) 0 #[]
  rw [poll_poll]
  cases hfirst : (p.poll m now).result with
  | ok n =>
    -- the second loop counts from zero, where the single one goes on from the first count
    have heffect := (catchUp_effect n #[]).symm.trans (hok n #[] hfirst)
    simp only [effect, Prod.mk.injEq] at heffect
    obtain ⟨hresult, hpacer, hmachine⟩ := heffect
    refine ⟨hpacer, hmachine, ?_⟩
    rw [show (p.poll m later).result = _ from hresult.symm]
    exact amountTo_ok_pair n _
  | error fault =>
    have heffect := herror fault hfirst
    simp only [effect, Prod.mk.injEq] at heffect
    obtain ⟨hresult, hpacer, hmachine⟩ := heffect
    -- the fault ends the later poll where it ended the first, and the second poll meets it again
    have hagain := poll_poll_of_ge (m := m) (Nat.le_refl later) hword hcut
    rw [poll_poll] at hagain
    rw [show (p.poll m later).pacer = _ from hpacer,
      show (p.poll m later).machine = _ from hmachine,
      show (p.poll m later).result = _ from hresult.trans hfirst] at hagain ⊢
    exact hagain

/-- Two polls in any order leave what one poll at the later of their times leaves. -/
theorem poll_poll_max (hword : max now later < bound64)
    (hcut : p.elapsed (max now later) * p.rate / second < bound64) :
    ((p.poll m now).pacer.poll (p.poll m now).machine later).pacer
      = (p.poll m (max now later)).pacer ∧
    ((p.poll m now).pacer.poll (p.poll m now).machine later).machine
      = (p.poll m (max now later)).machine ∧
    amountTo [(p.poll m now).result,
        ((p.poll m now).pacer.poll (p.poll m now).machine later).result]
      (p.poll m (max now later)).result := by
  rcases Nat.le_total now later with hle | hge
  · rw [Nat.max_eq_right hle] at hword hcut ⊢
    exact poll_poll_of_le hle hword hcut
  · rw [Nat.max_eq_left hge] at hword hcut ⊢
    exact poll_poll_of_ge hge hword hcut

/-! ## Many polls -/

/-- How often and in which order a pacer is polled makes no difference: a row of polls leaves the
machine and the pacer as one poll at the latest of their times leaves them, and their results amount
to its result. -/
theorem pollAll_eq_poll_latest (p : Pacer) (m : Machine ρ) (times : List Nat) (latest : Nat)
    (hlatest : times.max? = some latest) (hword : latest < bound64)
    (hcut : p.elapsed latest * p.rate / second < bound64) :
    (p.pollAll m times).machine = (p.poll m latest).machine ∧
    (p.pollAll m times).pacer = (p.poll m latest).pacer ∧
    amountTo (p.pollAll m times).results (p.poll m latest).result := by
  induction times generalizing p m latest with
  | nil => simp at hlatest
  | cons now times ih =>
    cases times with
    | nil =>
      obtain rfl : now = latest := by simpa using hlatest
      exact ⟨rfl, rfl, amountTo_singleton _⟩
    | cons next times =>
      -- the polls after the first amount to one at the latest of their times
      obtain ⟨later, hlater⟩ : ∃ later, (next :: times).max? = some later := ⟨_, rfl⟩
      obtain rfl : max now later = latest := by
        rw [List.max?_cons, hlater] at hlatest
        simpa using hlatest
      have hle : later ≤ max now later := Nat.le_max_right ..
      have hcut' : (p.poll m now).pacer.elapsed later * (p.poll m now).pacer.rate / second
          < bound64 := by
        rw [elapsed_poll, (poll_frame p m now).2.1]
        exact uncut_of_le hle hcut
      obtain ⟨hmachine, hpacer, hrest⟩ :=
        ih (p.poll m now).pacer (p.poll m now).machine later hlater
          (Nat.lt_of_le_of_lt hle hword) hcut'
      obtain ⟨hpacer', hmachine', hpair⟩ := poll_poll_max (m := m) hword hcut
      exact ⟨hmachine.trans hmachine', hpacer.trans hpacer', amountTo_cons hpair hrest⟩

/-- Four polls out of order at a rate that is no multiple of the tick rate, on a machine that waits
for a key from its first instruction on. -/
theorem pollAll_eq_poll_latest_unordered :
    let p : Pacer := ⟨5, 90, 0, 0⟩
    let m : Machine SilentHost :=
      { Machine.initial { timerMode := .fixed60Hz } ⟨0⟩ with
        memory := Memory.initial.loadProgram [0xF3, 0x0A] }
    let times := [700000000, 3, 1000000000, 20]
    times.max? = some 1000000000 ∧ 1000000000 < bound64 ∧
      p.elapsed 1000000000 * p.rate / second < bound64 ∧
      (p.pollAll m times).machine = (p.poll m 1000000000).machine ∧
      (p.pollAll m times).pacer = (p.poll m 1000000000).pacer ∧
      amountTo (p.pollAll m times).results (p.poll m 1000000000).result := by
  intro p m times
  have hlatest : times.max? = some 1000000000 := by decide
  have hword : 1000000000 < bound64 := by decide
  have hcut : p.elapsed 1000000000 * p.rate / second < bound64 := by decide
  exact ⟨hlatest, hword, hcut, pollAll_eq_poll_latest p m times _ hlatest hword hcut⟩

end Chip8.Pacer
