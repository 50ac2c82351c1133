import Chip8.Host.Seeded
import Chip8.Session
import Chip8.Proofs.Playing
import Chip8.Proofs.PollPattern
import Chip8.Proofs.Standstill

/-!
# Chip8 — how often a session is polled

A session feeds its machine the keys that are due, in milliseconds, and then lets its pacer catch up
with the clock, in nanoseconds and instructions. A poll in between two others is not seen as long as
it feeds all the keys that the later one would feed: the keys are down before the same instructions,
and a pacer that is asked once more on the way ends where it would have ended. That holds even if
the machine fails on the way, since keys are fed before it can, and a machine that failed fails
again.

Main statements:

* `result_poll_poll` — the later of two polls of a pacer fails just as it would fail alone;
* `extra_poll_unobservable` — a session goes alike with and without an earlier poll.
-/

namespace Chip8

/-! ## Results of two polls -/

namespace Pacer

/-- Results that amount to another one fail if it does, and with the same fault. -/
theorem amountTo_pair_of_agree {first second whole : Except Fault Nat}
    (h : amountTo [first, second] whole)
    (hagree : ∀ fault, first = .error fault → second = .error fault) {α : Type} (a : α) :
    second.map (fun _ => a) = whole.map fun _ => a := by
  cases whole with
  | ok k =>
    obtain ⟨counts, hcounts, -⟩ := h
    have hmem : second ∈ counts.map .ok := hcounts ▸ by simp
    obtain ⟨j, -, rfl⟩ := List.mem_map.1 hmem
    rfl
  | error fault =>
    have hsecond : second = .error fault := by
      rcases List.mem_cons.1 h.1 with hfirst | hmem
      · exact hagree fault hfirst.symm
      · exact (List.mem_singleton.1 hmem).symm
    rw [hsecond]

variable {ρ : Type} [Host ρ] {p : Pacer} {m : Machine ρ} {now later : Nat}

/-- The later of two polls fails just as it would fail alone. -/
theorem result_poll_poll (hle : now ≤ later) (hword : later < bound64)
    (hcut : p.elapsed later * p.rate / second < bound64) {α : Type} (a : α) :
    ((p.poll m now).pacer.poll (p.poll m now).machine later).result.map (fun _ => a)
      = (p.poll m later).result.map fun _ => a := by
  obtain ⟨-, -, hamount⟩ := poll_poll_of_le (m := m) hle hword hcut
  refine amountTo_pair_of_agree hamount (fun fault hfirst => ?_) a
  -- a fault before the first target stands before the second as well
  have hsettled : Settled (p.target now) (p.quota now m.variant.timerMode) (p.poll m now) :=
    catchUp_settled 0 #[]
  have hshort : (p.poll m now).pacer.cycles < p.target later :=
    Nat.lt_of_lt_of_le (hsettled.short fault hfirst) (target_mono hle hcut)
  have hfail : (p.poll m now).machine.step.1 = .failed fault :=
    congrArg Prod.fst (hsettled.failing fault hfirst)
  rw [poll_poll, (catchUp_of_failed hfail 0 #[]).1, if_pos hshort]

end Pacer

/-! ## Sessions -/

namespace Session

variable {ρ : Type}

/-- The machine of a session after the keys that are due at a time. -/
def fed (s : Session ρ) (now : Nat) : Machine ρ :=
  (s.track.play (s.elapsedMs now)).1.foldl Machine.applyChange s.machine

theorem elapsedMs_mono (s : Session ρ) {now later : Nat} (hle : now ≤ later) :
    s.elapsedMs now ≤ s.elapsedMs later :=
  Nat.div_le_div_right (Pacer.elapsed_mono hle)

variable [Host ρ]

theorem session_poll (s : Session ρ) (now : Nat) : (s.poll now).session
    = ⟨(s.pacer.poll (s.fed now) now).machine, (s.pacer.poll (s.fed now) now).pacer,
        (s.track.play (s.elapsedMs now)).2⟩ := rfl

theorem result_poll (s : Session ρ) (now : Nat) : (s.poll now).result
    = (s.pacer.poll (s.fed now) now).result.map fun _ => s.elapsedMs now := rfl

theorem elapsedMs_poll (s : Session ρ) (now later : Nat) :
    (s.poll now).session.elapsedMs later = s.elapsedMs later := by
  rw [elapsedMs, poll, Pacer.elapsed_poll, elapsedMs]

/-- **A poll with no key behind it is not seen.** If no change of a key falls due between two times,
in milliseconds, then a session that is polled at the earlier and at the later time is left as the
poll at the later time alone leaves it, machine, pacer and track, and this poll has the same result,
be it the time that has passed or a fault, whether or not the earlier poll failed. -/
theorem extra_poll_unobservable (s : Session ρ) {now later : Nat} (hle : now ≤ later)
    (hword : later < bound64)
    (hcut : s.pacer.elapsed later * s.pacer.rate / second < bound64)
    (hquiet : ∀ c ∈ s.track.rest, ¬ (s.elapsedMs now < c.atMs ∧ c.atMs ≤ s.elapsedMs later)) :
    ((s.poll now).session.poll later).session = (s.poll later).session ∧
      ((s.poll now).session.poll later).result = (s.poll later).result := by
  -- the earlier poll feeds all keys, so the pacer finds the same machine in both cases
  obtain ⟨hnone, htrack, hsame⟩ := KeyTrack.play_play_of_quiet (s.elapsedMs_mono hle)
    fun c hc hdue => Nat.not_lt.1 fun hlate => hquiet c hc ⟨hlate, hdue⟩
  have hms : (s.poll now).session.elapsedMs later = s.elapsedMs later := s.elapsedMs_poll now later
  have hfed : s.fed later = s.fed now := by rw [fed, hsame, fed]
  have hfed' : (s.poll now).session.fed later = (s.poll now).session.machine := by
    rw [fed, hms, session_poll, hnone, List.foldl_nil]
  obtain ⟨hpacer, hmachine, -⟩ := Pacer.poll_poll_of_le (m := s.fed now) hle hword hcut
  refine ⟨?_, ?_⟩
  · rw [session_poll _ later, session_poll _ later, hfed', hfed, hms, session_poll, hpacer,
      hmachine, htrack]
  · rw [result_poll _ later, result_poll _ later, hfed', hfed, hms, session_poll]
    exact Pacer.result_poll_poll hle hword hcut _

/-- The earlier poll feeds the key that the machine waits for, and then the machine meets a word
that is no instruction. -/
theorem extra_poll_unobservable_failed :
    let m : Machine SeededHost := { Machine.initial {} (.ofSeed 0) with
      memory := Memory.initial.loadProgram [0xFF, 0xFF]
      pending := some 1 }
    let s : Session SeededHost :=
      ⟨m, ⟨0, 1000, 10, 0⟩, ⟨[⟨20, .press 7⟩, ⟨70, .release 7⟩], 0⟩⟩
    let now := 25000000
    let later := 69999999
    now ≤ later ∧ later < bound64 ∧
      s.pacer.elapsed later * s.pacer.rate / second < bound64 ∧
      (∀ c ∈ s.track.rest, ¬ (s.elapsedMs now < c.atMs ∧ c.atMs ≤ s.elapsedMs later)) ∧
      (s.poll now).session.machine.reg 1 = 7 ∧
      (s.poll now).result.toOption = none ∧
      ((s.poll now).session.poll later).session = (s.poll later).session ∧
      ((s.poll now).session.poll later).result = (s.poll later).result := by
  intro m s now later
  have hle : now ≤ later := by decide
  have hword : later < bound64 := by decide
  have hcut : s.pacer.elapsed later * s.pacer.rate / second < bound64 := by decide
  have hquiet : ∀ c ∈ s.track.rest, ¬ (s.elapsedMs now < c.atMs ∧ c.atMs ≤ s.elapsedMs later) := by
    decide
  have hkey : (s.poll now).session.machine.reg 1 = 7 := by decide +kernel
  have hfail : (s.poll now).result.toOption = none := by decide +kernel
  exact ⟨hle, hword, hcut, hquiet, hkey, hfail, s.extra_poll_unobservable hle hword hcut hquiet⟩

end Session

end Chip8
