import Chip8.Proofs.Delivery
import Chip8.Proofs.History
import Chip8.Proofs.SessionPolls

/-!
# Chip8 — played keys are let go

A track whose keystrokes were all played leaves no key down. That cannot be told from one keystroke:
where holds overlap, the release of one may come before the press of another, and where times are
cut at the last moment there is, presses and releases of many keystrokes share it. But the press of
a keystroke comes before its own release, in the order of the changes and so in what is delivered at
any moment; hence no press is the last change of its key.

Only changes of keys reach the keypad, so what holds of the changes alone holds of a session, whose
machine runs, ticks and fails in between.

Main statements:

* `pressAt_precedes_releaseAt` — a keystroke presses its key before it releases it;
* `pressed_before_released` — so it is in every part of the order that a cursor has passed;
* `keys_pollAll` — the keypad of a session is what the delivered changes make of it;
* `no_key_stays_down` — a finished track leaves every key up.
-/

namespace Chip8

/-! ## The keypad -/

namespace Keypad

/-- A keypad on which no key is down. -/
theorem eq_allUp {keys : Keypad} (h : ∀ key, isKey key → keys.isDown key = false) :
    keys = allUp := by
  refine congrArg Keypad.mk (Vector.ext fun k hk => ?_)
  have hbyte : (UInt8.ofNat k).toNat = k := by
    rw [UInt8.toNat_ofNat']
    omega
  have hup := h (UInt8.ofNat k) (by rwa [isKey, hbyte])
  rw [isDown, hbyte, Vector.getElem?_eq_getElem hk, Option.getD_some] at hup
  rw [hup]
  exact (Vector.getElem_replicate hk).symm

end Keypad

namespace Machine

variable {ρ : Type}

theorem keys_foldl_applyChange (m : Machine ρ) (changes : List KeyChange) :
    (changes.foldl applyChange m).keys = changes.foldl Keypad.change m.keys := by
  induction changes generalizing m with
  | nil => rfl
  | cons change changes ih =>
    rw [List.foldl_cons, List.foldl_cons, ih, keys_applyChange]

variable [Host ρ]

/-- No instruction and no tick reaches the keypad. -/
theorem keys_poll (m : Machine ρ) (p : Pacer) (now : Nat) :
    (p.poll m now).machine.keys = m.keys := by
  refine @poll_invariant ρ _ (fun m' => m'.keys = m.keys) ?_ ?_ m rfl p now
  · intro m' after hstep h
    cases step_cases hstep with
    | executes instr done pending fetch run =>
      have hretire : done.retire.keys = done.keys := (congrArg Machine.keys done.retire_frame :)
      rw [hretire, (execute_frame run).2.1, h]
  · intro m' h
    exact h

end Machine

/-! ## Presses before releases -/

namespace KeyTrack

/-- A keystroke presses its key before it releases it. -/
theorem pressAt_precedes_releaseAt {strokes : List Keystroke}
    (hbound : ∀ stroke ∈ strokes, stroke.atMs < bound64) (i : Fin strokes.length) :
    Precedes (pressAt strokes i) (releaseAt strokes i) := by
  have hle : strokes[i].atMs ≤ strokes[i].releaseMs :=
    Keystroke.atMs_le_releaseMs (hbound _ (List.getElem_mem i.isLt))
  -- at the last moment both have one time, and the press stands in front
  simp only [Precedes, pressAt, releaseAt]
  omega

/-- Wherever the changes are cut off, a release has the press of its own keystroke before it. -/
theorem pressed_before_released {strokes : List Keystroke}
    (hbound : ∀ stroke ∈ strokes, stroke.atMs < bound64) {n : Nat} {i : Fin strokes.length}
    {before after : List (TimedChange × Nat)}
    (h : (placed strokes).take n = before ++ releaseAt strokes i :: after) :
    pressAt strokes i ∈ before := by
  have hplaced : placed strokes
      = before ++ releaseAt strokes i :: (after ++ (placed strokes).drop n) := by
    rw [← List.cons_append, ← List.append_assoc, ← h, List.take_append_drop]
  have hsorted := pairwise_placed strokes
  have hmem : pressAt strokes i ∈ placed strokes := mem_placed.2 ⟨i, Or.inl rfl⟩
  rw [hplaced] at hsorted hmem
  rcases List.mem_append.1 hmem with hbefore | hrest
  · exact hbefore
  · -- from the release on, everything comes at the release or behind it
    have hbehind := (List.pairwise_cons.1 (List.pairwise_append.1 hsorted).2.1).1
    rcases List.mem_cons.1 hrest with heq | hlater
    · have hchange := congrArg (·.1.change) heq
      cases hchange
    · exact absurd (hbehind _ hlater) (pressAt_precedes_releaseAt hbound i).asymm

variable {ρ : Type} {m : Machine ρ} {strokes : List Keystroke}

/-- What plays of a new track deliver stands before its cursor. -/
theorem playAll_eq_take (strokes : List Keystroke) (times : List Nat) :
    ((ofKeystrokes strokes).playAll times).1
      = ((placed strokes).take ((ofKeystrokes strokes).playAll times).2.played).map
          (·.1.change) := by
  have htake := take_played_playAll (ofKeystrokes strokes) times
  simp only [changes_ofKeystrokes, ← List.map_take, List.map_map] at htake
  exact htake

/-- All changes of the keystrokes together leave every key up. -/
theorem keys_foldl_placed (hup : m.keys = .allUp)
    (hbound : ∀ stroke ∈ strokes, stroke.atMs < bound64) :
    (((placed strokes).map (·.1.change)).foldl Machine.applyChange m).keys = .allUp := by
  refine Keypad.eq_allUp fun key hkey => ?_
  have hallUp : m.keys.isDown key = false := by rw [hup, Keypad.isDown_allUp]
  rw [← Bool.not_eq_true, isDown_foldl hkey hallUp (pairwise_placed strokes)]
  rintro ⟨e, he, hpress, hreleases⟩
  obtain ⟨i, rfl | rfl⟩ := mem_placed.1 he
  · -- the release of the same keystroke comes behind the press
    obtain rfl : strokes[i].key = key := KeyChange.press.inj hpress
    have hbefore := hreleases (releaseAt strokes i) (mem_placed.2 ⟨i, Or.inr rfl⟩) rfl
    exact hbefore.asymm (pressAt_precedes_releaseAt hbound i)
  · cases hpress

/-- A track that is finished has delivered all its changes. -/
theorem playAll_of_isFinished {times : List Nat}
    (h : ((ofKeystrokes strokes).playAll times).2.isFinished = true) :
    ((ofKeystrokes strokes).playAll times).1 = (placed strokes).map (·.1.change) := by
  have hplayed : ((ofKeystrokes strokes).playAll times).2.played = (placed strokes).length := by
    rw [isFinished, beq_iff_eq, changes_playAll, changes_ofKeystrokes, List.length_map] at h
    exact h
  rw [playAll_eq_take, hplayed, List.take_length]

end KeyTrack

/-! ## Sessions -/

namespace Session

variable {ρ : Type} [Host ρ]

/-- A session that is polled at these times in turn. -/
def pollAll (s : Session ρ) (times : List Nat) : Session ρ :=
  times.foldl (fun s now => (s.poll now).session) s

/-- The polls of a session play its track, and the keypad is what the delivered changes make of
it. -/
theorem keys_pollAll (s : Session ρ) (times : List Nat) :
    (s.pollAll times).track = (s.track.playAll (times.map s.elapsedMs)).2 ∧
      (s.pollAll times).machine.keys =
        ((s.track.playAll (times.map s.elapsedMs)).1.foldl Machine.applyChange s.machine).keys := by
  induction times generalizing s with
  | nil => exact ⟨rfl, rfl⟩
  | cons now times ih =>
    obtain ⟨htrack, hkeys⟩ := ih (s.poll now).session
    have hms : (s.poll now).session.elapsedMs = s.elapsedMs := funext (s.elapsedMs_poll now)
    have hfed : (s.poll now).session.machine.keys = (s.fed now).keys :=
      Machine.keys_poll (s.fed now) s.pacer now
    rw [hms] at htrack hkeys
    refine ⟨htrack, hkeys.trans ?_⟩
    -- the machine has run since the keys were fed, which the keypad does not show
    rw [Machine.keys_foldl_applyChange, hfed, ← Machine.keys_foldl_applyChange, fed,
      ← List.foldl_append]
    rfl

end Session

namespace KeyTrack

variable {ρ : Type} [Host ρ] {m : Machine ρ} {strokes : List Keystroke}

/-- **No played key stays down.** Take a machine whose keys are all up, and any keystrokes, of which
some may overlap, come twice or reach the end of time. However their track was asked, what it has
delivered stands in one order before its cursor, and every release among it has the press of the
same keystroke before it. If the track is finished, the changes that it delivered leave every key
up; and so does a session with these keystrokes, however it was polled and whatever its machine did,
when its track is finished. -/
theorem no_key_stays_down (hup : m.keys = .allUp)
    (hbound : ∀ stroke ∈ strokes, stroke.atMs < bound64) (times : List Nat) :
    let delivered := (ofKeystrokes strokes).playAll times
    let passed := (placed strokes).take delivered.2.played
    delivered.1 = passed.map (·.1.change) ∧
      (∀ i before after, passed = before ++ releaseAt strokes i :: after →
        pressAt strokes i ∈ before) ∧
      (delivered.2.isFinished = true →
        (delivered.1.foldl Machine.applyChange m).keys = .allUp) ∧
      ∀ (start rate : Nat) (polls : List Nat),
        let s := (Session.initial m start rate strokes).pollAll polls
        s.track.isFinished = true → s.machine.keys = .allUp := by
  intro delivered passed
  have hfinal : ∀ times, ((ofKeystrokes strokes).playAll times).2.isFinished = true →
      (((ofKeystrokes strokes).playAll times).1.foldl Machine.applyChange m).keys = .allUp := by
    intro times hfinished
    rw [playAll_of_isFinished hfinished]
    exact keys_foldl_placed hup hbound
  refine ⟨playAll_eq_take strokes times, fun i before after => pressed_before_released hbound,
    hfinal times, ?_⟩
  intro start rate polls s hfinished
  obtain ⟨htrack, hkeys⟩ := (Session.initial m start rate strokes).keys_pollAll polls
  rw [show s.track = _ from htrack] at hfinished
  rw [show s.machine.keys = _ from hkeys]
  exact hfinal _ hfinished

/-- Two holds of a key that begin near the end of time and end with it, listed the later one first,
and two overlapping holds of another key. -/
theorem no_key_stays_down_overlapping :
    let strokes : List Keystroke := [⟨1, bound64 - 1⟩, ⟨1, bound64 - 10⟩, ⟨7, 5⟩, ⟨7, 30⟩]
    let m := Machine.initial {} (SeededHost.ofSeed 7)
    let delivered := (ofKeystrokes strokes).playAll [40, bound64 - 1, 3]
    m.keys = .allUp ∧ (∀ stroke ∈ strokes, stroke.atMs < bound64) ∧
      delivered.2.isFinished = true ∧
      (delivered.1.foldl Machine.applyChange m).keys = .allUp := by
  intro strokes m delivered
  have hbound : ∀ stroke ∈ strokes, stroke.atMs < bound64 := by decide
  have hfinished : delivered.2.isFinished = true := by
    rw [show delivered = _ from playAll_eq_play_latest _ rfl, isFinished_play]
    decide
  obtain ⟨-, -, hup, -⟩ := no_key_stays_down (m := m) rfl hbound [40, bound64 - 1, 3]
  exact ⟨rfl, hbound, hfinished, hup hfinished⟩

end KeyTrack

end Chip8
