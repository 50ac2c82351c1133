import Chip8.Keypad.KeyTrack

/-!
# Chip8 — a key track that is played

A key track may be asked at any times, in any order: what it plays in all depends on the latest of
these times alone, as it goes forward over the changes and never back. A track that is asked again
before its next change is due plays nothing.

Main statements:

* `play_play` — two plays amount to one at the later of their times;
* `playAll_eq_play_latest` — so does any row of plays;
* `play_play_of_quiet` — where nothing falls due between two times, the later one plays nothing
  more.
-/

namespace Chip8.KeyTrack

/-! ## Times in a list of changes -/

/-- What is due at one time and what is due of the rest at another is what is due at the later
one. -/
theorem takeWhile_append_takeWhile (changes : List TimedChange) (now later : Nat) :
    changes.takeWhile (·.atMs ≤ now) ++
        (changes.dropWhile (·.atMs ≤ now)).takeWhile (·.atMs ≤ later)
      = changes.takeWhile (·.atMs ≤ max now later) := by
  induction changes with
  | nil => rfl
  | cons c changes ih =>
    by_cases hnow : c.atMs ≤ now
    · have hmax : c.atMs ≤ max now later := Nat.le_trans hnow (Nat.le_max_left ..)
      simpa [hnow, hmax] using ih
    · rcases Nat.le_total now later with hle | hge
      · simp [hnow, Nat.max_eq_right hle]
      · -- the change that stops the first stops the second at once
        have hlater : ¬ c.atMs ≤ later := fun h => hnow (Nat.le_trans h hge)
        simp [hnow, hlater, Nat.max_eq_left hge]

/-! ## Two plays -/

variable (track : KeyTrack) (now later : Nat)

/-- What a play leaves is what was not due. -/
theorem rest_play : (track.play now).2.rest = track.rest.dropWhile (·.atMs ≤ now) := by
  have hsplit : track.ready now ++ track.rest.dropWhile (·.atMs ≤ now) = track.rest :=
    List.takeWhile_append_dropWhile
  calc (track.play now).2.rest
      = track.rest.drop (track.ready now).length := by simp only [rest, play, List.drop_drop]
    _ = (track.ready now ++ track.rest.dropWhile (·.atMs ≤ now)).drop (track.ready now).length := by
        rw [hsplit]
    _ = track.rest.dropWhile (·.atMs ≤ now) := List.drop_left

/-- What is due at one time and then at another is what is due at the later one. -/
theorem ready_append :
    track.ready now ++ (track.play now).2.ready later = track.ready (max now later) := by
  rw [ready, ready, ready, rest_play]
  exact takeWhile_append_takeWhile track.rest now later

/-- Two plays in any order play what one at the later of their times plays, and leave the same. -/
theorem play_play :
    (track.play now).1 ++ ((track.play now).2.play later).1 = (track.play (max now later)).1 ∧
      ((track.play now).2.play later).2 = (track.play (max now later)).2 := by
  have hready := track.ready_append now later
  refine ⟨?_, ?_⟩
  · show (track.ready now).map _ ++ ((track.play now).2.ready later).map _ = _
    rw [← List.map_append, hready]
    rfl
  · have hlength := congrArg List.length hready
    rw [List.length_append] at hlength
    simp only [play] at hlength ⊢
    rw [← hlength, Nat.add_assoc]

/-- A track that is asked again before its next change is due has nothing to play. -/
theorem ready_play_of_quiet {track : KeyTrack} {now later : Nat}
    (hquiet : ∀ c ∈ track.rest, c.atMs ≤ later → c.atMs ≤ now) :
    (track.play now).2.ready later = [] := by
  rw [ready, rest_play]
  cases hrest : track.rest.dropWhile (·.atMs ≤ now) with
  | nil => rfl
  | cons c changes =>
    -- the first change that is left was not due, so it is not due at the later time either
    have hmem : c ∈ track.rest :=
      (List.dropWhile_sublist _).subset (hrest ▸ List.mem_cons_self ..)
    have hnow : ¬ c.atMs ≤ now := by
      have hhead := List.head_dropWhile_not (fun c : TimedChange => decide (c.atMs ≤ now))
        (w := by rw [hrest]; exact List.cons_ne_nil c changes)
      simpa [hrest] using hhead
    have hlater : ¬ c.atMs ≤ later := fun h => hnow (hquiet c hmem h)
    simp [hlater]

/-- Where nothing falls due between two times, a play at the first leaves nothing to play at the
second, which plays the same on its own. -/
theorem play_play_of_quiet {track : KeyTrack} {now later : Nat} (hle : now ≤ later)
    (hquiet : ∀ c ∈ track.rest, c.atMs ≤ later → c.atMs ≤ now) :
    ((track.play now).2.play later).1 = [] ∧
      ((track.play now).2.play later).2 = (track.play later).2 ∧
      (track.play later).1 = (track.play now).1 := by
  have hnone : ((track.play now).2.play later).1 = [] :=
    congrArg (List.map TimedChange.change) (ready_play_of_quiet hquiet)
  obtain ⟨hchanges, hleft⟩ := track.play_play now later
  rw [Nat.max_eq_right hle] at hchanges hleft
  rw [hnone, List.append_nil] at hchanges
  exact ⟨hnone, hleft, hchanges.symm⟩

/-! ## Many plays -/

/-- Plays at these times in turn. -/
def playAll (track : KeyTrack) : List Nat → List KeyChange × KeyTrack
  | [] => ([], track)
  | now :: later =>
    let rest := (track.play now).2.playAll later
    ((track.play now).1 ++ rest.1, rest.2)

/-- A row of plays plays what one play at the latest of their times plays, and leaves the same. -/
theorem playAll_eq_play_latest (track : KeyTrack) {times : List Nat} {latest : Nat}
    (hlatest : times.max? = some latest) : track.playAll times = track.play latest := by
  induction times generalizing track latest with
  | nil => simp at hlatest
  | cons now times ih =>
    cases times with
    | nil =>
      obtain rfl : now = latest := by simpa using hlatest
      simp [playAll]
    | cons next times =>
      -- the plays after the first amount to one at the latest of their times
      obtain ⟨later, hlater⟩ : ∃ later, (next :: times).max? = some later := ⟨_, rfl⟩
      obtain rfl : max now later = latest := by
        rw [List.max?_cons, hlater] at hlatest
        simpa using hlatest
      obtain ⟨hchanges, hleft⟩ := track.play_play now later
      rw [playAll, ih _ hlater, hchanges, hleft]

end Chip8.KeyTrack
