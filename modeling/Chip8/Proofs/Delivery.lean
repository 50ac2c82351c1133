import Chip8.Proofs.KeyHold

/-!
# Chip8 — what a key track delivers

A key track is a cursor in a list of changes sorted by time. However it is asked, it delivers the
changes of its keystrokes in one order, the stable one, and never more than are due at the latest
time at which it was asked: nothing is lost, nothing comes twice, and nothing comes out of turn. It
is finished once its last change is due.

The order is told without an algorithm. A list is sorted by time, and at each time it has the same
changes as the unsorted list, one after the other; no two lists are.

Main statements:

* `SortedStably.unique` — there is one way to sort changes stably;
* `sortedStably_ofKeystrokes` — the changes of a track are sorted in this way;
* `take_played_playAll` — what plays deliver lies between the cursor before and after them;
* `delivers_in_stable_order` — all that a new track delivers, and when it is finished.
-/

namespace Chip8.KeyTrack

/-! ## Sorting by time -/

/-- The second list is the first one sorted by time, where changes at one time stay as they were. -/
structure SortedStably (changes sorted : List TimedChange) : Prop where
  byTime : sorted.Pairwise (·.atMs ≤ ·.atMs)
  -- nothing is lost or added, and what belongs to one time keeps its order
  atEachTime : ∀ ms, sorted.filter (·.atMs = ms) = changes.filter (·.atMs = ms)

/-- A change of one of two lists with the same changes at each time is found in the other. -/
theorem mem_of_filter_eq {changes others : List TimedChange}
    (h : ∀ ms, changes.filter (·.atMs = ms) = others.filter (·.atMs = ms)) {c : TimedChange}
    (hc : c ∈ changes) : c ∈ others := by
  have hmem : c ∈ changes.filter (·.atMs = c.atMs) := List.mem_filter.2 ⟨hc, by simp⟩
  rw [h] at hmem
  exact (List.mem_filter.1 hmem).1

/-- Lists that are sorted by time and have the same changes at each time are the same. -/
theorem eq_of_filter_eq {changes others : List TimedChange}
    (hchanges : changes.Pairwise (·.atMs ≤ ·.atMs)) (hothers : others.Pairwise (·.atMs ≤ ·.atMs))
    (h : ∀ ms, changes.filter (·.atMs = ms) = others.filter (·.atMs = ms)) : changes = others := by
  induction changes generalizing others with
  | nil =>
    refine (List.eq_nil_iff_forall_not_mem.2 fun c hc => ?_).symm
    exact List.not_mem_nil (mem_of_filter_eq (fun ms => (h ms).symm) hc)
  | cons c changes ih =>
    cases others with
    | nil => exact absurd (mem_of_filter_eq h (List.mem_cons_self ..)) List.not_mem_nil
    | cons d others =>
      obtain ⟨hfirst, hrest⟩ := List.pairwise_cons.1 hchanges
      obtain ⟨hfirst', hrest'⟩ := List.pairwise_cons.1 hothers
      -- either list begins at the earliest time of both
      have hle : c.atMs ≤ d.atMs := by
        have hd := mem_of_filter_eq (fun ms => (h ms).symm) (List.mem_cons_self (a := d))
        rcases List.mem_cons.1 hd with rfl | hd
        · exact Nat.le_refl _
        · exact hfirst d hd
      have hge : d.atMs ≤ c.atMs := by
        rcases List.mem_cons.1 (mem_of_filter_eq h (List.mem_cons_self ..)) with rfl | hc
        · exact Nat.le_refl _
        · exact hfirst' c hc
      have htime : d.atMs = c.atMs := Nat.le_antisymm hge hle
      -- so they begin with the first change of this time
      obtain rfl : c = d := by
        have hhead := h c.atMs
        rw [List.filter_cons_of_pos (by simp), List.filter_cons_of_pos (by simp [htime])] at hhead
        exact (List.cons.inj hhead).1
      refine congrArg (c :: ·) (ih hrest hrest' fun ms => ?_)
      have hms := h ms
      by_cases hc : c.atMs = ms
      · rw [List.filter_cons_of_pos (by simp [hc]), List.filter_cons_of_pos (by simp [hc])] at hms
        exact (List.cons.inj hms).2
      · rwa [List.filter_cons_of_neg (by simp [hc]), List.filter_cons_of_neg (by simp [hc])] at hms

/-- There is one way to sort changes stably. -/
theorem SortedStably.unique {changes sorted others : List TimedChange}
    (h : SortedStably changes sorted) (h' : SortedStably changes others) : others = sorted :=
  eq_of_filter_eq h'.byTime h.byTime fun ms => (h'.atEachTime ms).trans (h.atEachTime ms).symm

/-- The changes of a track are those of its keystrokes, sorted stably. -/
theorem sortedStably_ofKeystrokes (strokes : List Keystroke) :
    SortedStably (strokes.flatMap Keystroke.changes) (ofKeystrokes strokes).changes where
  byTime := by
    rw [changes_ofKeystrokes, List.pairwise_map]
    refine (pairwise_placed strokes).imp fun h => ?_
    unfold Precedes at h
    omega
  atEachTime := by
    intro ms
    -- the changes of one time are sorted already, so the sort keeps them as a sublist
    have hsorted : ((strokes.flatMap Keystroke.changes).filter (·.atMs = ms)).Pairwise
        fun a b => decide (a.atMs ≤ b.atMs) = true := by
      refine List.pairwise_of_forall_mem_list fun a ha b hb => ?_
      have hat : a.atMs = ms := by simpa using (List.mem_filter.1 ha).2
      have hbt : b.atMs = ms := by simpa using (List.mem_filter.1 hb).2
      simp [hat, hbt]
    have hsub := (List.sublist_mergeSort atMs_trans atMs_total hsorted
      List.filter_sublist).filter (·.atMs = ms)
    simp only [List.filter_filter, Bool.and_self] at hsub
    -- and the sort adds none to them
    have hperm := (List.mergeSort_perm (strokes.flatMap Keystroke.changes)
      fun a b => decide (a.atMs ≤ b.atMs)).filter (·.atMs = ms)
    exact (hsub.eq_of_length hperm.length_eq.symm).symm

/-! ## The cursor -/

/-- A play delivers what lies between the cursor before it and the cursor after it. -/
theorem take_played_play (track : KeyTrack) (nowMs : Nat) :
    (track.changes.take track.played).map TimedChange.change ++ (track.play nowMs).1
      = (track.changes.take (track.play nowMs).2.played).map TimedChange.change := by
  have hready : track.ready nowMs = track.rest.take (track.ready nowMs).length :=
    List.prefix_iff_eq_take.1 (List.takeWhile_prefix _)
  show _ ++ (track.ready nowMs).map TimedChange.change
    = (track.changes.take (track.played + (track.ready nowMs).length)).map TimedChange.change
  rw [← List.map_append, List.take_add, ← rest, ← hready]

theorem changes_playAll (track : KeyTrack) (times : List Nat) :
    (track.playAll times).2.changes = track.changes := by
  induction times generalizing track with
  | nil => rfl
  | cons now times ih => exact ih (track.play now).2

/-- Plays deliver what lies between the cursor before them and the cursor after them. -/
theorem take_played_playAll (track : KeyTrack) (times : List Nat) :
    (track.changes.take track.played).map TimedChange.change ++ (track.playAll times).1
      = (track.changes.take (track.playAll times).2.played).map TimedChange.change := by
  induction times generalizing track with
  | nil => exact List.append_nil _
  | cons now times ih =>
    have hrest := ih (track.play now).2
    rw [playAll, ← List.append_assoc, take_played_play]
    exact hrest

/-! ## What a new track delivers -/

/-- A new track delivers the changes that are due, in their order. -/
theorem play_eq_filter (strokes : List Keystroke) (nowMs : Nat) :
    ((ofKeystrokes strokes).play nowMs).1
      = ((ofKeystrokes strokes).changes.filter (·.atMs ≤ nowMs)).map TimedChange.change := by
  rw [play_ofKeystrokes, changes_ofKeystrokes, List.filter_map, List.map_map]
  rfl

/-- A track that was played is finished if all its changes are due. -/
theorem isFinished_play (strokes : List Keystroke) (nowMs : Nat) :
    ((ofKeystrokes strokes).play nowMs).2.isFinished = true
      ↔ ∀ c ∈ strokes.flatMap Keystroke.changes, c.atMs ≤ nowMs := by
  have hlength := congrArg List.length (play_eq_filter strokes nowMs)
  have hplayed : ((ofKeystrokes strokes).play nowMs).2.played
      = ((ofKeystrokes strokes).play nowMs).1.length := by
    simp [play, ofKeystrokes]
  rw [List.length_map] at hlength
  rw [isFinished, beq_iff_eq, hplayed, hlength]
  show _ = (ofKeystrokes strokes).changes.length ↔ _
  rw [List.length_filter_eq_length_iff]
  simp [ofKeystrokes]

/-- **A track delivers its changes in one order.** There is one way to sort the presses and releases
of keystrokes by time so that those of one time stay in the order of their keystrokes, and of one
keystroke the press before the release. Whatever the times at which a new track was asked, and in
whatever order, what it delivered in all is this list up to the latest of these times; and it is
finished just if no press and no release has a later time. -/
theorem delivers_in_stable_order (strokes : List Keystroke) {times : List Nat} {latest : Nat}
    (hlatest : times.max? = some latest) :
    let delivered := (ofKeystrokes strokes).playAll times
    let changes := strokes.flatMap Keystroke.changes
    ∃ sorted, (∀ others, SortedStably changes others ↔ others = sorted) ∧
      delivered.1 = (sorted.filter (·.atMs ≤ latest)).map TimedChange.change ∧
      (delivered.2.isFinished = true ↔ ∀ c ∈ changes, c.atMs ≤ latest) := by
  intro delivered changes
  have hsorted := sortedStably_ofKeystrokes strokes
  have hplay : delivered = (ofKeystrokes strokes).play latest := playAll_eq_play_latest _ hlatest
  refine ⟨(ofKeystrokes strokes).changes, fun others => ⟨hsorted.unique, ?_⟩, ?_, ?_⟩
  · rintro rfl
    exact hsorted
  · rw [hplay]
    exact play_eq_filter strokes latest
  · rw [hplay]
    exact isFinished_play strokes latest

/-- Two keystrokes whose releases meet at the end of time, and one before them. The track is asked
out of order, first up to a moment before the end of time and then up to it. -/
theorem delivers_in_stable_order_saturated :
    let strokes : List Keystroke := [⟨1, bound64 - 1⟩, ⟨2, bound64 - 9⟩, ⟨3, 7⟩]
    let early := (ofKeystrokes strokes).playAll [bound64 - 9, 7, 90]
    let late := (ofKeystrokes strokes).playAll [bound64 - 1, 0]
    [bound64 - 9, 7, 90].max? = some (bound64 - 9) ∧
      early.1 = [.press 3, .release 3, .press 2] ∧ early.2.isFinished = false ∧
      [bound64 - 1, 0].max? = some (bound64 - 1) ∧
      late.1 = [.press 3, .release 3, .press 2, .press 1, .release 1, .release 2] ∧
      late.2.isFinished = true := by
  intro strokes early late
  have hsorted : SortedStably (strokes.flatMap Keystroke.changes)
      [⟨7, .press 3⟩, ⟨57, .release 3⟩, ⟨bound64 - 9, .press 2⟩, ⟨bound64 - 1, .press 1⟩,
        ⟨bound64 - 1, .release 1⟩, ⟨bound64 - 1, .release 2⟩] := by
    refine ⟨by decide, fun ms => ?_⟩
    by_cases hms : ms ∈ [7, 57, bound64 - 9, bound64 - 1]
    · revert ms
      decide
    · -- at any other time neither list has a change
      have hnone : ∀ changes : List TimedChange,
          (∀ c ∈ changes, c.atMs ∈ [7, 57, bound64 - 9, bound64 - 1]) →
            changes.filter (·.atMs = ms) = [] := by
        intro changes hall
        refine List.filter_eq_nil_iff.2 fun c hc hat => hms ?_
        rw [← of_decide_eq_true hat]
        exact hall c hc
      rw [hnone _ (by decide), hnone _ (by decide)]
  obtain ⟨sorted, hunique, hearly, hfinished⟩ := @delivers_in_stable_order strokes
    [bound64 - 9, 7, 90] _ rfl
  obtain ⟨sorted', hunique', hlate, hfinished'⟩ := @delivers_in_stable_order strokes
    [bound64 - 1, 0] _ rfl
  obtain rfl := (hunique _).1 hsorted
  obtain rfl := (hunique' _).1 hsorted
  refine ⟨rfl, hearly, ?_, rfl, hlate, hfinished'.2 (by decide)⟩
  rw [← Bool.not_eq_true, hfinished]
  decide

end Chip8.KeyTrack
