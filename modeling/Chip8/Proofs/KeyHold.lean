import Chip8.Host.Seeded
import Chip8.Machine.Input
import Chip8.Proofs.Playing
import Chip8.Proofs.Rows
import Mathlib.Data.List.Induction

/-!
# Chip8 — how long a played key stays down

A keystroke means to hold its key from its time until its release. The track knows nothing of holds:
it plays presses and releases in turn, and a key is down if the last change of it was a press. So
the release of one keystroke lets go of a key that another one still holds, and where a hold begins
at the moment another one ends, the order in which the keystrokes were listed decides.

The changes are put in a strict order by tagging each with its place in the list before it is
sorted, which a stable sort does not notice.

Main statements:

* `isDown_foldl` — a key is down if one of its presses comes after all its releases;
* `isDown_play` — a key is down if a keystroke covers the moment and none of its key ended since;
* `isDown_playAll_iff` — the same of any row of plays, and what it amounts to where the keystrokes
  of a key stay apart.
-/

namespace Chip8

/-! ## The keypad after changes -/

theorem Keypad.isDown_allUp (key : UInt8) : allUp.isDown key = false := by
  unfold isDown allUp
  cases h : (Vector.replicate 16 false)[key.toNat]? with
  | none => rfl
  | some down =>
    obtain ⟨hk, rfl⟩ := Vector.getElem?_eq_some_iff.1 h
    exact Vector.getElem_replicate hk

/-- A number that means no key is dropped, which no key notices. -/
theorem Keypad.isDown_putIfKey (keys : Keypad) {key : UInt8} (hkey : isKey key) (other : UInt8)
    (down : Bool) :
    (if isKey other then keys.put other down else keys).isDown key
      = if key = other then down else keys.isDown key := by
  split
  · rename_i h
    exact isDown_put h down key
  · rename_i h
    have hne : key ≠ other := fun e => h (e ▸ hkey)
    rw [if_neg hne]

/-- The keypad after a change of a key. -/
def Keypad.change (keys : Keypad) : KeyChange → Keypad
  | .press key => if isKey key then keys.put key true else keys
  | .release key => if isKey key then keys.put key false else keys

/-- A change of a key does to the keypad of a machine what it does to a keypad alone. -/
theorem Machine.keys_applyChange {ρ : Type} (m : Machine ρ) (change : KeyChange) :
    (m.applyChange change).keys = m.keys.change change := by
  cases change with
  | press key =>
    rw [applyChange, press, Keypad.change]
    split <;> rfl
  | release key =>
    rw [applyChange, release, Keypad.change]
    split <;> rfl

/-- A key is down after a change if the change pressed it, or if it was down and not released. -/
theorem Machine.isDown_applyChange {ρ : Type} (m : Machine ρ) (change : KeyChange) {key : UInt8}
    (hkey : Keypad.isKey key) :
    (m.applyChange change).keys.isDown key = true
      ↔ change = .press key ∨ m.keys.isDown key = true ∧ change ≠ .release key := by
  rw [keys_applyChange]
  cases change with
  | press other =>
    rw [Keypad.change, Keypad.isDown_putIfKey _ hkey]
    by_cases e : key = other
    · simp [e]
    · simp [e, Ne.symm e]
  | release other =>
    rw [Keypad.change, Keypad.isDown_putIfKey _ hkey]
    by_cases e : key = other
    · simp [e]
    · simp [e, Ne.symm e]

/-! ## The hold of a keystroke -/

namespace Keystroke

/-- A keystroke means to hold its key at a moment. -/
def covers (stroke : Keystroke) (nowMs : Nat) : Prop :=
  stroke.atMs ≤ nowMs ∧ nowMs < stroke.releaseMs

instance (stroke : Keystroke) (nowMs : Nat) : Decidable (stroke.covers nowMs) :=
  inferInstanceAs (Decidable (_ ∧ _))

theorem atMs_le_releaseMs {stroke : Keystroke} (h : stroke.atMs < bound64) :
    stroke.atMs ≤ stroke.releaseMs := by
  unfold releaseMs
  omega

end Keystroke

namespace KeyTrack

/-! ## The order of the changes -/

/-- A change comes before another one, where each stands with its place in the list before it was
sorted. -/
def Precedes (e f : TimedChange × Nat) : Prop :=
  e.1.atMs < f.1.atMs ∨ e.1.atMs = f.1.atMs ∧ e.2 < f.2

theorem Precedes.asymm {e f : TimedChange × Nat} (h : Precedes e f) : ¬ Precedes f e := by
  unfold Precedes at *
  omega

/-- A key is down if one of its presses comes after all its releases. -/
theorem isDown_foldl {ρ : Type} {m : Machine ρ} {key : UInt8} (hkey : Keypad.isKey key)
    (hup : m.keys.isDown key = false) {changes : List (TimedChange × Nat)}
    (hsorted : changes.Pairwise Precedes) :
    ((changes.map (·.1.change)).foldl Machine.applyChange m).keys.isDown key = true
      ↔ ∃ e ∈ changes, e.1.change = .press key ∧
          ∀ f ∈ changes, f.1.change = .release key → Precedes f e := by
  -- the last change comes after all the others
  induction changes using List.reverseRecOn with
  | nil => simp [hup]
  | append_singleton changes last ih =>
    obtain ⟨hbefore, -, hlast⟩ := List.pairwise_append.1 hsorted
    have hprec : ∀ e ∈ changes, Precedes e last := by simpa using hlast
    rw [List.map_append, List.foldl_append]
    show (Machine.applyChange _ last.1.change).keys.isDown key = true ↔ _
    rw [Machine.isDown_applyChange _ _ hkey, ih hbefore]
    constructor
    · rintro (hpress | ⟨⟨e, he, hpress, hreleases⟩, hkept⟩)
      · refine ⟨last, by simp, hpress, fun f hf hrelease => ?_⟩
        rcases List.mem_append.1 hf with hf | hf
        · exact hprec f hf
        · rw [List.mem_singleton.1 hf, hpress] at hrelease
          cases hrelease
      · refine ⟨e, List.mem_append_left _ he, hpress, fun f hf hrelease => ?_⟩
        rcases List.mem_append.1 hf with hf | hf
        · exact hreleases f hf hrelease
        · exact absurd (List.mem_singleton.1 hf ▸ hrelease) hkept
    · rintro ⟨e, he, hpress, hreleases⟩
      rcases List.mem_append.1 he with he | he
      · refine Or.inr ⟨⟨e, he, hpress, fun f hf => hreleases f (List.mem_append_left _ hf)⟩, ?_⟩
        exact fun hrelease => (hreleases last (by simp) hrelease).asymm (hprec e he)
      · exact Or.inl (List.mem_singleton.1 he ▸ hpress)

/-! ## The changes in their order -/

theorem atMs_trans (a b c : TimedChange) (hab : decide (a.atMs ≤ b.atMs) = true)
    (hbc : decide (b.atMs ≤ c.atMs) = true) : decide (a.atMs ≤ c.atMs) = true := by
  simp only [decide_eq_true_eq] at *
  exact Nat.le_trans hab hbc

theorem atMs_total (a b : TimedChange) :
    (decide (a.atMs ≤ b.atMs) || decide (b.atMs ≤ a.atMs)) = true := by
  simpa using Nat.le_total a.atMs b.atMs

/-- The changes of a list of keystrokes in the order they are played, each with its place in the
list before it was sorted. -/
def placed (strokes : List Keystroke) : List (TimedChange × Nat) :=
  (strokes.flatMap Keystroke.changes).zipIdx.mergeSort
    (List.zipIdxLE fun a b => a.atMs ≤ b.atMs)

/-- The sort does not notice the places, as it keeps changes at one time in their order. -/
theorem changes_ofKeystrokes (strokes : List Keystroke) :
    (ofKeystrokes strokes).changes = (placed strokes).map Prod.fst :=
  List.mergeSort_zipIdx.symm

theorem pairwise_placed (strokes : List Keystroke) : (placed strokes).Pairwise Precedes := by
  have hsorted : (placed strokes).Pairwise
      fun e f => List.zipIdxLE (fun a b : TimedChange => a.atMs ≤ b.atMs) e f = true :=
    List.pairwise_mergeSort (List.zipIdxLE_trans atMs_trans) (List.zipIdxLE_total atMs_total) _
  -- no two changes have one place
  have hplaces : ((placed strokes).map Prod.snd).Nodup := by
    have hperm := (List.mergeSort_perm (strokes.flatMap Keystroke.changes).zipIdx
      (List.zipIdxLE fun a b => a.atMs ≤ b.atMs)).map Prod.snd
    rw [placed, hperm.nodup_iff, List.zipIdx_map_snd]
    exact List.nodup_range'
  refine (hsorted.and (List.pairwise_map.1 hplaces)).imp ?_
  rintro e f ⟨hle, hne⟩
  unfold Precedes
  grind [List.zipIdxLE]

/-- The changes of a keystroke stand side by side, the press before the release. -/
theorem getElem?_flatMap_changes (strokes : List Keystroke) (i : Nat) :
    (strokes.flatMap Keystroke.changes)[2 * i]?
        = strokes[i]?.map (fun stroke => ⟨stroke.atMs, .press stroke.key⟩) ∧
      (strokes.flatMap Keystroke.changes)[2 * i + 1]?
        = strokes[i]?.map fun stroke => ⟨stroke.releaseMs, .release stroke.key⟩ := by
  have hlength : ∀ stroke ∈ strokes, stroke.changes.length = 2 := fun _ _ => rfl
  have hpress := getElem?_flatMap_of_length hlength i Nat.zero_lt_two
  have hrelease := getElem?_flatMap_of_length hlength i Nat.one_lt_two
  rw [Option.map_eq_bind, Option.map_eq_bind]
  exact ⟨hpress, hrelease⟩

/-- The press of a keystroke, with its place. -/
def pressAt (strokes : List Keystroke) (i : Fin strokes.length) : TimedChange × Nat :=
  (⟨strokes[i].atMs, .press strokes[i].key⟩, 2 * i)

/-- The release of a keystroke, with its place. -/
def releaseAt (strokes : List Keystroke) (i : Fin strokes.length) : TimedChange × Nat :=
  (⟨strokes[i].releaseMs, .release strokes[i].key⟩, 2 * i + 1)

/-- The release of one keystroke comes before the press of another. -/
theorem releaseAt_precedes_pressAt {strokes : List Keystroke} {i j : Fin strokes.length} :
    Precedes (releaseAt strokes j) (pressAt strokes i)
      ↔ strokes[j].releaseMs < strokes[i].atMs ∨
        strokes[j].releaseMs = strokes[i].atMs ∧ j < i := by
  have hplaces : 2 * j.val + 1 < 2 * i.val ↔ j < i := by
    rw [Fin.lt_def]
    omega
  rw [Precedes, releaseAt, pressAt, hplaces]

theorem mem_placed {strokes : List Keystroke} {e : TimedChange × Nat} :
    e ∈ placed strokes ↔ ∃ i, e = pressAt strokes i ∨ e = releaseAt strokes i := by
  rw [placed, List.mem_mergeSort, List.mem_zipIdx_iff_getElem?]
  constructor
  · obtain ⟨change, place⟩ := e
    intro h
    obtain ⟨i, rfl | rfl⟩ : ∃ i, place = 2 * i ∨ place = 2 * i + 1 := ⟨place / 2, by omega⟩
    · rw [(getElem?_flatMap_changes strokes i).1, Option.map_eq_some_iff] at h
      obtain ⟨stroke, hstroke, rfl⟩ := h
      obtain ⟨hi, rfl⟩ := List.getElem?_eq_some_iff.1 hstroke
      exact ⟨⟨i, hi⟩, Or.inl rfl⟩
    · rw [(getElem?_flatMap_changes strokes i).2, Option.map_eq_some_iff] at h
      obtain ⟨stroke, hstroke, rfl⟩ := h
      obtain ⟨hi, rfl⟩ := List.getElem?_eq_some_iff.1 hstroke
      exact ⟨⟨i, hi⟩, Or.inr rfl⟩
  · rintro ⟨i, rfl | rfl⟩
    · rw [pressAt, (getElem?_flatMap_changes strokes i).1]
      simp
    · rw [releaseAt, (getElem?_flatMap_changes strokes i).2]
      simp

/-- What is due of changes in their order is what has its time by then. -/
theorem takeWhile_eq_filter {changes : List (TimedChange × Nat)} (h : changes.Pairwise Precedes)
    (nowMs : Nat) :
    changes.takeWhile (·.1.atMs ≤ nowMs) = changes.filter (·.1.atMs ≤ nowMs) := by
  induction changes with
  | nil => rfl
  | cons e changes ih =>
    obtain ⟨hfirst, hrest⟩ := List.pairwise_cons.1 h
    by_cases hdue : e.1.atMs ≤ nowMs
    · simp [hdue, ih hrest]
    · -- what comes after a change that is not due is not due either
      have hlater : ∀ f ∈ changes, ¬ f.1.atMs ≤ nowMs := by
        intro f hf
        have := hfirst f hf
        unfold Precedes at this
        omega
      simpa [hdue] using hlater

/-- A new track plays the changes whose time has come in their order. -/
theorem play_ofKeystrokes (strokes : List Keystroke) (nowMs : Nat) :
    ((ofKeystrokes strokes).play nowMs).1
      = ((placed strokes).filter (·.1.atMs ≤ nowMs)).map (·.1.change) := by
  rw [← takeWhile_eq_filter (pairwise_placed strokes)]
  show ((ofKeystrokes strokes).changes.takeWhile _).map _ = _
  rw [changes_ofKeystrokes, List.takeWhile_map, List.map_map]
  rfl

/-! ## Holds -/

/-- A keystroke of the same key ended since a keystroke began; one that ended just then counts if it
is listed behind. -/
def CutShort (strokes : List Keystroke) (nowMs : Nat) (i : Fin strokes.length) : Prop :=
  ∃ j : Fin strokes.length, strokes[j].key = strokes[i].key ∧ strokes[j].releaseMs ≤ nowMs ∧
    (strokes[i].atMs < strokes[j].releaseMs ∨ strokes[i].atMs = strokes[j].releaseMs ∧ i < j)

instance (strokes : List Keystroke) (nowMs : Nat) (i : Fin strokes.length) :
    Decidable (CutShort strokes nowMs i) :=
  inferInstanceAs (Decidable (∃ _, _))

/-- The holds of a key do not overlap, and where one begins as another one ends it is listed
behind. -/
def Apart (strokes : List Keystroke) (key : UInt8) : Prop :=
  ∀ i j : Fin strokes.length, i < j → strokes[i].key = key → strokes[j].key = key →
    strokes[i].releaseMs ≤ strokes[j].atMs ∨ strokes[j].releaseMs < strokes[i].atMs

instance (strokes : List Keystroke) (key : UInt8) : Decidable (Apart strokes key) :=
  inferInstanceAs (Decidable (∀ _, _))

variable {ρ : Type} {m : Machine ρ} {strokes : List Keystroke} {key : UInt8}

/-- A key is down if a keystroke covers the moment and none of its key ended since. -/
theorem isDown_play (hkey : Keypad.isKey key) (hup : m.keys.isDown key = false)
    (hbound : ∀ stroke ∈ strokes, stroke.atMs < bound64) (nowMs : Nat) :
    (((ofKeystrokes strokes).play nowMs).1.foldl Machine.applyChange m).keys.isDown key = true
      ↔ ∃ i : Fin strokes.length, strokes[i].key = key ∧ strokes[i].covers nowMs ∧
          ¬ CutShort strokes nowMs i := by
  rw [play_ofKeystrokes, isDown_foldl hkey hup ((pairwise_placed strokes).filter _)]
  simp only [List.mem_filter, decide_eq_true_eq, mem_placed]
  constructor
  · rintro ⟨e, ⟨⟨i, rfl | rfl⟩, hdue⟩, hpress, hreleases⟩
    · obtain rfl : strokes[i].key = key := KeyChange.press.inj hpress
      have hbefore : ∀ j : Fin strokes.length, strokes[j].key = strokes[i].key →
          strokes[j].releaseMs ≤ nowMs → strokes[j].releaseMs < strokes[i].atMs ∨
            strokes[j].releaseMs = strokes[i].atMs ∧ j < i :=
        fun j hj hended => releaseAt_precedes_pressAt.1
          (hreleases _ ⟨⟨j, Or.inr rfl⟩, hended⟩ (congrArg KeyChange.release hj))
      refine ⟨i, rfl, ⟨hdue, Nat.lt_of_not_le fun hended => ?_⟩, ?_⟩
      · -- its own release would come before its press
        have hle : strokes[i].atMs ≤ strokes[i].releaseMs :=
          Keystroke.atMs_le_releaseMs (hbound _ (List.getElem_mem i.isLt))
        rcases hbefore i rfl hended with hlt | ⟨-, hii⟩
        · exact absurd hle (Nat.not_le.2 hlt)
        · exact absurd hii (Nat.lt_irrefl i.val)
      · rintro ⟨j, hj, hended, hsince⟩
        have hother := hbefore j hj hended
        omega
    · cases hpress
  · rintro ⟨i, rfl, ⟨hbegan, hholds⟩, hkept⟩
    refine ⟨pressAt strokes i, ⟨⟨i, Or.inl rfl⟩, hbegan⟩, rfl, ?_⟩
    rintro f ⟨⟨j, rfl | rfl⟩, hdue⟩ hrelease
    · cases hrelease
    · -- a release that does not come before the press cuts the hold short
      have hj : strokes[j].key = strokes[i].key := KeyChange.release.inj hrelease
      have hne : i ≠ j := by
        rintro rfl
        exact absurd hdue (Nat.not_le.2 hholds)
      by_contra hbefore
      rw [releaseAt_precedes_pressAt] at hbefore
      refine hkept ⟨j, hj, hdue, ?_⟩
      omega

/-- Where the holds of a key stay apart, none cuts another one short. -/
theorem not_cutShort_of_apart (hapart : Apart strokes key)
    (hbound : ∀ stroke ∈ strokes, stroke.atMs < bound64) {nowMs : Nat} {i : Fin strokes.length}
    (hi : strokes[i].key = key) (hcovers : strokes[i].covers nowMs) :
    ¬ CutShort strokes nowMs i := by
  rintro ⟨j, hj, hended, hsince⟩
  obtain ⟨hbegan, hholds⟩ := hcovers
  have hle : strokes[j].atMs ≤ strokes[j].releaseMs :=
    Keystroke.atMs_le_releaseMs (hbound _ (List.getElem_mem j.isLt))
  rcases Nat.lt_trichotomy i.val j.val with hij | hij | hji
  · have hgap := hapart i j hij hi (hj.trans hi)
    omega
  · obtain rfl := Fin.ext hij
    exact absurd hended (Nat.not_le.2 hholds)
  · have hgap := hapart j i hji (hj.trans hi) hi
    omega

/-- However often a track is played, the latest of the times counts. -/
theorem isDown_playAll (hkey : Keypad.isKey key) (hup : m.keys = .allUp)
    (hbound : ∀ stroke ∈ strokes, stroke.atMs < bound64) {times : List Nat} {latest : Nat}
    (hlatest : times.max? = some latest) :
    (((ofKeystrokes strokes).playAll times).1.foldl Machine.applyChange m).keys.isDown key = true
      ↔ ∃ i : Fin strokes.length, strokes[i].key = key ∧ strokes[i].covers latest ∧
          ¬ CutShort strokes latest i := by
  have hallUp : m.keys.isDown key = false := by rw [hup, Keypad.isDown_allUp]
  rw [playAll_eq_play_latest _ hlatest]
  exact isDown_play hkey hallUp hbound latest

/-- **When a played key is down.** However often a new track was played, a machine whose keys were
all up has a key down afterwards just if a keystroke of this key covers the latest of the times and
none of this key ended since it began. Where the holds of the key stay apart that is to say that a
keystroke of the key covers the time; where they do not, the first of them to end lets go of it. -/
theorem isDown_playAll_iff (hkey : Keypad.isKey key) (hup : m.keys = .allUp)
    (hbound : ∀ stroke ∈ strokes, stroke.atMs < bound64) {times : List Nat} {latest : Nat}
    (hlatest : times.max? = some latest) :
    let after := ((ofKeystrokes strokes).playAll times).1.foldl Machine.applyChange m
    (after.keys.isDown key = true ↔ ∃ i : Fin strokes.length, strokes[i].key = key ∧
        strokes[i].covers latest ∧ ¬ CutShort strokes latest i) ∧
      (Apart strokes key → (after.keys.isDown key = true ↔
        ∃ stroke ∈ strokes, stroke.key = key ∧ stroke.covers latest)) := by
  have hdown := isDown_playAll hkey hup hbound hlatest
  refine ⟨hdown, fun hapart => hdown.trans ?_⟩
  constructor
  · rintro ⟨i, hi, hcovers, -⟩
    exact ⟨strokes[i], List.getElem_mem i.isLt, hi, hcovers⟩
  · rintro ⟨stroke, hmem, hstroke, hcovers⟩
    obtain ⟨i, hi, rfl⟩ := List.getElem_of_mem hmem
    exact ⟨⟨i, hi⟩, hstroke, hcovers, not_cutShort_of_apart hapart hbound hstroke hcovers⟩

/-- The second hold of the key begins as the first one ends, and the track is played last at that
moment. -/
theorem isDown_playAll_iff_touching :
    let strokes : List Keystroke := [⟨0xA, 10⟩, ⟨0x3, 90⟩, ⟨0xA, 60⟩]
    let m := Machine.initial {} (SeededHost.ofSeed 7)
    let after := ((ofKeystrokes strokes).playAll [5, 20, 20, 60]).1.foldl Machine.applyChange m
    Apart strokes 0xA ∧ after.keys.isDown 0xA = true := by
  intro strokes m after
  have hapart : Apart strokes 0xA := by decide
  obtain ⟨-, hdown⟩ := @isDown_playAll_iff _ m strokes 0xA (by decide) rfl (by decide)
    [5, 20, 20, 60] 60 rfl
  exact ⟨hapart, (hdown hapart).2 ⟨⟨0xA, 60⟩, by decide, rfl, by decide⟩⟩

/-- A keystroke of each of two keys covers the moment and neither key is down: the first key was let
go when an earlier hold of it ended, and the second one was pressed and let go at one time, since
the hold that ended then is listed behind the one that began. Listed the other way round the second
key is down. -/
theorem covered_but_up :
    let strokes : List Keystroke := [⟨1, 0⟩, ⟨1, 30⟩, ⟨2, 50⟩, ⟨2, 0⟩]
    let after (strokes : List Keystroke) := ((ofKeystrokes strokes).playAll [60]).1.foldl
      Machine.applyChange (Machine.initial {} (SeededHost.ofSeed 7))
    (∃ stroke ∈ strokes, stroke.key = 1 ∧ stroke.covers 60) ∧
      (∃ stroke ∈ strokes, stroke.key = 2 ∧ stroke.covers 60) ∧
      (after strokes).keys.isDown 1 = false ∧ (after strokes).keys.isDown 2 = false ∧
      (after strokes.reverse).keys.isDown 2 = true := by
  intro strokes after
  have hdown : ∀ strokes : List Keystroke, (∀ stroke ∈ strokes, stroke.atMs < bound64) →
      ∀ key : UInt8, Keypad.isKey key → ((after strokes).keys.isDown key = true ↔
        ∃ i : Fin strokes.length, strokes[i].key = key ∧ strokes[i].covers 60 ∧
          ¬ CutShort strokes 60 i) :=
    fun strokes hbound key hkey => isDown_playAll hkey rfl hbound rfl
  refine ⟨by decide, by decide, ?_, ?_, ?_⟩
  · rw [← Bool.not_eq_true, hdown strokes (by decide) 1 (by decide)]
    decide
  · rw [← Bool.not_eq_true, hdown strokes (by decide) 2 (by decide)]
    decide
  · rw [hdown strokes.reverse (by decide) 2 (by decide)]
    decide

end KeyTrack

end Chip8
