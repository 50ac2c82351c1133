import Chip8.Keypad.Keystroke
import Chip8.Proofs.Numerals
import Mathlib.Data.List.TakeWhile

/-!
# Chip8 — which texts are keystrokes

A text describes a keystroke if it falls apart at its first at sign into a numeral for a key and a
numeral for a time, with white space around either. Every other text is refused, and for one reason:
there is no at sign, or else what stands before it names no key, or else what stands behind it names
no time. The reader reads the texts that describe a keystroke, and tells the reason for all others
with the wrong part as it was written.

Main statements:

* `trim_pad`, `exists_pad` — what is left of a text without the white space at its ends;
* `Keystroke.parts?_eq_some_iff` — the reader takes a text apart at its first at sign;
* `Keystroke.reads_descriptions` — what the reader makes of every text.
-/

namespace Chip8

/-! ## White space around a text -/

/-- The text is white space. -/
def IsBlankText (text : List Char) : Prop :=
  ∀ c ∈ text, isBlank c = true

theorem dropWhile_isBlank {left text : List Char} (hleft : IsBlankText left) (hne : text ≠ [])
    (htext : ∀ c ∈ text, isBlank c = false) (rest : List Char) :
    (left ++ (text ++ rest)).dropWhile isBlank = text ++ rest := by
  obtain ⟨c, cs, rfl⟩ := List.exists_cons_of_ne_nil hne
  rw [List.dropWhile_append_of_pos hleft, List.cons_append, List.dropWhile_cons_of_neg]
  rw [htext c (List.mem_cons_self ..)]
  exact Bool.false_ne_true

/-- White space is taken from both ends of a text in which there is none. -/
theorem trim_pad {left text right : List Char} (hleft : IsBlankText left)
    (hright : IsBlankText right) (hne : text ≠ []) (htext : ∀ c ∈ text, isBlank c = false) :
    trim (left ++ text ++ right) = text := by
  have hfront : (left ++ text ++ right).dropWhile isBlank = text ++ right := by
    rw [List.append_assoc, dropWhile_isBlank hleft hne htext]
  -- the same from the other end
  have hright' : IsBlankText right.reverse := fun c hc => hright c (List.mem_reverse.1 hc)
  have htext' : ∀ c ∈ text.reverse, isBlank c = false := fun c hc => htext c (List.mem_reverse.1 hc)
  have hback : (text ++ right).reverse.dropWhile isBlank = text.reverse := by
    have hdrop := dropWhile_isBlank hright' (List.reverse_ne_nil_iff.2 hne) htext' []
    rwa [List.append_nil, ← List.reverse_append] at hdrop
  rw [trim, hfront, hback, List.reverse_reverse]

/-- What is taken from the ends of a text is white space. -/
theorem exists_pad (text : List Char) :
    ∃ left right, IsBlankText left ∧ IsBlankText right ∧ text = left ++ trim text ++ right := by
  refine ⟨text.takeWhile isBlank, ((text.dropWhile isBlank).reverse.takeWhile isBlank).reverse,
    fun c hc => List.mem_takeWhile_imp hc, fun c hc => ?_, ?_⟩
  · exact List.mem_takeWhile_imp (List.mem_reverse.1 hc)
  · rw [trim, List.append_assoc, ← List.reverse_append, List.takeWhile_append_dropWhile,
      List.reverse_reverse, List.takeWhile_append_dropWhile]

/-- White space is neither a sign nor a digit. -/
theorem isBlank_of_denotes {base n : Nat} {text : List Char} (h : Numeral.Denotes base text n)
    {c : Char} (hc : c ∈ text) : isBlank c = false := by
  rcases h.eq_plus_or_digitValue_lt hc with rfl | hdigit
  · rfl
  · have hrange := Numeral.toNat_of_digitValue_lt hdigit
    simp only [isBlank, Bool.or_eq_false_iff, Bool.and_eq_false_iff, decide_eq_false_iff_not,
      beq_eq_false_iff_ne]
    omega

/-- A text is a numeral with white space around it. -/
inductive Padded (base : Nat) (text : List Char) (n : Nat) : Prop where
  | intro (left numeral right : List Char) (whole : text = left ++ numeral ++ right)
      (before : IsBlankText left) (behind : IsBlankText right)
      (denotes : Numeral.Denotes base numeral n)

theorem padded_iff {base n : Nat} {text : List Char} :
    Padded base text n ↔ Numeral.Denotes base (trim text) n := by
  constructor
  · rintro ⟨left, numeral, right, rfl, hleft, hright, hdenotes⟩
    rwa [trim_pad hleft hright hdenotes.ne_nil fun c hc => isBlank_of_denotes hdenotes hc]
  · intro h
    obtain ⟨left, right, hleft, hright, hwhole⟩ := exists_pad text
    exact ⟨left, trim text, right, hwhole, hleft, hright, h⟩

/-- There is no at sign in a numeral with white space around it. -/
theorem Padded.not_mem_at {base n : Nat} {text : List Char} (h : Padded base text n) :
    '@' ∉ text := by
  obtain ⟨left, numeral, right, rfl, hleft, hright, hdenotes⟩ := h
  intro hat
  rcases List.mem_append.1 hat with hat | hat
  · rcases List.mem_append.1 hat with hat | hat
    · exact absurd (hleft '@' hat) (by decide)
    · exact absurd (hdenotes.eq_plus_or_digitValue_lt hat) (by decide)
  · exact absurd (hright '@' hat) (by decide)

namespace Keystroke

/-! ## What describes a keystroke -/

/-- The text falls apart at its first at sign. -/
structure SplitsAt (text before behind : List Char) : Prop where
  whole : text = before ++ '@' :: behind
  first : '@' ∉ before

/-- The text is a hexadecimal numeral for the key, with white space around it. -/
structure NamesKey (text : List Char) (key : UInt8) : Prop where
  numeral : Padded 16 text key.toNat
  onKeypad : key.toNat < 16

/-- The text is a decimal numeral for the time, with white space around it. -/
structure NamesTime (text : List Char) (atMs : Nat) : Prop where
  numeral : Padded 10 text atMs
  inTime : atMs < bound64

/-- The text describes the keystroke. -/
inductive Describes (text : String) (stroke : Keystroke) : Prop where
  | intro (before behind : List Char) (splits : SplitsAt text.toList before behind)
      (key : NamesKey before stroke.key) (time : NamesTime behind stroke.atMs)

/-- What is wrong with a text that describes no keystroke. -/
inductive Refused (text : String) : KeystrokeError → Prop where
  | format (noAt : '@' ∉ text.toList) : Refused text (.format text)
  -- a bad key is told whatever stands behind it
  | key (before behind : List Char) (splits : SplitsAt text.toList before behind)
      (noKey : ∀ key, ¬ NamesKey before key) : Refused text (.key (String.ofList before))
  | time (before behind : List Char) (key : UInt8) (splits : SplitsAt text.toList before behind)
      (isKey : NamesKey before key) (noTime : ∀ atMs, ¬ NamesTime behind atMs) :
      Refused text (.time (String.ofList behind))

/-! ## What the reader makes of the parts -/

theorem parts?_eq_some_iff {text before behind : List Char} :
    parts? text = some (before, behind) ↔ SplitsAt text before behind := by
  constructor
  · intro h
    unfold parts? at h
    split at h
    · cases h
    · rename_i c rest hrest
      obtain rfl : c = '@' := by
        have hstop := List.head?_dropWhile_not (· != '@') text
        rw [hrest] at hstop
        simpa using hstop
      simp only [Option.some.injEq, Prod.mk.injEq] at h
      obtain ⟨rfl, rfl⟩ := h
      refine ⟨?_, fun hmem => ?_⟩
      · rw [← hrest, List.takeWhile_append_dropWhile]
      · simpa using List.mem_takeWhile_imp hmem
  · rintro ⟨rfl, hfirst⟩
    have hbefore : ∀ c ∈ before, (c != '@') = true := by
      intro c hc
      rw [bne_iff_ne]
      rintro rfl
      exact hfirst hc
    simp [parts?, List.dropWhile_append_of_pos hbefore, List.takeWhile_append_of_pos hbefore]

/-- A text with an at sign falls apart at its first one. -/
theorem exists_splitsAt {text : List Char} (h : '@' ∈ text) :
    ∃ before behind, SplitsAt text before behind := by
  obtain ⟨before, behind, hwhole, hfirst⟩ := List.eq_append_cons_of_mem h
  exact ⟨before, behind, hwhole, hfirst⟩

theorem parts?_eq_none_iff {text : List Char} : parts? text = none ↔ '@' ∉ text := by
  constructor
  · intro hnone hat
    obtain ⟨before, behind, hsplits⟩ := exists_splitsAt hat
    rw [parts?_eq_some_iff.2 hsplits] at hnone
    cases hnone
  · intro hat
    rw [Option.eq_none_iff_forall_ne_some]
    rintro ⟨before, behind⟩ hsome
    rw [(parts?_eq_some_iff.1 hsome).whole] at hat
    exact hat (List.mem_append_right _ (List.mem_cons_self ..))

theorem readTime?_eq_some_iff {text : List Char} {atMs : Nat} :
    readTime? text = some atMs ↔ NamesTime text atMs := by
  rw [readTime?, Numeral.readBelow?_eq_some_iff, ← padded_iff]
  exact ⟨fun h => ⟨h.1, h.2⟩, fun h => ⟨h.1, h.2⟩⟩

theorem readKey?_eq_some_iff {text : List Char} {key : UInt8} :
    readKey? text = some key.toNat ↔ NamesKey text key := by
  rw [readKey?, Numeral.readBelow?_eq_some_iff, ← padded_iff]
  exact ⟨fun h => ⟨h.1, h.2⟩, fun h => ⟨h.1, h.2⟩⟩

/-- A number that is read for a key is one that a key has. -/
theorem exists_of_readKey? {text : List Char} {n : Nat} (h : readKey? text = some n) :
    ∃ key : UInt8, n = key.toNat ∧ NamesKey text key := by
  have hn : n < 16 := by
    rw [readKey?, Numeral.readBelow?_eq_some_iff] at h
    exact h.2
  have htoNat : n = (UInt8.ofNat n).toNat := by
    rw [UInt8.toNat_ofNat']
    omega
  exact ⟨UInt8.ofNat n, htoNat, readKey?_eq_some_iff.1 (htoNat ▸ h)⟩

/-! ## What the reader makes of a text -/

variable {text : String} {stroke : Keystroke} {error : KeystrokeError}

/-- A text that describes a keystroke is read. -/
theorem parse_of_describes (h : Describes text stroke) : parse text = .ok stroke := by
  obtain ⟨before, behind, hsplits, hkey, htime⟩ := h
  rw [parse, parts?_eq_some_iff.2 hsplits]
  simp only [readKey?_eq_some_iff.2 hkey, readTime?_eq_some_iff.2 htime, UInt8.ofNat_toNat]

/-- What is wrong with a text is told. -/
theorem parse_of_refused (h : Refused text error) : parse text = .error error := by
  cases h with
  | format noAt => rw [parse, parts?_eq_none_iff.2 noAt]
  | key before behind splits noKey =>
    have hnone : readKey? before = none := by
      rw [Option.eq_none_iff_forall_ne_some]
      intro n hn
      obtain ⟨key, -, hkey⟩ := exists_of_readKey? hn
      exact noKey key hkey
    rw [parse, parts?_eq_some_iff.2 splits]
    simp only [hnone]
  | time before behind key splits isKey noTime =>
    have hnone : readTime? behind = none := by
      rw [Option.eq_none_iff_forall_ne_some]
      intro atMs hatMs
      exact noTime atMs (readTime?_eq_some_iff.1 hatMs)
    rw [parse, parts?_eq_some_iff.2 splits]
    simp only [readKey?_eq_some_iff.2 isKey, hnone]

/-- Every text describes a keystroke or is refused. -/
theorem describes_or_refused (text : String) :
    (∃ stroke, Describes text stroke) ∨ ∃ error, Refused text error := by
  by_cases hat : '@' ∈ text.toList
  · obtain ⟨before, behind, hsplits⟩ := exists_splitsAt hat
    by_cases hkey : ∃ key, NamesKey before key
    · obtain ⟨key, hkey⟩ := hkey
      by_cases htime : ∃ atMs, NamesTime behind atMs
      · obtain ⟨atMs, htime⟩ := htime
        exact Or.inl ⟨⟨key, atMs⟩, before, behind, hsplits, hkey, htime⟩
      · exact Or.inr ⟨_, .time before behind key hsplits hkey (not_exists.1 htime)⟩
    · exact Or.inr ⟨_, .key before behind hsplits (not_exists.1 hkey)⟩
  · exact Or.inr ⟨_, .format hat⟩

theorem parse_eq_ok_iff : parse text = .ok stroke ↔ Describes text stroke := by
  refine ⟨fun h => ?_, parse_of_describes⟩
  rcases describes_or_refused text with ⟨other, hother⟩ | ⟨error, herror⟩
  · rw [parse_of_describes hother, Except.ok.injEq] at h
    exact h ▸ hother
  · rw [parse_of_refused herror] at h
    cases h

theorem parse_eq_error_iff : parse text = .error error ↔ Refused text error := by
  refine ⟨fun h => ?_, parse_of_refused⟩
  rcases describes_or_refused text with ⟨stroke, hstroke⟩ | ⟨other, hother⟩
  · rw [parse_of_describes hstroke] at h
    cases h
  · rw [parse_of_refused hother, Except.error.injEq] at h
    exact h ▸ hother

/-- A digit for the key and the usual way to write the time describe a keystroke. -/
theorem describes_written {digit : Char} {a b c d : List Char}
    (hdigit : Numeral.IsDigitFor digit stroke.key.toNat) (htime : stroke.atMs < bound64)
    (ha : IsBlankText a) (hb : IsBlankText b) (hc : IsBlankText c) (hd : IsBlankText d) :
    Describes
      (String.ofList ((a ++ [digit] ++ b) ++ '@' :: (c ++ Nat.toDigits 10 stroke.atMs ++ d)))
      stroke := by
  have hkey : Numeral.Denotes 16 [digit] stroke.key.toNat := .plain (.digit hdigit hdigit.1)
  have hat : '@' ∉ a ++ [digit] ++ b := (Padded.intro a [digit] b rfl ha hb hkey).not_mem_at
  refine ⟨_, _, ⟨String.toList_ofList, hat⟩, ⟨⟨a, _, b, rfl, ha, hb, hkey⟩, hdigit.1⟩, ⟨?_, htime⟩⟩
  exact ⟨c, _, d, rfl, hc, hd, .plain (Numeral.digitsFor_toDigits (by decide) (by decide) _)⟩

/-- A text with two at signs describes nothing. -/
theorem not_describes_of_two (a b c : List Char) :
    ¬ Describes (String.ofList (a ++ '@' :: (b ++ '@' :: c))) stroke := by
  rintro ⟨before, behind, ⟨hwhole, hfirst⟩, -, htime⟩
  rw [String.toList_ofList] at hwhole
  -- one of the two is behind the first one
  have hcount := congrArg (List.count '@') hwhole
  simp only [List.count_append, List.count_cons_self, List.count_eq_zero.2 hfirst,
    List.count_eq_zero.2 htime.numeral.not_mem_at] at hcount
  omega

/-- **Just the texts that describe a keystroke are read.** A text is read as the keystroke that it
describes, and refused for what is wrong with it; there is no third way. In particular a keystroke
is read from a digit for its key in either case, an at sign and its time in the usual digits, with
any white space around either part, and a text with a second at sign is refused. -/
theorem reads_descriptions :
    (∀ text stroke, parse text = .ok stroke ↔ Describes text stroke) ∧
    (∀ text error, parse text = .error error ↔ Refused text error) ∧
    (∀ (stroke : Keystroke) (digit : Char) (a b c d : List Char),
      Numeral.IsDigitFor digit stroke.key.toNat → stroke.atMs < bound64 →
      IsBlankText a → IsBlankText b → IsBlankText c → IsBlankText d →
      parse (String.ofList ((a ++ [digit] ++ b) ++ '@' :: (c ++ Nat.toDigits 10 stroke.atMs ++ d)))
        = .ok stroke) ∧
    ∀ a b c, ∃ error, parse (String.ofList (a ++ '@' :: (b ++ '@' :: c))) = .error error := by
  refine ⟨fun text stroke => parse_eq_ok_iff, fun text error => parse_eq_error_iff, ?_, ?_⟩
  · intro stroke digit a b c d hdigit htime ha hb hc hd
    exact parse_of_describes (describes_written hdigit htime ha hb hc hd)
  · intro a b c
    rcases describes_or_refused (String.ofList (a ++ '@' :: (b ++ '@' :: c)))
      with ⟨stroke, hstroke⟩ | ⟨error, herror⟩
    · exact absurd hstroke (not_describes_of_two a b c)
    · exact ⟨error, parse_of_refused herror⟩

/-- The last time there is, behind an ideographic space, a letter and a tabulator. A second at sign
spoils a text, though every part of it is fine. -/
theorem reads_descriptions_padded :
    Numeral.IsDigitFor 'a' 10 ∧ 18446744073709551615 < bound64 ∧ IsBlankText ['\u3000'] ∧
      IsBlankText ['\t'] ∧ IsBlankText [' ', ' '] ∧ IsBlankText ['\n'] ∧
      parse "\u3000a\t@  18446744073709551615\n" = .ok ⟨10, 18446744073709551615⟩ ∧
      ∃ error, parse "A@250@5" = .error error := by
  obtain ⟨-, -, hwritten, htwo⟩ := reads_descriptions
  have hblank : IsBlankText ['\u3000'] ∧ IsBlankText ['\t'] ∧ IsBlankText [' ', ' '] ∧
      IsBlankText ['\n'] := by
    simp [IsBlankText, isBlank]
  obtain ⟨hfirst, hsecond, hthird, hfourth⟩ := hblank
  have hdigit : Numeral.IsDigitFor 'a' 10 := ⟨by decide, Or.inl rfl⟩
  have htime : 18446744073709551615 < bound64 := by decide
  refine ⟨hdigit, htime, hfirst, hsecond, hthird, hfourth, ?_, htwo ['A'] ['2', '5', '0'] ['5']⟩
  exact hwritten ⟨10, 18446744073709551615⟩ 'a' _ _ _ _ hdigit htime hfirst hsecond hthird hfourth

end Keystroke

end Chip8
