import Chip8.Text.Numeral
import Mathlib.Data.List.Induction
import Mathlib.Tactic.IntervalCases

/-!
# Chip8 — what numerals stand for

Numerals are told here without their reader, as a grammar. A digit is what a number below sixteen is
written as, a letter in either case. A row of digits of a base stands for a number: one digit for
itself, and a further digit behind a row for the base times what the row stands for and itself. A
numeral is a row of digits with at most one `+` in front, so leading zeros count for nothing and an
empty row is none. The reader takes numerals and nothing else, and reads what they stand for.

Main statements:

* `digitsFor_iff` — the digits of a row and their weights, one by one;
* `read?_eq_some_iff` — just the numerals are read, as what they stand for;
* `digitsFor_toDigits` — the usual way to write a number is a row of digits for it.
-/

namespace Chip8.Numeral

/-! ## Digits -/

/-- The character is the digit for the number, in lower or in upper case. -/
def IsDigitFor (c : Char) (n : Nat) : Prop :=
  n < 16 ∧ (c = n.digitChar ∨ c = n.digitChar.toUpper)

/-- Where the digits are among the characters. -/
theorem toNat_of_digitValue_lt {c : Char} (h : digitValue c < 16) :
    48 ≤ c.toNat ∧ c.toNat ≤ 57 ∨ 65 ≤ c.toNat ∧ c.toNat ≤ 70 ∨ 97 ≤ c.toNat ∧ c.toNat ≤ 102 := by
  unfold digitValue at h
  split at h
  · rename_i hrange
    exact Or.inl hrange
  · split at h
    · rename_i hrange
      exact Or.inr (Or.inr hrange)
    · split at h
      · rename_i hrange
        exact Or.inr (Or.inl hrange)
      · exact absurd h (Nat.lt_irrefl 16)

theorem isDigitFor_iff {c : Char} {n : Nat} : IsDigitFor c n ↔ n < 16 ∧ digitValue c = n := by
  constructor
  · rintro ⟨hn, rfl | rfl⟩ <;> refine ⟨hn, ?_⟩ <;> interval_cases n <;> rfl
  · rintro ⟨hn, rfl⟩
    refine ⟨hn, ?_⟩
    -- the character is one of twenty-two
    have hc : c = Char.ofNat c.toNat := (Char.ofNat_toNat c).symm
    rcases toNat_of_digitValue_lt hn with ⟨hlow, hhigh⟩ | ⟨hlow, hhigh⟩ | ⟨hlow, hhigh⟩ <;>
      generalize c.toNat = k at * <;> subst hc <;> interval_cases k <;> decide

/-! ## Rows of digits -/

/-- A row of digits of a base stands for a number, the first digit weighing most. -/
inductive DigitsFor (base : Nat) : List Char → Nat → Prop where
  | digit {c : Char} {d : Nat} (isDigit : IsDigitFor c d) (below : d < base) : DigitsFor base [c] d
  | snoc {digits : List Char} {n : Nat} {c : Char} {d : Nat} (row : DigitsFor base digits n)
      (isDigit : IsDigitFor c d) (below : d < base) :
      DigitsFor base (digits ++ [c]) (base * n + d)

theorem value_snoc (base : Nat) (digits : List Char) (c : Char) :
    value base (digits ++ [c]) = base * value base digits + digitValue c :=
  List.foldl_append

theorem DigitsFor.ne_nil {base n : Nat} {digits : List Char} (h : DigitsFor base digits n) :
    digits ≠ [] := by
  cases h with
  | digit => exact List.cons_ne_nil _ _
  | snoc => exact List.append_ne_nil_of_right_ne_nil _ (List.cons_ne_nil _ _)

theorem digitsFor_iff {base n : Nat} {digits : List Char} :
    DigitsFor base digits n
      ↔ digits ≠ [] ∧ (∀ c ∈ digits, digitValue c < min base 16) ∧ value base digits = n := by
  constructor
  · intro h
    refine ⟨h.ne_nil, ?_⟩
    induction h with
    | digit isDigit below =>
      obtain ⟨hd, hvalue⟩ := isDigitFor_iff.1 isDigit
      simp only [List.mem_singleton, forall_eq, value, List.foldl_cons, List.foldl_nil]
      omega
    | snoc row isDigit below ih =>
      obtain ⟨hdigits, hrow⟩ := ih
      obtain ⟨hd, hvalue⟩ := isDigitFor_iff.1 isDigit
      refine ⟨fun c hc => ?_, by rw [value_snoc, hrow, hvalue]⟩
      rcases List.mem_append.1 hc with hc | hc
      · exact hdigits c hc
      · rw [List.mem_singleton.1 hc]
        omega
  · rintro ⟨hne, hdigits, rfl⟩
    induction digits using List.reverseRecOn with
    | nil => exact absurd rfl hne
    | append_singleton digits c ih =>
      have hlast := hdigits c (List.mem_append_right _ (List.mem_singleton_self c))
      have hdigit : IsDigitFor c (digitValue c) := isDigitFor_iff.2 ⟨by omega, rfl⟩
      have hbelow : digitValue c < base := by omega
      by_cases hfirst : digits = []
      · subst hfirst
        simpa [value] using DigitsFor.digit hdigit hbelow
      · rw [value_snoc]
        exact .snoc (ih hfirst fun c hc => hdigits c (List.mem_append_left _ hc)) hdigit hbelow

theorem DigitsFor.digitValue_lt {base n : Nat} {digits : List Char} (h : DigitsFor base digits n)
    {c : Char} (hc : c ∈ digits) : digitValue c < 16 := by
  obtain ⟨-, hdigits, -⟩ := digitsFor_iff.1 h
  exact Nat.lt_of_lt_of_le (hdigits c hc) (Nat.min_le_right ..)

/-- The usual way to write a number is a row of digits for it. -/
theorem digitsFor_toDigits {base : Nat} (htwo : 1 < base) (hsixteen : base ≤ 16) (n : Nat) :
    DigitsFor base (Nat.toDigits base n) n := by
  induction n using Nat.strongRecOn with
  | ind n ih =>
    rcases Nat.lt_or_ge n base with hlt | hge
    · rw [Nat.toDigits_of_lt_base hlt]
      exact .digit ⟨by omega, Or.inl rfl⟩ hlt
    · have hlast : n % base < base := Nat.mod_lt n (by omega)
      have hrow := ih (n / base) (Nat.div_lt_self (by omega) htwo)
      have hsnoc := hrow.snoc (c := (n % base).digitChar) ⟨by omega, Or.inl rfl⟩ hlast
      rwa [Nat.div_add_mod, ← Nat.toDigits_of_base_le htwo hge] at hsnoc

/-! ## Numerals -/

/-- A text is a numeral for a number. -/
inductive Denotes (base : Nat) : List Char → Nat → Prop where
  | plain {digits : List Char} {n : Nat} (row : DigitsFor base digits n) : Denotes base digits n
  | plus {digits : List Char} {n : Nat} (row : DigitsFor base digits n) :
      Denotes base ('+' :: digits) n

theorem ofDigits?_eq_some_iff {base n : Nat} {text : List Char} :
    ofDigits? base text = some n ↔ DigitsFor base text n := by
  rw [digitsFor_iff, ofDigits?]
  split
  · rename_i hempty
    simp [List.isEmpty_iff.1 hempty]
  · rename_i hempty
    split <;> rename_i hall <;> simp_all [isDigit]

/-- A text that does not begin with `+` is read as a row of digits. -/
theorem read?_of_ne_plus {base : Nat} {c : Char} {cs : List Char} (h : c ≠ '+') :
    read? base (c :: cs) = ofDigits? base (c :: cs) := by
  unfold read?
  split
  · rename_i heq
    cases heq
    exact absurd rfl h
  · rfl

/-- Just the numerals are read, as what they stand for. -/
theorem read?_eq_some_iff {base n : Nat} {text : List Char} :
    read? base text = some n ↔ Denotes base text n := by
  constructor
  · intro h
    rcases text with _ | ⟨c, cs⟩
    · exact absurd h (by simp [read?, ofDigits?])
    by_cases hplus : c = '+'
    · subst hplus
      rw [read?_plus, ofDigits?_eq_some_iff] at h
      exact .plus h
    · rw [read?_of_ne_plus hplus, ofDigits?_eq_some_iff] at h
      exact .plain h
  · rintro (row | row)
    · rcases text with _ | ⟨c, cs⟩
      · exact absurd rfl row.ne_nil
      -- the sign is no digit
      have hplus : c ≠ '+' := by
        rintro rfl
        exact absurd (row.digitValue_lt (List.mem_cons_self ..)) (by decide)
      rw [read?_of_ne_plus hplus, ofDigits?_eq_some_iff]
      exact row
    · rw [read?_plus, ofDigits?_eq_some_iff]
      exact row

/-- Numerals that stay below a bound are read, and no others. -/
theorem readBelow?_eq_some_iff {base bound n : Nat} {text : List Char} :
    readBelow? base bound text = some n ↔ Denotes base text n ∧ n < bound := by
  rw [readBelow?, Option.filter_eq_some_iff, read?_eq_some_iff, decide_eq_true_iff]

theorem Denotes.ne_nil {base n : Nat} {text : List Char} (h : Denotes base text n) : text ≠ [] := by
  cases h with
  | plain row => exact row.ne_nil
  | plus row => exact List.cons_ne_nil _ _

/-- The characters of numerals are the sign and the digits. -/
theorem Denotes.eq_plus_or_digitValue_lt {base n : Nat} {text : List Char}
    (h : Denotes base text n) {c : Char} (hc : c ∈ text) : c = '+' ∨ digitValue c < 16 := by
  cases h with
  | plain row => exact Or.inr (row.digitValue_lt hc)
  | plus row =>
    rcases List.mem_cons.1 hc with rfl | hc
    · exact Or.inl rfl
    · exact Or.inr (row.digitValue_lt hc)

end Chip8.Numeral
