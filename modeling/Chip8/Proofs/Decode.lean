import Chip8.Instruction.Word

/-!
# Chip8 — what decoding yields

Decoding splits a word into four digits, so every field of a decoded instruction fits its digits:
registers and row counts one, addresses three. A byte field always fits.

Main statements:

* `isReadOf_decode` — the fields of a decoded instruction fit their digits, and it is written as the
  word it was read from;
* `decode_error` — the fault of a word that is no instruction names that word;
* `decode_eq_call`, `decode_eq_ret` — the words of calls and returns.
-/

namespace Chip8

/-- The lower twelve bits of an address. -/
theorem toNat_and_mask (a : UInt16) : (a &&& 0xFFF).toNat = a.toNat % 4096 := by
  rw [UInt16.toNat_and]
  exact Nat.and_two_pow_sub_one_eq_mod a.toNat 12

namespace Instruction

/-! ## Fields -/

/-- A register number or a row count fits one digit. -/
def FitsDigit (x : UInt8) : Prop :=
  x.toNat < 16

/-- An address fits three digits. -/
def FitsAddress (nnn : UInt16) : Prop :=
  nnn.toNat < 4096

instance (x : UInt8) : Decidable (FitsDigit x) :=
  inferInstanceAs (Decidable (_ < _))

instance (nnn : UInt16) : Decidable (FitsAddress nnn) :=
  inferInstanceAs (Decidable (_ < _))

/-- Every field of the instruction fits its digits. -/
def FieldsFit : Instruction → Prop
  | clear | ret => True
  | jump nnn | call nnn | setIndex nnn | jumpOffset nnn => FitsAddress nnn
  | skipIfByte x _ | skipUnlessByte x _ | setByte x _ | addByte x _ | random x _ => FitsDigit x
  | skipIfSame x y | skipIfDiffer x y | copy x y | bitOr x y | bitAnd x y | bitXor x y | add x y
  | sub x y | shiftRight x y | subFrom x y | shiftLeft x y => FitsDigit x ∧ FitsDigit y
  | draw x y n => FitsDigit x ∧ FitsDigit y ∧ FitsDigit n
  | skipIfKey x | skipByKey x | readDelay x | awaitKey x | setDelay x | setSound x | addIndex x
  | setGlyph x | storeDigits x | storeRegisters x | loadRegisters x => FitsDigit x

theorem fitsDigit_ofNat {d : Nat} (h : d < 16) : FitsDigit (UInt8.ofNat d) := by
  rw [FitsDigit, UInt8.toNat_ofNat']
  omega

theorem fitsAddress_ofNat {b c d : Nat} (hb : b < 16) (hc : c < 16) (hd : d < 16) :
    FitsAddress (UInt16.ofNat (b * 256 + c * 16 + d)) := by
  rw [FitsAddress, UInt16.toNat_ofNat']
  omega

/-! ## Words -/

/-- Digits that agree when cut to one digit make the same word. -/
theorem wordOfDigits_congr {b c d b' c' d' : Nat} (a : Nat) (hb : b % 16 = b' % 16)
    (hc : c % 16 = c' % 16) (hd : d % 16 = d' % 16) :
    wordOfDigits a b c d = wordOfDigits a b' c' d' := by
  simp only [wordOfDigits, hb, hc, hd]

theorem addressForm_ofNat {b c d : Nat} (a : Nat) (hc : c < 16) (hd : d < 16) :
    addressForm a (UInt16.ofNat (b * 256 + c * 16 + d)) = wordOfDigits a b c d := by
  rw [addressForm, UInt16.toNat_ofNat']
  apply wordOfDigits_congr <;> omega

theorem byteForm_ofNat {b c d : Nat} {nn : UInt8} (a : Nat) (hc : nn.toNat / 16 % 16 = c % 16)
    (hd : nn.toNat % 16 = d % 16) : byteForm a (UInt8.ofNat b) nn = wordOfDigits a b c d := by
  rw [byteForm, UInt8.toNat_ofNat']
  apply wordOfDigits_congr _ _ hc hd
  omega

theorem pairForm_ofNat {b c : Nat} (a d : Nat) :
    pairForm a (UInt8.ofNat b) (UInt8.ofNat c) d = wordOfDigits a b c d := by
  rw [pairForm, UInt8.toNat_ofNat', UInt8.toNat_ofNat']
  apply wordOfDigits_congr <;> omega

/-- The four digits of a word give it back. -/
theorem wordOfDigits_digits (w : UInt16) :
    wordOfDigits (w.toNat / 4096) (w.toNat / 256 % 16) (w.toNat / 16 % 16) (w.toNat % 16) = w := by
  have hw := w.toNat_lt
  rw [wordOfDigits, ← UInt16.toNat_inj, UInt16.toNat_ofNat']
  omega

/-! ## Reading -/

/-- An instruction is what a word says: it has no more than fits, and it is written as that word. -/
structure IsReadOf (w : UInt16) (instr : Instruction) : Prop where
  fit : instr.FieldsFit
  word : instr.encode = w

variable {a b c d : Nat} {instr : Instruction}

theorem isReadOf_ofPlain? (h : ofPlain? b c d = some instr) :
    IsReadOf (wordOfDigits 0x0 b c d) instr := by
  unfold ofPlain? at h
  split at h <;> cases h <;> exact ⟨trivial, rfl⟩

theorem isReadOf_ofArithmetic? (hb : b < 16) (hc : c < 16)
    (h : ofArithmetic? (UInt8.ofNat b) (UInt8.ofNat c) d = some instr) :
    IsReadOf (wordOfDigits 0x8 b c d) instr := by
  have hfit := And.intro (fitsDigit_ofNat hb) (fitsDigit_ofNat hc)
  unfold ofArithmetic? at h
  split at h <;> cases h <;> exact ⟨hfit, pairForm_ofNat 0x8 _⟩

theorem isReadOf_ofKey? (hb : b < 16) (h : ofKey? (UInt8.ofNat b) c d = some instr) :
    IsReadOf (wordOfDigits 0xE b c d) instr := by
  unfold ofKey? at h
  split at h <;> cases h <;> exact ⟨fitsDigit_ofNat hb, byteForm_ofNat 0xE rfl rfl⟩

theorem isReadOf_ofDevice? (hb : b < 16) (h : ofDevice? (UInt8.ofNat b) c d = some instr) :
    IsReadOf (wordOfDigits 0xF b c d) instr := by
  unfold ofDevice? at h
  split at h <;> cases h <;> exact ⟨fitsDigit_ofNat hb, byteForm_ofNat 0xF rfl rfl⟩

theorem isReadOf_ofDigits? (hb : b < 16) (hc : c < 16) (hd : d < 16)
    (h : ofDigits? a b c d = some instr) : IsReadOf (wordOfDigits a b c d) instr := by
  have hx := fitsDigit_ofNat hb
  have hy := fitsDigit_ofNat hc
  have hnnn := fitsAddress_ofNat hb hc hd
  unfold ofDigits? at h
  simp only at h
  split at h
  -- the families with members of their own
  case h_1 => exact isReadOf_ofPlain? h
  case h_9 => exact isReadOf_ofArithmetic? hb hc h
  case h_15 => exact isReadOf_ofKey? hb h
  case h_16 => exact isReadOf_ofDevice? hb h
  -- the two families that want a zero as their last digit
  case h_6 | h_10 =>
    split at h
    · rename_i hlast
      cases h
      rw [hlast]
      exact ⟨⟨hx, hy⟩, pairForm_ofNat _ 0⟩
    · cases h
  -- a row count is a digit and a byte at once
  case h_14 =>
    cases h
    have hn : (UInt8.ofNat d).toNat = d := by
      rw [UInt8.toNat_ofNat']
      omega
    refine ⟨⟨hx, hy, fitsDigit_ofNat hd⟩, ?_⟩
    rw [encode, hn]
    exact pairForm_ofNat _ d
  case h_17 => cases h
  -- the families with an address, and those with a register and a byte
  all_goals cases h
  case h_2 | h_3 | h_11 | h_12 => exact ⟨hnnn, addressForm_ofNat _ hc hd⟩
  all_goals
    refine ⟨hx, ?_⟩
    apply byteForm_ofNat <;>
    · rw [UInt8.toNat_ofNat']
      omega

/-- A decoded instruction is what its word says. -/
theorem isReadOf_decode {w : UInt16} (h : decode w = .ok instr) : IsReadOf w instr := by
  unfold decode at h
  split at h
  · rename_i hdigits
    cases h
    have hread := isReadOf_ofDigits? (Nat.mod_lt _ (by decide)) (Nat.mod_lt _ (by decide))
      (Nat.mod_lt _ (by decide)) hdigits
    rwa [wordOfDigits_digits] at hread
  · cases h

/-- The fault of a word that is no instruction names that word. -/
theorem decode_error {w : UInt16} {fault : Fault} (h : decode w = .error fault) :
    fault = .unknownOpcode w := by
  unfold decode at h
  split at h
  · cases h
  · cases h
    rfl

/-! ## Calls and returns -/

/-- The words of calls are those with a leading two. -/
theorem decode_eq_call {w : UInt16} : (∃ nnn, decode w = .ok (.call nnn)) ↔ w.toNat / 4096 = 2 := by
  constructor
  · rintro ⟨nnn, h⟩
    rw [← (isReadOf_decode h).word, encode, addressForm, wordOfDigits, UInt16.toNat_ofNat']
    omega
  · intro h
    rw [decode, h]
    exact ⟨_, rfl⟩

/-- There is one word of a return. -/
theorem decode_eq_ret {w : UInt16} : decode w = .ok .ret ↔ w = 0x00EE := by
  constructor
  · intro h
    exact (isReadOf_decode h).word.symm
  · rintro rfl
    rfl

end Instruction

end Chip8
