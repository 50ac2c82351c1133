import Chip8.Proofs.Decode
import Chip8.Proofs.Loading
import Chip8.Proofs.Rows

/-!
# Chip8 — encoding and decoding

An instruction is written in four digits, so whatever a field holds beyond its digits is lost, and
only that: reading the word again yields the instruction with its fields cut. The other way round
nothing is lost, as a word that is read is written as itself. So the words that are no instruction
are those which no instruction is written as.

A program in memory is read back the same way, instruction by instruction.

Main statements:

* `decode_encode` — what is written is read back with its fields cut;
* `decode_eq_error` — which words are no instruction;
* `decode_word_bytes` — a program is read back from memory;
* `encoding_inverse` — all of it for every instruction, word and program.
-/

namespace Chip8

namespace Instruction

/-! ## Fields -/

/-- What one digit keeps of a register number or a row count. -/
def cutDigit (x : UInt8) : UInt8 :=
  x &&& 0xF

/-- What three digits keep of an address. -/
def cutAddress (nnn : UInt16) : UInt16 :=
  nnn &&& 0xFFF

/-- The instruction with every field cut to its digits. A byte has all of its digits. -/
def cut : Instruction → Instruction
  | clear => clear
  | ret => ret
  | jump nnn => jump (cutAddress nnn)
  | call nnn => call (cutAddress nnn)
  | skipIfByte x nn => skipIfByte (cutDigit x) nn
  | skipUnlessByte x nn => skipUnlessByte (cutDigit x) nn
  | skipIfSame x y => skipIfSame (cutDigit x) (cutDigit y)
  | setByte x nn => setByte (cutDigit x) nn
  | addByte x nn => addByte (cutDigit x) nn
  | copy x y => copy (cutDigit x) (cutDigit y)
  | bitOr x y => bitOr (cutDigit x) (cutDigit y)
  | bitAnd x y => bitAnd (cutDigit x) (cutDigit y)
  | bitXor x y => bitXor (cutDigit x) (cutDigit y)
  | add x y => add (cutDigit x) (cutDigit y)
  | sub x y => sub (cutDigit x) (cutDigit y)
  | shiftRight x y => shiftRight (cutDigit x) (cutDigit y)
  | subFrom x y => subFrom (cutDigit x) (cutDigit y)
  | shiftLeft x y => shiftLeft (cutDigit x) (cutDigit y)
  | skipIfDiffer x y => skipIfDiffer (cutDigit x) (cutDigit y)
  | setIndex nnn => setIndex (cutAddress nnn)
  | jumpOffset nnn => jumpOffset (cutAddress nnn)
  | random x nn => random (cutDigit x) nn
  | draw x y n => draw (cutDigit x) (cutDigit y) (cutDigit n)
  | skipIfKey x => skipIfKey (cutDigit x)
  | skipByKey x => skipByKey (cutDigit x)
  | readDelay x => readDelay (cutDigit x)
  | awaitKey x => awaitKey (cutDigit x)
  | setDelay x => setDelay (cutDigit x)
  | setSound x => setSound (cutDigit x)
  | addIndex x => addIndex (cutDigit x)
  | setGlyph x => setGlyph (cutDigit x)
  | storeDigits x => storeDigits (cutDigit x)
  | storeRegisters x => storeRegisters (cutDigit x)
  | loadRegisters x => loadRegisters (cutDigit x)

theorem ofNat_mod_digit (x : UInt8) : UInt8.ofNat (x.toNat % 16) = cutDigit x := by
  have hmask : (x &&& 0xF).toNat = x.toNat % 16 := by
    rw [UInt8.toNat_and]
    exact Nat.and_two_pow_sub_one_eq_mod x.toNat 4
  rw [cutDigit, ← UInt8.toNat_inj, UInt8.toNat_ofNat', hmask]
  omega

theorem ofNat_digits_byte (nn : UInt8) :
    UInt8.ofNat (nn.toNat / 16 % 16 * 16 + nn.toNat % 16) = nn := by
  have hnn := nn.toNat_lt
  rw [← UInt8.toNat_inj, UInt8.toNat_ofNat']
  omega

theorem ofNat_digits_address (nnn : UInt16) :
    UInt16.ofNat (nnn.toNat / 256 % 16 * 256 + nnn.toNat / 16 % 16 * 16 + nnn.toNat % 16)
      = cutAddress nnn := by
  rw [cutAddress, ← UInt16.toNat_inj, UInt16.toNat_ofNat', toNat_and_mask]
  omega

/-! ## Words -/

/-- The digits of a word are read one by one. -/
theorem decode_wordOfDigits {a b c d : Nat} {instr : Instruction}
    (h : ofDigits? (a % 16) (b % 16) (c % 16) (d % 16) = some instr) :
    decode (wordOfDigits a b c d) = .ok instr := by
  have hword : (wordOfDigits a b c d).toNat
      = a % 16 * 4096 + b % 16 * 256 + c % 16 * 16 + d % 16 := by
    rw [wordOfDigits, UInt16.toNat_ofNat']
    omega
  have ha : (wordOfDigits a b c d).toNat / 4096 = a % 16 := by omega
  have hb : (wordOfDigits a b c d).toNat / 256 % 16 = b % 16 := by omega
  have hc : (wordOfDigits a b c d).toNat / 16 % 16 = c % 16 := by omega
  have hd : (wordOfDigits a b c d).toNat % 16 = d % 16 := by omega
  rw [decode, ha, hb, hc, hd, h]

theorem decode_encode (instr : Instruction) : decode instr.encode = .ok instr.cut := by
  cases instr with
  | clear | ret => rfl
  | jump | call | setIndex | jumpOffset =>
    refine decode_wordOfDigits ?_
    simp only [Nat.reduceMod, ofDigits?, cut, ofNat_digits_address]
  | skipIfByte | skipUnlessByte | setByte | addByte | random =>
    refine decode_wordOfDigits ?_
    simp only [Nat.reduceMod, ofDigits?, cut, ofNat_mod_digit, ofNat_digits_byte]
  | skipIfSame | skipIfDiffer | draw =>
    refine decode_wordOfDigits ?_
    simp only [Nat.reduceMod, ofDigits?, cut, ofNat_mod_digit, if_true]
  | copy | bitOr | bitAnd | bitXor | add | sub | shiftRight | subFrom | shiftLeft =>
    refine decode_wordOfDigits ?_
    simp only [Nat.reduceMod, ofDigits?, ofArithmetic?, cut, ofNat_mod_digit]
  | skipIfKey | skipByKey =>
    refine decode_wordOfDigits ?_
    simp [ofDigits?, ofKey?, cut, ofNat_mod_digit]
  | readDelay | awaitKey | setDelay | setSound | addIndex | setGlyph | storeDigits | storeRegisters
  | loadRegisters =>
    refine decode_wordOfDigits ?_
    simp [ofDigits?, ofDevice?, cut, ofNat_mod_digit]

/-- The words that are no instruction are those which none is written as. -/
theorem decode_eq_error {w : UInt16} :
    decode w = .error (.unknownOpcode w) ↔ ∀ instr : Instruction, instr.encode ≠ w := by
  constructor
  · rintro h instr rfl
    rw [decode_encode] at h
    cases h
  · intro h
    cases hw : decode w with
    | error fault => rw [decode_error hw]
    | ok instr => exact absurd (isReadOf_decode hw).word (h instr)

/-! ## Programs -/

theorem wordOfBytes_bytesOfWord (w : UInt16) :
    wordOfBytes (UInt8.ofNat (w.toNat / 256)) (UInt8.ofNat (w.toNat % 256)) = w := by
  have hw := w.toNat_lt
  rw [wordOfBytes, ← UInt16.toNat_inj, UInt16.toNat_ofNat', UInt8.toNat_ofNat', UInt8.toNat_ofNat']
  omega

theorem length_bytes (program : List Instruction) :
    (bytes program).length = 2 * program.length :=
  length_flatMap_of_length fun _ _ => rfl

/-- An instruction of a program is written high byte first, behind the two bytes of each earlier
one. -/
theorem getElem?_bytes {program : List Instruction} {k : Nat} (hk : k < program.length) :
    (bytes program)[2 * k]? = some (UInt8.ofNat (program[k].encode.toNat / 256)) ∧
      (bytes program)[2 * k + 1]? = some (UInt8.ofNat (program[k].encode.toNat % 256)) := by
  have hlength : ∀ instr ∈ program, (bytesOfWord instr.encode).length = 2 := fun _ _ => rfl
  have hhigh := getElem?_flatMap_of_length hlength k Nat.zero_lt_two
  have hlow := getElem?_flatMap_of_length hlength k Nat.one_lt_two
  rw [List.getElem?_eq_getElem hk] at hhigh hlow
  exact ⟨hhigh, hlow⟩

theorem length_bytes_le {program : List Instruction} (hfits : program.length ≤ 1792) :
    (bytes program).length ≤ programSpace := by
  have hspace : programSpace = 3584 := rfl
  rw [length_bytes, hspace]
  omega

/-- A program that fits is read back from memory, instruction by instruction. -/
theorem decode_word_bytes (m : Memory) {program : List Instruction} (hfits : program.length ≤ 1792)
    {k : Nat} (hk : k < program.length) :
    decode ((m.loadProgram (bytes program)).word (UInt16.ofNat (0x200 + 2 * k)))
      = .ok program[k].cut := by
  obtain ⟨hhigh, hlow⟩ := getElem?_bytes hk
  have hnext : UInt16.ofNat (0x200 + 2 * k) + 1 = UInt16.ofNat (0x200 + (2 * k + 1)) :=
    (UInt16.ofNat_add _ 1).symm
  have hread : ∀ {j : Nat} {b : UInt8}, (bytes program)[j]? = some b →
      (m.loadProgram (bytes program)).read (UInt16.ofNat (0x200 + j)) = b :=
    fun hb => m.read_loadProgram (length_bytes_le hfits) hb
  rw [Memory.word, hnext, hread hhigh, hread hlow, wordOfBytes_bytesOfWord, decode_encode]

/-! ## Every instruction, word and program -/

/-- **Encoding and decoding are inverse.** Whatever the fields of an instruction hold, its word is
read as the instruction with its fields cut to their digits. A word that is read as an instruction
is written as itself, and one that is no instruction, for which the fault names the word, is written
by none. A program that fits is loaded into a new machine, and each of its instructions is read back
from its place with its fields cut. -/
theorem encoding_inverse {ρ : Type} (variant : Variant) (host : ρ) :
    (∀ instr : Instruction, decode instr.encode = .ok instr.cut) ∧
    (∀ w instr, decode w = .ok instr → instr.encode = w) ∧
    (∀ w, decode w = .error (.unknownOpcode w) ↔ ∀ instr : Instruction, instr.encode ≠ w) ∧
    (∀ w fault, decode w = .error fault → fault = .unknownOpcode w) ∧
    ∀ program : List Instruction, program.length ≤ 1792 →
      ∃ after, (Machine.initial variant host).load (bytes program) = .ok after ∧
        ∀ k (hk : k < program.length),
          decode (after.memory.word (UInt16.ofNat (0x200 + 2 * k))) = .ok program[k].cut := by
  refine ⟨decode_encode, fun w instr h => (isReadOf_decode h).word, fun w => decode_eq_error,
    fun w fault => decode_error, ?_⟩
  intro program hfits
  have hload := Machine.loadDeclared_unloaded variant host .allUp (bytes program).length
    (bytes program)
  rw [if_pos (length_bytes_le hfits)] at hload
  exact ⟨_, hload, fun k hk => decode_word_bytes Memory.initial hfits hk⟩

/-- Fields that hold more than their digits: a row count, a register that no instruction reads, and
an address. -/
theorem encoding_inverse_cut :
    let program : List Instruction := [.draw 0xF1 0x02 0xE3, .shiftRight 0x0A 0x7B, .jump 0xFABC]
    program.length ≤ 1792 ∧
      ∃ after, (Machine.initial {} (SilentHost.mk 0)).load (bytes program) = .ok after ∧
        decode (after.memory.word 0x200) = .ok (.draw 0x1 0x2 0x3) ∧
        decode (after.memory.word 0x202) = .ok (.shiftRight 0xA 0xB) ∧
        decode (after.memory.word 0x204) = .ok (.jump 0xABC) := by
  intro program
  have hfits : program.length ≤ 1792 := by decide
  obtain ⟨-, -, -, -, hprograms⟩ := encoding_inverse {} (SilentHost.mk 0)
  obtain ⟨after, hload, hread⟩ := hprograms program hfits
  exact ⟨hfits, after, hload, hread 0 (by decide), hread 1 (by decide), hread 2 (by decide)⟩

end Instruction

end Chip8
