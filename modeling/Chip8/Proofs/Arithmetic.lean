import Chip8.Proofs.History

/-!
# Chip8 — arithmetic with a flag

Five instructions work out a byte from one or two registers and raise the flag register by what is
lost of it: a carry, a borrow, a bit that falls off. Result and flag are both worked out from the
registers as they were, also where one of them is the flag register or both are the same. The result
is written last, so in the flag register it wins.

Main statements:

* `flagged_setFlagged` — what is left of a result and a flag that are written;
* `arithmetic_under_aliasing` — the five instructions in natural numbers, and that a sum is undone
  by a difference.
-/

namespace Chip8

open Registers

/-! ## Bytes as numbers -/

/-- A difference of bytes wraps. -/
theorem toNat_sub_eq_emod (a b : UInt8) :
    ((a - b).toNat : Int) = ((a.toNat : Int) - b.toNat) % 256 := by
  have ha := a.toNat_lt
  have hb := b.toNat_lt
  rw [UInt8.toNat_sub]
  omega

/-- The lowest bit of a byte says whether it is odd. -/
theorem and_one_eq_one (a : UInt8) : a &&& 1 = 1 ↔ a.toNat % 2 = 1 := by
  rw [← UInt8.toNat_inj, UInt8.toNat_and]
  show a.toNat &&& 1 = 1 ↔ a.toNat % 2 = 1
  rw [Nat.and_one_is_mod]

/-- The highest bit of a byte says whether it can be doubled. -/
theorem shiftRight_seven_eq_one (a : UInt8) : a >>> 7 = 1 ↔ 128 ≤ a.toNat := by
  have ha := a.toNat_lt
  rw [← UInt8.toNat_inj, UInt8.toNat_shiftRight]
  show a.toNat >>> 7 = 1 ↔ 128 ≤ a.toNat
  rw [Nat.shiftRight_eq_div_pow]
  omega

theorem toNat_halved (a : UInt8) : (a >>> 1).toNat = a.toNat / 2 := by
  rw [UInt8.toNat_shiftRight]
  exact Nat.shiftRight_eq_div_pow a.toNat 1

theorem toNat_doubled (a : UInt8) : (a <<< 1).toNat = 2 * a.toNat % 256 := by
  rw [UInt8.toNat_shiftLeft]
  show a.toNat <<< 1 % 256 = 2 * a.toNat % 256
  rw [Nat.shiftLeft_eq, Nat.mul_comm]

namespace Machine

variable {ρ : Type}

/-! ## Results and flags -/

/-- The second machine comes from the first by writing a flag and then a result: the register holds
the result, the flag register holds the flag unless it is the same register, and every other
register is as it was. -/
structure Flagged (m : Machine ρ) (x : UInt8) (result flag : Int) (after : Machine ρ) : Prop where
  target : ((after.reg x).toNat : Int) = result
  flag : ((after.reg Registers.flag).toNat : Int)
    = if number x = number Registers.flag then result else flag
  others : ∀ r : Fin 16, r ≠ number x → r ≠ number Registers.flag → after.v[r] = m.v[r]

/-- A register that is neither of the two reads as it did. -/
theorem Flagged.reg_eq {m after : Machine ρ} {x : UInt8} {result flag : Int}
    (h : m.Flagged x result flag after) {y : UInt8} (hx : number y ≠ number x)
    (hflag : number y ≠ number Registers.flag) : after.reg y = m.reg y :=
  h.others (number y) hx hflag

/-- What is left of a result and a flag that are written. -/
theorem flagged_setFlagged (m : Machine ρ) (x value : UInt8) (raised : Bool) :
    m.Flagged x value.toNat (if raised then 1 else 0) (m.setFlagged x value raised) where
  target := by
    have hreg : (m.setFlagged x value raised).reg x = value := by
      rw [reg, setFlagged, assignFlagged, value_assign, if_pos rfl]
    rw [hreg]
  flag := by
    have hreg : (m.setFlagged x value raised).reg Registers.flag
        = if number x = number Registers.flag then value else if raised then 1 else 0 := by
      rw [reg, setFlagged, assignFlagged, value_assign, value_assign, if_pos rfl]
    rw [hreg]
    split
    · rfl
    · cases raised <;> rfl
  others := by
    intro r hx hflag
    simp only [setFlagged, assignFlagged]
    exact (get_assign_ne _ _ hx).trans (get_assign_ne _ _ hflag)

variable [Host ρ]

/-- An instruction that writes a flag and a result does so by itself and in a step. -/
theorem does_flagged {m : Machine ρ} {instr : Instruction} {x value : UInt8} {raised : Bool}
    {result flag : Int} (hexec : ∀ pc, execute instr { m with pc }
      = .done (setFlagged { m with pc } x value raised))
    (hresult : (value.toNat : Int) = result) (hflag : (if raised then 1 else 0) = flag) :
    m.Does instr (m.Flagged x result flag) := by
  subst hresult hflag
  refine does_of_execute (fun pc => ⟨_, hexec pc, ?_⟩) fun done hdone => ?_
  · have hflagged := flagged_setFlagged { m with pc } x value raised
    exact { hflagged with }
  · rw [retire_frame]
    exact { hdone with }

/-! ## The instructions -/

section

variable (m : Machine ρ) (x y : UInt8)

theorem does_add : m.Does (.add x y) (m.Flagged x (((m.reg x).toNat + (m.reg y).toNat) % 256)
    (if (255 : Int) < (m.reg x).toNat + (m.reg y).toNat then 1 else 0)) := by
  have hexec : ∀ pc, execute (.add x y) { m with pc } = .done (setFlagged { m with pc } x
      (m.reg x + m.reg y) (decide (255 < (m.reg x).toNat + (m.reg y).toNat))) := fun _ => rfl
  refine does_flagged hexec ?_ ?_
  · rw [UInt8.toNat_add]
    omega
  · simp only [decide_eq_true_eq]
    omega

theorem does_sub : m.Does (.sub x y) (m.Flagged x (((m.reg x).toNat - (m.reg y).toNat) % 256)
    (if ((m.reg y).toNat : Int) ≤ (m.reg x).toNat then 1 else 0)) := by
  have hexec : ∀ pc, execute (.sub x y) { m with pc } = .done (setFlagged { m with pc } x
      (m.reg x - m.reg y) (decide (m.reg y ≤ m.reg x))) := fun _ => rfl
  refine does_flagged hexec (toNat_sub_eq_emod _ _) ?_
  simp only [decide_eq_true_eq, UInt8.le_iff_toNat_le]
  omega

theorem does_subFrom : m.Does (.subFrom x y)
    (m.Flagged x (((m.reg y).toNat - (m.reg x).toNat) % 256)
      (if ((m.reg x).toNat : Int) ≤ (m.reg y).toNat then 1 else 0)) := by
  have hexec : ∀ pc, execute (.subFrom x y) { m with pc } = .done (setFlagged { m with pc } x
      (m.reg y - m.reg x) (decide (m.reg x ≤ m.reg y))) := fun _ => rfl
  refine does_flagged hexec (toNat_sub_eq_emod _ _) ?_
  simp only [decide_eq_true_eq, UInt8.le_iff_toNat_le]
  omega

theorem does_shiftRight : m.Does (.shiftRight x y)
    (m.Flagged x ((m.reg x).toNat / 2) ((m.reg x).toNat % 2)) := by
  have hexec : ∀ pc, execute (.shiftRight x y) { m with pc } = .done (setFlagged { m with pc } x
      (m.reg x >>> 1) (m.reg x &&& 1 == 1)) := fun _ => rfl
  refine does_flagged hexec ?_ ?_
  · rw [toNat_halved]
    rfl
  · simp only [beq_iff_eq, and_one_eq_one]
    omega

theorem does_shiftLeft : m.Does (.shiftLeft x y) (m.Flagged x (2 * (m.reg x).toNat % 256)
    (if (128 : Int) ≤ (m.reg x).toNat then 1 else 0)) := by
  have hexec : ∀ pc, execute (.shiftLeft x y) { m with pc } = .done (setFlagged { m with pc } x
      (m.reg x <<< 1) (m.reg x >>> 7 == 1)) := fun _ => rfl
  refine does_flagged hexec ?_ ?_
  · rw [toNat_doubled]
    rfl
  · simp only [beq_iff_eq, shiftRight_seven_eq_one]
    omega

end

/-- **Arithmetic under every aliasing.** With `a` and `b` the values of the two registers before the
instruction, as numbers: the sum wraps and the flag is the carry; a difference, either way round,
wraps and the flag says that nothing was borrowed; a half and a double lose a bit, which is the
flag. The register takes the result, the flag register takes the flag unless it is that register,
and all the others stay. A sum in one register of two, neither of them the flag register, is undone
by the difference. -/
theorem arithmetic_under_aliasing (m : Machine ρ) (x y : UInt8) :
    let a : Int := (m.reg x).toNat
    let b : Int := (m.reg y).toNat
    m.Does (.add x y) (m.Flagged x ((a + b) % 256) (if 255 < a + b then 1 else 0)) ∧
    m.Does (.sub x y) (m.Flagged x ((a - b) % 256) (if b ≤ a then 1 else 0)) ∧
    m.Does (.subFrom x y) (m.Flagged x ((b - a) % 256) (if a ≤ b then 1 else 0)) ∧
    m.Does (.shiftRight x y) (m.Flagged x (a / 2) (a % 2)) ∧
    m.Does (.shiftLeft x y) (m.Flagged x (2 * a % 256) (if 128 ≤ a then 1 else 0)) ∧
    (number x ≠ number Registers.flag → number y ≠ number Registers.flag → number x ≠ number y →
      m.Does (.add x y) fun sum => sum.Does (.sub x y) fun back => back.reg x = m.reg x) := by
  intro a b
  refine ⟨does_add m x y, does_sub m x y, does_subFrom m x y, does_shiftRight m x y,
    does_shiftLeft m x y, fun hx hy hne => ?_⟩
  refine (does_add m x y).mono fun sum hsum => (does_sub sum x y).mono fun back hback => ?_
  -- the second register still holds its value, so the difference takes away what was added
  have hsame : sum.reg y = m.reg y := hsum.reg_eq hne.symm hy
  have htotal := hsum.target
  have hdifference := hback.target
  have hlt := (m.reg x).toNat_lt
  rw [hsame, htotal] at hdifference
  rw [← UInt8.toNat_inj]
  omega

/-- Two steps: a sum that wraps and raises the flag, and the difference that undoes it. -/
theorem arithmetic_under_aliasing_carry :
    let m := reached {} (SilentHost.mk 0)
      [.load 8 [0x61, 0xC8, 0x62, 0x64, 0x81, 0x24, 0x81, 0x25], .step, .step]
    number 1 ≠ number Registers.flag ∧ number 2 ≠ number Registers.flag ∧ number 1 ≠ number 2 ∧
      m.step.1 = .ran ∧ ((m.step.2.reg 1).toNat : Int) = 44 ∧
      ((m.step.2.reg Registers.flag).toNat : Int) = 1 ∧
      m.step.2.step.1 = .ran ∧ m.step.2.step.2.reg 1 = m.reg 1 := by
  intro m
  have hx : number 1 ≠ number Registers.flag := by decide
  have hy : number 2 ≠ number Registers.flag := by decide
  have hne : number 1 ≠ number 2 := by decide
  obtain ⟨hpending, hword, ha, hb, hpending', hword'⟩ :
      m.pending = none ∧ m.memory.word m.pc = 0x8124 ∧ m.reg 1 = 200 ∧ m.reg 2 = 100 ∧
        m.step.2.pending = none ∧ m.step.2.memory.word m.step.2.pc = 0x8125 := by
    decide +kernel
  have hfetch : m.fetch = .ok (.add 1 2) := by
    rw [fetch, hword]
    rfl
  have hfetch' : m.step.2.fetch = .ok (.sub 1 2) := by
    rw [fetch, hword']
    rfl
  obtain ⟨hadd, -, -, -, -, hundo⟩ := arithmetic_under_aliasing m 1 2
  obtain ⟨hran, hsum⟩ := hadd.step hpending hfetch
  obtain ⟨-, hsub⟩ := (hundo hx hy hne).step hpending hfetch
  obtain ⟨hran', hback⟩ := hsub.step hpending' hfetch'
  have htarget := hsum.target
  have hflag := hsum.flag
  rw [ha, hb] at htarget hflag
  exact ⟨hx, hy, hne, hran, htarget, hflag, hran', hback⟩

end Machine

end Chip8
