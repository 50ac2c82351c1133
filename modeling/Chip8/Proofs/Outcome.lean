import Chip8.Proofs.WellFormed

/-!
# Chip8 — the outcome of a step

Which way a step goes can be told from the machine before it: from the register that waits, the word
at the program counter, and the stack. A step that does not run leaves everything as it was, the
host included, and the faults of the stack name the address of the instruction itself, although the
program counter has moved on when they are found. At the end of memory the counter wraps, and so
does the way back.

Main statements:

* `previousAddress_nextAddress` — the way back leads to the instruction;
* `step_fst_eq_blocked`, `step_fst_eq_unknownOpcode`, `step_fst_eq_stackOverflow`,
  `step_fst_eq_stackUnderflow`, `step_fst_eq_ran` — when a step goes which way;
* `reached_stepLaw` — all of it for a machine to which anything may have happened.
-/

namespace Chip8

/-- Two before the address after an address of memory lies that address. -/
theorem previousAddress_nextAddress {address : UInt16} (h : address.toNat < 4096) :
    previousAddress (nextAddress address) = address := by
  have htwo : (2 : UInt16).toNat = 2 := rfl
  rw [← UInt16.toNat_inj, previousAddress, UInt16.toNat_ofNat', UInt16.toNat_sub,
    toNat_nextAddress, htwo]
  omega

example : nextAddress 0xFFF = 0x001 ∧ previousAddress 0x001 = 0xFFF := by decide

/-- A word is made of the bytes at its address and at the next one, which wraps. -/
theorem Memory.toNat_word (m : Memory) (address : UInt16) :
    (m.word address).toNat = 256 * m.cells[Fin.ofNat 4096 address.toNat].toNat
      + m.cells[Fin.ofNat 4096 (address.toNat + 1)].toNat := by
  have hcell : (cell (address + 1)).val = (Fin.ofNat 4096 (address.toNat + 1)).val := by
    have hone : (1 : UInt16).toNat = 1 := rfl
    simp only [cell, Fin.val_ofNat, UInt16.toNat_add, hone]
    omega
  have hhigh := (m.read address).toNat_lt
  have hlow := (m.read (address + 1)).toNat_lt
  have hword : (m.word address).toNat
      = 256 * (m.read address).toNat + (m.read (address + 1)).toNat := by
    rw [Memory.word, wordOfBytes, UInt16.toNat_ofNat']
    omega
  rw [hword, Memory.read, Memory.read]
  simp only [Fin.getElem_fin, hcell]
  rfl

namespace Machine

variable {ρ : Type} [Host ρ] {m : Machine ρ}

/-! ## The ways of a step -/

/-- A step is blocked while a key is awaited. -/
theorem step_fst_eq_blocked : m.step.1 = .blocked ↔ m.pending ≠ none := by
  have h := step_case m
  generalize m.step.1 = outcome, m.step.2 = m' at h
  cases h <;> simp [*]

/-- A step fails with a word if that is the one at the program counter and no instruction. -/
theorem step_fst_eq_unknownOpcode {w : UInt16} :
    m.step.1 = .failed (.unknownOpcode w) ↔
      m.pending = none ∧ (∀ instr, m.fetch ≠ .ok instr) ∧ w = m.memory.word m.pc := by
  have h := step_case m
  generalize m.step.1 = outcome, m.step.2 = m' at h
  cases h <;> simp [*, eq_comm]

/-- A step finds the stack full if the instruction is a call and there is no room. -/
theorem step_fst_eq_stackOverflow (hm : m.WellFormed) {pc : UInt16} :
    m.step.1 = .failed (.stackOverflow pc) ↔
      m.pending = none ∧ (∃ nnn, m.fetch = .ok (.call nnn)) ∧ m.stack.length = stackLimit ∧
        pc = m.pc := by
  have hdepth := hm.depth
  have hback := previousAddress_nextAddress hm.counter
  have h := step_case m
  generalize m.step.1 = outcome, m.step.2 = m' at h
  cases h with
  | overflows nnn pending fetch full =>
    -- there are never more addresses than the limit, so a full stack has just as many
    have hfull := Nat.le_antisymm hdepth full
    simp [pending, fetch, hfull, hback, eq_comm]
  | executes instr after pending fetch run =>
    -- a call that was executed found room
    have hroom := (execute_possible run).1
    simp only [reduceCtorEq, false_iff, fetch]
    rintro ⟨-, ⟨nnn, hcall⟩, hfull, -⟩
    cases hcall
    exact Nat.ne_of_lt (hroom nnn rfl) hfull
  | _ => simp [*]

/-- A step finds the stack empty if the instruction is a return and there is no address. -/
theorem step_fst_eq_stackUnderflow (hm : m.WellFormed) {pc : UInt16} :
    m.step.1 = .failed (.stackUnderflow pc) ↔
      m.pending = none ∧ m.fetch = .ok .ret ∧ m.stack = [] ∧ pc = m.pc := by
  have hback := previousAddress_nextAddress hm.counter
  have h := step_case m
  generalize m.step.1 = outcome, m.step.2 = m' at h
  cases h with
  | underflows pending fetch empty => simp [pending, fetch, empty, hback, eq_comm]
  | executes instr after pending fetch run =>
    -- a return that was executed found an address
    have hopen := (execute_possible run).2
    simp only [reduceCtorEq, false_iff, fetch]
    rintro ⟨-, hret, hempty, -⟩
    cases hret
    exact hopen rfl hempty
  | _ => simp [*]

/-- A step runs if the machine does not wait, the word is an instruction, and the stack is right for
it. -/
theorem step_fst_eq_ran (hm : m.WellFormed) :
    m.step.1 = .ran ↔
      m.pending = none ∧ (∃ instr, m.fetch = .ok instr) ∧
        ¬ ((∃ nnn, m.fetch = .ok (.call nnn)) ∧ m.stack.length = stackLimit) ∧
        ¬ (m.fetch = .ok .ret ∧ m.stack = []) := by
  have hdepth := hm.depth
  have h := step_case m
  generalize m.step.1 = outcome, m.step.2 = m' at h
  cases h with
  | overflows nnn pending fetch full =>
    have hfull := Nat.le_antisymm hdepth full
    simp [fetch, hfull]
  | executes instr after pending fetch run =>
    obtain ⟨hroom, hopen⟩ := execute_possible run
    simp only [pending, fetch, true_iff]
    refine ⟨trivial, ⟨instr, rfl⟩, ?_, ?_⟩
    · rintro ⟨⟨nnn, hcall⟩, hfull⟩
      cases hcall
      exact Nat.ne_of_lt (hroom nnn rfl) hfull
    · rintro ⟨hret, hempty⟩
      cases hret
      exact hopen rfl hempty
  | _ => simp [*]

/-- A step that runs is counted. -/
theorem cycles_step_of_ran (h : m.step.1 = .ran) : m.step.2.cycles = m.cycles + 1 := by
  have hcase := step_case m
  rw [h] at hcase
  generalize m.step.2 = m' at hcase
  cases hcase with
  | executes instr after pending fetch run => rw [retire_cycles, (execute_frame run).2.2.1]

/-! ## The law of a step -/

/-- Which outcome a step has and what it leaves behind, told from the machine before it. -/
structure StepLaw (m : Machine ρ) : Prop where
  -- the word at the program counter, high byte first; the second byte wraps
  word : (m.memory.word m.pc).toNat = 256 * m.memory.cells[Fin.ofNat 4096 m.pc.toNat].toNat
    + m.memory.cells[Fin.ofNat 4096 (m.pc.toNat + 1)].toNat
  -- the step is blocked exactly while a register waits for a key
  blocked : m.step.1 = .blocked ↔ m.pending ≠ none
  -- otherwise it fails with the word exactly if that is no instruction
  unknown : ∀ w, m.step.1 = .failed (.unknownOpcode w) ↔
    m.pending = none ∧ (∀ instr, Instruction.decode (m.memory.word m.pc) ≠ .ok instr) ∧
      w = m.memory.word m.pc
  -- it finds the stack full exactly if the word is a call and sixteen addresses are kept
  overflow : ∀ pc, m.step.1 = .failed (.stackOverflow pc) ↔
    m.pending = none ∧ (m.memory.word m.pc).toNat / 4096 = 2 ∧ m.stack.length = 16 ∧ pc = m.pc
  -- it finds the stack empty exactly if the word is a return and no address is kept
  underflow : ∀ pc, m.step.1 = .failed (.stackUnderflow pc) ↔
    m.pending = none ∧ m.memory.word m.pc = 0x00EE ∧ m.stack = [] ∧ pc = m.pc
  -- in every other case it runs
  ran : m.step.1 = .ran ↔
    m.pending = none ∧ (∃ instr, Instruction.decode (m.memory.word m.pc) = .ok instr) ∧
      ¬ ((m.memory.word m.pc).toNat / 4096 = 2 ∧ m.stack.length = 16) ∧
      ¬ (m.memory.word m.pc = 0x00EE ∧ m.stack = [])
  -- a step that does not run leaves the whole machine as it was, its host included
  atomic : m.step.1 ≠ .ran → m.step.2 = m
  -- a step that runs is counted
  counted : m.step.1 = .ran → m.step.2.cycles = m.cycles + 1

/-- Well-formed machines step by the law. -/
theorem WellFormed.stepLaw (hm : m.WellFormed) : m.StepLaw where
  word := Memory.toNat_word m.memory m.pc
  blocked := step_fst_eq_blocked
  unknown _ := step_fst_eq_unknownOpcode
  overflow pc := by
    rw [← Instruction.decode_eq_call]
    exact step_fst_eq_stackOverflow hm
  underflow pc := by
    rw [← Instruction.decode_eq_ret]
    exact step_fst_eq_stackUnderflow hm
  ran := by
    rw [← Instruction.decode_eq_call, ← Instruction.decode_eq_ret]
    exact step_fst_eq_ran hm
  atomic := step_eq_self rfl
  counted := cycles_step_of_ran

/-- Whatever happened to a new machine, its next step goes by the law. -/
theorem reached_stepLaw (variant : Variant) (host : ρ) (ops : List Operation) :
    (reached variant host ops).StepLaw :=
  (wellFormed_reached variant host ops).stepLaw

end Machine

end Chip8
