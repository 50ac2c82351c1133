import Chip8.Proofs.Moves

/-!
# Chip8 — the bits of the index register that count

The index register has sixteen bits and memory has addresses of twelve. Sprites, stores and loads
count on from the index register with all its bits and lose the upper ones at every access, so two
machines that differ in these bits only draw, store and load alike. What the instructions make of
the register keeps the difference where it was: they set it, or they add to it, and a sum that wraps
at sixteen bits wraps at twelve as well. Nothing else asks for it.

Main statements:

* `SameButIndex.execute`, `SameButIndex.step` — an instruction and a step of two such machines go
  alike;
* `upper_index_bits_unobservable` — so does any row of moves.
-/

namespace Chip8

/-! ## Memory -/

namespace Memory

/-- Addresses with the same lower twelve bits mean the same cell, and so do those as far behind. -/
theorem cell_add {a b : UInt16} (h : cell a = cell b) (offset : UInt16) :
    cell (a + offset) = cell (b + offset) := by
  have hmod : a.toNat % 4096 = b.toNat % 4096 := congrArg Fin.val h
  have ha := UInt16.toNat_add a offset
  have hb := UInt16.toNat_add b offset
  refine Fin.ext ?_
  simp only [cell, Fin.val_ofNat]
  omega

variable (m : Memory) {a b : UInt16}

theorem read_of_cell_eq (h : cell a = cell b) : m.read a = m.read b :=
  congrArg (fun c : Fin 4096 => m.cells[c]) h

theorem write_of_cell_eq (h : cell a = cell b) (value : UInt8) :
    m.write a value = m.write b value := by
  -- the font is told from the cell, so both stores are dropped or none is
  have hfont : inFont a ↔ inFont b := by rw [inFont, h, inFont]
  by_cases hb : inFont b
  · rw [write_of_inFont (hfont.2 hb), write_of_inFont hb]
  · rw [write, if_neg (mt hfont.1 hb), write, if_neg hb]
    exact congrArg (fun c : Fin 4096 => Memory.mk (m.cells.set c value)) h

theorem load_of_cell_eq (h : cell a = cell b) (count : Nat) : m.load a count = m.load b count :=
  List.map_congr_left fun _ _ => m.read_of_cell_eq (cell_add h _)

theorem store_of_cell_eq (h : cell a = cell b) (bytes : List UInt8) :
    m.store a bytes = m.store b bytes := by
  induction bytes generalizing m a b with
  | nil => rfl
  | cons byte bytes ih =>
    rw [store, store, m.write_of_cell_eq h]
    exact ih _ (cell_add h 1)

end Memory

/-! ## Machines -/

namespace Machine

variable {ρ : Type}

/-- The machines agree but for their index registers, and these in their lower twelve bits. -/
structure SameButIndex (m m' : Machine ρ) : Prop where
  others : m' = { m with i := m'.i }
  index : m.i.toNat % 4096 = m'.i.toNat % 4096

variable {m m' : Machine ρ}

theorem SameButIndex.skipIf (h : m.SameButIndex m') (condition : Bool) :
    (m.skipIf condition).SameButIndex (m'.skipIf condition) := by
  rw [h.others]
  unfold Machine.skipIf
  split <;> exact ⟨rfl, h.index⟩

end Machine

/-- The executions ended alike, and the machines that they left agree but for their index registers,
and these in their lower twelve bits. -/
inductive Executed.SameButIndex {ρ : Type} : Executed ρ → Executed ρ → Prop
  | done {after after' : Machine ρ} (same : after.SameButIndex after') :
      SameButIndex (.done after) (.done after')
  | refused {fault : Fault} {after after' : Machine ρ} (same : after.SameButIndex after') :
      SameButIndex (.refused fault after) (.refused fault after')

namespace Machine

variable {ρ : Type} [Host ρ] {m m' : Machine ρ}

theorem SameButIndex.execute (h : m.SameButIndex m') (instr : Instruction) :
    (execute instr m).SameButIndex (execute instr m') := by
  have hindex := h.index
  rw [h.others]
  generalize m'.i = j at hindex
  have hcell : Memory.cell m.i = Memory.cell j := Fin.ext hindex
  cases instr with
  | ret =>
    simp only [Machine.execute]
    split
    · exact .refused ⟨rfl, hindex⟩
    · exact .done ⟨rfl, hindex⟩
  | call nnn =>
    simp only [Machine.execute]
    split
    · exact .done ⟨rfl, hindex⟩
    · exact .refused ⟨rfl, hindex⟩
  | skipIfByte | skipUnlessByte | skipIfSame | skipIfDiffer | skipIfKey | skipByKey =>
    exact .done (SameButIndex.skipIf ⟨rfl, hindex⟩ _)
  -- the index is set to the same address, or it grows by the same value
  | setIndex nnn => exact .done ⟨rfl, rfl⟩
  | setGlyph x => exact .done ⟨rfl, rfl⟩
  | addIndex x => exact .done ⟨rfl, congrArg Fin.val (Memory.cell_add hcell _)⟩
  -- a sprite, a store and a load count on from the same cell
  | draw x y n =>
    have hdrawing : m.drawing x y n = drawing { m with i := j } x y n :=
      congrArg (Drawing.rows _ _ _) (m.memory.load_of_cell_eq hcell n.toNat)
    simp only [Machine.execute, hdrawing]
    exact .done ⟨rfl, hindex⟩
  | storeDigits x =>
    simp only [Machine.execute, m.memory.store_of_cell_eq hcell]
    exact .done ⟨rfl, hindex⟩
  | storeRegisters x =>
    simp only [Machine.execute, m.memory.store_of_cell_eq hcell]
    exact .done ⟨rfl, hindex⟩
  | loadRegisters x =>
    have hloaded : m.loadedRegisters x = loadedRegisters { m with i := j } x := by
      refine congrArg Vector.ofFn (funext fun k => ?_)
      rw [m.memory.read_of_cell_eq (Memory.cell_add hcell _)]
    simp only [Machine.execute, hloaded]
    exact .done ⟨rfl, hindex⟩
  | _ => exact .done ⟨rfl, hindex⟩

/-! ## Steps -/

theorem SameButIndex.tick (h : m.SameButIndex m') : m.tick.SameButIndex m'.tick := by
  rw [h.others]
  exact ⟨rfl, h.index⟩

theorem SameButIndex.retire (h : m.SameButIndex m') : m.retire.SameButIndex m'.retire := by
  rw [h.others]
  simp only [Machine.retire]
  split <;> exact ⟨rfl, h.index⟩

omit [Host ρ] in
theorem SameButIndex.moveTo (h : m.SameButIndex m') (address : UInt16) :
    SameButIndex { m with pc := address } { m' with pc := address } := by
  rw [h.others]
  exact ⟨rfl, h.index⟩

theorem SameButIndex.step (h : m.SameButIndex m') :
    m'.step.1 = m.step.1 ∧ m.step.2.SameButIndex m'.step.2 := by
  have hwait : m'.isWaiting = m.isWaiting :=
    congrArg Option.isSome (congrArg Machine.pending h.others :)
  have hpc : m'.pc = m.pc := (congrArg Machine.pc h.others :)
  have hmemory : m'.memory = m.memory := (congrArg Machine.memory h.others :)
  have hfetch : m'.fetch = m.fetch := by rw [fetch, fetch, hmemory, hpc]
  rw [Machine.step, Machine.step, hwait, hfetch, hpc]
  cases m.isWaiting with
  | true => exact ⟨rfl, h⟩
  | false =>
    cases m.fetch with
    | error fault => exact ⟨rfl, h⟩
    | ok instr =>
      have hrun : (m.run instr).SameButIndex (m'.run instr) := by
        rw [run, run, hpc]
        exact (h.moveTo _).execute instr
      simp only [Bool.false_eq_true, if_false]
      generalize m.run instr = executed, m'.run instr = executed' at hrun
      cases hrun with
      | done same => exact ⟨rfl, same.retire⟩
      | refused same => exact ⟨rfl, same.moveTo m.pc⟩

/-! ## Moves -/

omit [Host ρ] in
theorem SameButIndex.applyChange (h : m.SameButIndex m') (change : KeyChange) :
    (m.applyChange change).SameButIndex (m'.applyChange change) := by
  rw [h.others]
  cases change with
  | press key =>
    simp only [Machine.applyChange, press]
    split <;> exact ⟨rfl, h.index⟩
  | release key =>
    simp only [Machine.applyChange, release]
    split <;> exact ⟨rfl, h.index⟩

theorem SameButIndex.make (h : m.SameButIndex m') (move : Move) :
    m'.answer move = m.answer move ∧ (m.make move).SameButIndex (m'.make move) := by
  cases move with
  | load size data =>
    rw [h.others]
    have hinitial : isInitial { m with i := m'.i } = m.isInitial := rfl
    simp only [answer, Machine.make, tryLoad, loadDeclared, hinitial]
    cases m.isInitial with
    | false => exact ⟨rfl, rfl, h.index⟩
    | true =>
      by_cases hsize : programSpace < size
      · simp only [Bool.not_true, Bool.false_eq_true, hsize, if_true, if_false, true_and]
        exact ⟨rfl, h.index⟩
      · simp only [Bool.not_true, Bool.false_eq_true, hsize, if_false]
        exact ⟨rfl, rfl, h.index⟩
  | step => exact ⟨congrArg Answer.stepped h.step.1, h.step.2⟩
  | key change => exact ⟨rfl, h.applyChange change⟩
  | tick => exact ⟨rfl, h.tick⟩

/-- **Only the lower twelve bits of the index register count.** Two machines that agree but for
their index registers, and these in their lower twelve bits, answer alike to every row of moves, and
they agree in the same way after it. -/
theorem upper_index_bits_unobservable (h : m.SameButIndex m') (moves : List Move) :
    m'.answers moves = m.answers moves ∧ (m.makeAll moves).SameButIndex (m'.makeAll moves) := by
  induction moves generalizing m m' with
  | nil => exact ⟨rfl, h⟩
  | cons move moves ih =>
    obtain ⟨hanswer, hmake⟩ := h.make move
    obtain ⟨hanswers, hafter⟩ := ih hmake
    rw [answers_cons, answers_cons, hanswer, hanswers]
    exact ⟨rfl, hafter⟩

/-- The index register points behind memory in the one machine and into it in the other. Both store
three digits across the end of memory, move the index on, draw and wait for a key. -/
theorem upper_index_bits_unobservable_wrapping :
    let m := reached {} (SilentHost.mk 0)
      [.load 10 [0xAF, 0xFE, 0xF0, 0x33, 0xF0, 0x1E, 0xD0, 0x05, 0xF1, 0x0A], .step]
    let m' := { m with i := 0xFFFE }
    let moves : List Move := [.step, .tick, .step, .step, .step, .key (.press 7), .step]
    m.i = 0x0FFE ∧ m.SameButIndex m' ∧ m'.answers moves = m.answers moves ∧
      (m.makeAll moves).SameButIndex (m'.makeAll moves) := by
  intro m m' moves
  have hindex : m.i = 0x0FFE := by decide +kernel
  have hsame : m.SameButIndex m' := by
    refine ⟨rfl, ?_⟩
    show m.i.toNat % 4096 = (0xFFFE : UInt16).toNat % 4096
    rw [hindex]
    rfl
  exact ⟨hindex, hsame, upper_index_bits_unobservable hsame moves⟩

end Machine

end Chip8
