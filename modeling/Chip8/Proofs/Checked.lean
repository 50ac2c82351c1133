import Chip8.Proofs.WellFormed

/-!
# Chip8 — the checked machine

The machine of this library cuts every number that it uses as an index, so an access cannot go
astray. The checked machine trusts its numbers instead: it looks registers, keys, bytes and pixels
up as they are named, cuts one only where the memory, the keypad or a jump says so, and gives
nothing at all when a number is out of range, a sum of addresses needs a seventeenth bit, or a timer
would go below zero.

Main statements:

* `execute?_eq_some` — an instruction whose fields fit has all its accesses in range;
* `step?_eq_some` — the checked machine steps whenever the machine does, and alike;
* `reached_wellFormed_checked` — a machine is well-formed whatever happened to it, and every access
  of its next step or change of a key is in range.
-/

namespace Chip8

/-! ## Access by number -/

/-- Puts an element at a place that has to exist. -/
def setAt? {α : Type} {n : Nat} (xs : Vector α n) (k : Nat) (a : α) : Option (Vector α n) :=
  if h : k < n then some (xs.set k a) else none

/-- The sum of two addresses if sixteen bits hold it. -/
def sum? (a b : UInt16) : Option UInt16 :=
  if a.toNat + b.toNat < 65536 then some (a + b) else none

/-- The difference of two bytes if it is no less than zero. -/
def difference? (a b : UInt8) : Option UInt8 :=
  if b ≤ a then some (a - b) else none

theorem setAt?_of_lt {α : Type} {n : Nat} {xs : Vector α n} {k : Nat} (h : k < n) (a : α) :
    setAt? xs k a = some (xs.set k a) :=
  dif_pos h

theorem setAt?_eq_setIfInBounds {α : Type} {n : Nat} {xs : Vector α n} {k : Nat} {a : α}
    (h : k < n) : setAt? xs k a = some (xs.setIfInBounds k a) := by
  rw [setAt?_of_lt h]
  refine congrArg some (Vector.ext fun j hj => ?_)
  rw [Vector.getElem_set, Vector.getElem_setIfInBounds]

/-- A byte can be added to an address of twelve bits. -/
theorem sum?_of_fitsAddress {nnn : UInt16} (h : Instruction.FitsAddress nnn) (b : UInt8) :
    sum? nnn b.toUInt16 = some (nnn + b.toUInt16) := by
  have hb := b.toNat_lt
  rw [sum?, if_pos]
  rw [Instruction.FitsAddress] at h
  rw [UInt8.toNat_toUInt16]
  omega

/-- A sum of which only the lower twelve bits count may as well be cut to sixteen. -/
theorem sum_and_mask (a : UInt16) (b : UInt8) :
    (a + b.toUInt16) &&& 0xFFF = UInt16.ofNat ((a.toNat + b.toNat) % 4096) := by
  rw [← UInt16.toNat_inj, toNat_and_mask, UInt16.toNat_add, UInt8.toNat_toUInt16,
    UInt16.toNat_ofNat']
  omega

/-! ## Timers -/

namespace Timer

/-- A timer one tick later. -/
def countdown? (t : UInt8) : Option UInt8 :=
  if 0 < t then difference? t 1 else some t

theorem countdown?_eq_some (t : UInt8) : countdown? t = some (countdown t) := by
  unfold countdown? countdown
  split
  · rename_i h
    have hne : t ≠ 0 := by
      rintro rfl
      exact absurd h (by decide)
    have hle : (1 : UInt8) ≤ t := by
      rw [UInt8.le_iff_toNat_le]
      exact UInt8.lt_iff_toNat_lt.1 h
    rw [difference?, if_pos hle, if_neg hne]
  · rename_i h
    have hzero : t = 0 := by
      rw [← UInt8.toNat_inj]
      exact Nat.eq_zero_of_not_pos fun hpos => h (UInt8.lt_iff_toNat_lt.2 hpos)
    rw [if_pos hzero, hzero]

end Timer

/-! ## Memory -/

namespace Memory

/-- The byte at an address. -/
def read? (m : Memory) (address : UInt16) : Option UInt8 :=
  m.cells[(address &&& 0xFFF).toNat]?

/-- The word at an address. -/
def word? (m : Memory) (address : UInt16) : Option UInt16 := do
  let high ← m.read? address
  let low ← m.read? (address + 1)
  some (wordOfBytes high low)

/-- Stores a byte, unless the address lies in the font. -/
def write? (m : Memory) (address : UInt16) (value : UInt8) : Option Memory :=
  let k := (address &&& 0xFFF).toNat
  if k < font.length then some m else (setAt? m.cells k value).map Memory.mk

theorem read?_eq_some (m : Memory) (address : UInt16) :
    m.read? address = some (m.read address) := by
  have hlt : address.toNat % 4096 < 4096 := Nat.mod_lt _ (by decide)
  rw [read?, toNat_and_mask, Vector.getElem?_eq_getElem hlt]
  rfl

theorem word?_eq_some (m : Memory) (address : UInt16) :
    m.word? address = some (m.word address) := by
  rw [word?, read?_eq_some, read?_eq_some]
  rfl

theorem write?_eq_some (m : Memory) (address : UInt16) (value : UInt8) :
    m.write? address value = some (m.write address value) := by
  have hlt : address.toNat % 4096 < 4096 := Nat.mod_lt _ (by decide)
  rw [write?, Memory.write]
  simp only [toNat_and_mask]
  by_cases h : address.toNat % 4096 < font.length
  · rw [if_pos h, if_pos (show inFont address from h)]
  · rw [if_neg h, if_neg (show ¬ inFont address from h), setAt?_of_lt hlt]
    rfl

end Memory

/-! ## The display -/

namespace Drawing

/-- Flips one pixel if the bit is set and notes when that puts it out. -/
def plot? (d : Drawing) (x y : Nat) (bit : Bool) : Option Drawing :=
  if Frame.onDisplay x y then do
    let k := y * displayWidth + x
    let pixel ← d.frame.cells[k]?
    let cells ← setAt? d.frame.cells k (pixel ^^^ bit.toUInt8)
    some ⟨⟨cells⟩, d.hit || pixel == 1 && bit⟩
  else some d

/-- Draws a byte of a sprite. -/
def byte? (d : Drawing) (x y : Nat) (b : UInt8) : Option Drawing :=
  (List.range 8).foldlM (fun d column => d.plot? (x + column) y (spriteBit b column)) d

theorem plot?_eq_some (d : Drawing) (x y : Nat) (bit : Bool) :
    d.plot? x y bit = some (d.plot x y bit) := by
  unfold plot? plot Frame.flip Frame.putsOut
  by_cases h : Frame.onDisplay x y
  · have hlt : y * displayWidth + x < 2048 := (Frame.index x y h).isLt
    rw [if_pos h, dif_pos h, dif_pos h]
    simp only [Vector.getElem?_eq_getElem hlt, setAt?_of_lt hlt]
    rfl
  · rw [if_neg h, dif_neg h, dif_neg h, Bool.or_false]

theorem byte?_eq_some (d : Drawing) (x y : Nat) (b : UInt8) :
    d.byte? x y b = some (d.byte x y b) := by
  unfold byte? byte
  generalize List.range 8 = columns
  induction columns generalizing d with
  | nil => rfl
  | cons column columns ih =>
    rw [List.foldlM_cons, plot?_eq_some, List.foldl_cons]
    exact ih _

end Drawing

/-! ## Instructions -/

namespace Machine

variable {ρ : Type}

/-- The value of a register. -/
def reg? (m : Machine ρ) (x : UInt8) : Option UInt8 :=
  m.v[x.toNat]?

/-- A register takes a value. -/
def setReg? (m : Machine ρ) (x value : UInt8) : Option (Machine ρ) := do
  let v ← setAt? m.v x.toNat value
  some { m with v }

/-- The flag and then a register take their values. -/
def setFlagged? (m : Machine ρ) (x value : UInt8) (raised : Bool) : Option (Machine ρ) := do
  let flagged ← m.setReg? Registers.flag (if raised then 1 else 0)
  flagged.setReg? x value

/-- The key that a register names by its lower four bits is down. -/
def keyInReg? (m : Machine ρ) (x : UInt8) : Option Bool := do
  let key ← m.reg? x
  m.keys.down[(key &&& 0xF).toNat]?

/-- Draws one row of a sprite. -/
def drawRow? (m : Machine ρ) (left top : Nat) (d : Drawing) (row : Nat) : Option Drawing := do
  let b ← m.memory.read? (m.i + UInt16.ofNat row)
  d.byte? left (top + row) b

/-- Draws rows, one by one. -/
def drawing? (m : Machine ρ) (x y n : UInt8) : Option Drawing := do
  let left ← m.reg? x
  let top ← m.reg? y
  (List.range n.toNat).foldlM (m.drawRow? left.toNat top.toNat) ⟨m.frame, false⟩

/-- Stores one register. -/
def storeRegister? (m : Machine ρ) (memory : Memory) (k : Nat) : Option Memory := do
  let value ← m.v[k]?
  memory.write? (m.i + UInt16.ofNat k) value

/-- Stores the registers up to one of them, one by one. -/
def storedRegisters? (m : Machine ρ) (x : UInt8) : Option Memory :=
  (List.range (x.toNat + 1)).foldlM m.storeRegister? m.memory

/-- Loads one register. -/
def loadRegister? (m : Machine ρ) (v : Registers) (k : Nat) : Option Registers := do
  let value ← m.memory.read? (m.i + UInt16.ofNat k)
  setAt? v k value

/-- Loads the registers up to one of them, one by one. -/
def loadedRegisters? (m : Machine ρ) (x : UInt8) : Option Registers :=
  (List.range (x.toNat + 1)).foldlM m.loadRegister? m.v

/-- Stores the digits of a register, one by one. -/
def storedDigits? (m : Machine ρ) (x : UInt8) : Option Memory := do
  let value ← m.reg? x
  let memory ← m.memory.write? m.i (value / 100)
  let memory ← memory.write? (m.i + 1) (value % 100 / 10)
  memory.write? (m.i + 2) (value % 10)

/-- Executes the instruction before the program counter, with every access checked. -/
def execute? [Host ρ] (instr : Instruction) (m : Machine ρ) : Option (Executed ρ) :=
  match instr with
  | .clear | .ret | .jump _ | .call _ | .setIndex _ | .awaitKey _ => some (execute instr m)
  | .skipIfByte x nn => do return .done (m.skipIf ((← m.reg? x) == nn))
  | .skipUnlessByte x nn => do return .done (m.skipIf ((← m.reg? x) != nn))
  | .skipIfSame x y => do return .done (m.skipIf ((← m.reg? x) == (← m.reg? y)))
  | .skipIfDiffer x y => do return .done (m.skipIf ((← m.reg? x) != (← m.reg? y)))
  | .setByte x nn => do return .done (← m.setReg? x nn)
  | .addByte x nn => do return .done (← m.setReg? x ((← m.reg? x) + nn))
  | .copy x y => do return .done (← m.setReg? x (← m.reg? y))
  | .bitOr x y => do return .done (← m.setReg? x ((← m.reg? x) ||| (← m.reg? y)))
  | .bitAnd x y => do return .done (← m.setReg? x ((← m.reg? x) &&& (← m.reg? y)))
  | .bitXor x y => do return .done (← m.setReg? x ((← m.reg? x) ^^^ (← m.reg? y)))
  | .add x y => do
    let a ← m.reg? x
    let b ← m.reg? y
    return .done (← m.setFlagged? x (a + b) (decide (255 < a.toNat + b.toNat)))
  | .sub x y => do
    let a ← m.reg? x
    let b ← m.reg? y
    return .done (← m.setFlagged? x (a - b) (decide (b ≤ a)))
  | .subFrom x y => do
    let a ← m.reg? x
    let b ← m.reg? y
    return .done (← m.setFlagged? x (b - a) (decide (a ≤ b)))
  | .shiftRight x _ => do
    let a ← m.reg? x
    return .done (← m.setFlagged? x (a >>> 1) (a &&& 1 == 1))
  | .shiftLeft x _ => do
    let a ← m.reg? x
    return .done (← m.setFlagged? x (a <<< 1) (a >>> 7 == 1))
  | .jumpOffset nnn => do
    let target ← sum? nnn (← m.reg? 0).toUInt16
    return .done { m with pc := target &&& 0xFFF }
  | .random x nn => do
    let (byte, host) := Host.nextByte m.host
    return .done (← { m with host }.setReg? x (byte &&& nn))
  | .draw x y n => do
    let drawn ← m.drawing? x y n
    return .done (← { m with frame := drawn.frame }.setReg? Registers.flag
      (if drawn.hit then 1 else 0))
  | .skipIfKey x => do return .done (m.skipIf (← m.keyInReg? x))
  | .skipByKey x => do
    return .done (m.skipIf ((← m.keyInReg? x) == m.variant.skipsOnKeyDown))
  | .readDelay x => do return .done (← m.setReg? x m.delay)
  | .setDelay x => do return .done { m with delay := ← m.reg? x }
  | .setSound x => do return .done (m.setSound (← m.reg? x))
  | .addIndex x => do return .done { m with i := m.i + (← m.reg? x).toUInt16 }
  | .setGlyph x => do return .done { m with i := glyphAddress (← m.reg? x) }
  | .storeDigits x => do return .done { m with memory := ← m.storedDigits? x }
  | .storeRegisters x => do return .done { m with memory := ← m.storedRegisters? x }
  | .loadRegisters x => do return .done { m with v := ← m.loadedRegisters? x }

/-! ## Every access is in range -/

open Instruction (FitsDigit)

theorem val_number {x : UInt8} (hx : FitsDigit x) : (Registers.number x).val = x.toNat :=
  Nat.mod_eq_of_lt hx

theorem reg?_eq_some (m : Machine ρ) {x : UInt8} (hx : FitsDigit x) :
    m.reg? x = some (m.reg x) := by
  have hlt : x.toNat < 16 := hx
  rw [reg?, Vector.getElem?_eq_getElem hlt, reg, Registers.value]
  simp only [Fin.getElem_fin, val_number hx]

theorem setReg?_eq_some (m : Machine ρ) {x : UInt8} (hx : FitsDigit x) (value : UInt8) :
    m.setReg? x value = some (m.setReg x value) := by
  have hlt : x.toNat < 16 := hx
  rw [setReg?, setAt?_of_lt hlt, setReg, Registers.assign]
  simp only [val_number hx]
  rfl

theorem setFlagged?_eq_some (m : Machine ρ) {x : UInt8} (hx : FitsDigit x) (value : UInt8)
    (raised : Bool) : m.setFlagged? x value raised = some (m.setFlagged x value raised) := by
  have hflag : FitsDigit Registers.flag := by decide
  rw [setFlagged?, setReg?_eq_some m hflag]
  exact setReg?_eq_some _ hx value

theorem keyInReg?_eq_some (m : Machine ρ) {x : UInt8} (hx : FitsDigit x) :
    m.keyInReg? x = some (m.keyInReg x) := by
  have hlt : (m.reg x &&& 0xF).toNat < 16 := by
    rw [UInt8.toNat_and]
    exact Nat.lt_of_le_of_lt Nat.and_le_right (by decide)
  rw [keyInReg?, reg?_eq_some m hx, keyInReg, Keypad.isDown, Vector.getElem?_eq_getElem hlt]
  exact Vector.getElem?_eq_getElem hlt

theorem drawRow?_eq_some (m : Machine ρ) (left top : Nat) (d : Drawing) (row : Nat) :
    m.drawRow? left top d row
      = some (d.byte left (top + row) (m.memory.read (m.i + UInt16.ofNat row))) := by
  rw [drawRow?, Memory.read?_eq_some]
  exact Drawing.byte?_eq_some ..

/-- Rows that are read and drawn one by one are those of a sprite that is read at once. -/
theorem foldlM_drawRow? (m : Machine ρ) (left top n first : Nat) (d : Drawing) :
    (List.range' first n).foldlM (m.drawRow? left top) d
      = some (d.rows left (top + first)
          ((List.range' first n).map fun k => m.memory.read (m.i + UInt16.ofNat k))) := by
  induction n generalizing first d with
  | zero => rfl
  | succ n ih =>
    rw [List.range'_succ, List.foldlM_cons, List.map_cons, Drawing.rows, drawRow?_eq_some]
    exact ih (first + 1) _

theorem drawing?_eq_some (m : Machine ρ) {x y : UInt8} (hx : FitsDigit x) (hy : FitsDigit y)
    (n : UInt8) : m.drawing? x y n = some (m.drawing x y n) := by
  rw [drawing?, reg?_eq_some m hx, reg?_eq_some m hy, drawing, Memory.load, List.range_eq_range']
  exact foldlM_drawRow? m _ _ n.toNat 0 _

/-- Registers that are stored one by one are stored as they stand in a row. -/
theorem foldlM_storeRegister? (m : Machine ρ) {first n : Nat} (h : first + n ≤ 16)
    (memory : Memory) :
    (List.range' first n).foldlM m.storeRegister? memory
      = some (memory.store (m.i + UInt16.ofNat first) ((m.v.toList.drop first).take n)) := by
  induction n generalizing first memory with
  | zero => rfl
  | succ n ih =>
    have hlt : first < 16 := by omega
    -- the register that is stored is the first of those that are left
    have hcons : m.v.toList.drop first = m.v[first] :: m.v.toList.drop (first + 1) := by
      rw [List.drop_eq_getElem_cons (by simpa using hlt), Vector.getElem_toList]
    have hnext : m.i + UInt16.ofNat first + 1 = m.i + UInt16.ofNat (first + 1) := by
      rw [UInt16.add_assoc, UInt16.ofNat_add]
      rfl
    rw [List.range'_succ, List.foldlM_cons, hcons, List.take_succ_cons, Memory.store, hnext,
      storeRegister?, Vector.getElem?_eq_getElem hlt]
    simp only [Option.bind_eq_bind, Option.bind_some, Memory.write?_eq_some]
    exact ih (by omega) _

theorem storedRegisters?_eq_some (m : Machine ρ) {x : UInt8} (hx : FitsDigit x) :
    m.storedRegisters? x = some (m.memory.store m.i (m.v.toList.take (x.toNat + 1))) := by
  have hle : 0 + (x.toNat + 1) ≤ 16 := by
    rw [FitsDigit] at hx
    omega
  have hfirst : m.i + UInt16.ofNat 0 = m.i := UInt16.add_zero _
  rw [storedRegisters?, List.range_eq_range', foldlM_storeRegister? m hle, List.drop_zero, hfirst]

/-- Registers that are loaded one by one leave the others alone. -/
theorem foldlM_loadRegister? (m : Machine ρ) {n : Nat} (h : n ≤ 16) :
    (List.range n).foldlM m.loadRegister? m.v
      = some (Vector.ofFn fun k : Fin 16 =>
          if k.val < n then m.memory.read (m.i + UInt16.ofNat k.val) else m.v.get k) := by
  induction n with
  | zero =>
    refine congrArg some (Vector.ext fun k hk => ?_)
    rw [Vector.getElem_ofFn, if_neg (Nat.not_lt_zero k)]
    rfl
  | succ n ih =>
    have hlt : n < 16 := h
    rw [List.range_succ, List.foldlM_append, ih (Nat.le_of_lt hlt)]
    simp only [Option.bind_eq_bind, Option.bind_some, List.foldlM_cons, List.foldlM_nil,
      loadRegister?, Memory.read?_eq_some, setAt?_of_lt hlt, Option.pure_def]
    refine congrArg some (Vector.ext fun k hk => ?_)
    rw [Vector.getElem_set, Vector.getElem_ofFn, Vector.getElem_ofFn]
    by_cases he : n = k
    · subst he
      simp
    · -- away from the register that is loaded, one more is as many
      have hcount : k < n + 1 ↔ k < n := by omega
      simp only [he, hcount, if_false]

theorem loadedRegisters?_eq_some (m : Machine ρ) {x : UInt8} (hx : FitsDigit x) :
    m.loadedRegisters? x = some (m.loadedRegisters x) := by
  have hle : x.toNat + 1 ≤ 16 := hx
  rw [loadedRegisters?, foldlM_loadRegister? m hle, loadedRegisters]
  simp only [Nat.lt_succ_iff]

theorem storedDigits?_eq_some (m : Machine ρ) {x : UInt8} (hx : FitsDigit x) :
    m.storedDigits? x = some (m.memory.store m.i (decimalDigits (m.reg x))) := by
  have hnext : m.i + 1 + 1 = m.i + 2 := UInt16.add_assoc ..
  rw [storedDigits?, reg?_eq_some m hx]
  simp only [Option.bind_eq_bind, Option.bind_some, Memory.write?_eq_some, decimalDigits,
    Memory.store, hnext]

/-- An instruction whose fields fit has all its accesses in range. -/
theorem execute?_eq_some [Host ρ] (m : Machine ρ) {instr : Instruction} (hfit : instr.FieldsFit) :
    execute? instr m = some (execute instr m) := by
  have hzero : FitsDigit 0 := by decide
  have hflag : FitsDigit Registers.flag := by decide
  cases instr with
  -- these name no register
  | clear | ret | jump | call | setIndex | awaitKey => rfl
  | skipIfByte x | skipUnlessByte x | setDelay x | setSound x | addIndex x | setGlyph x =>
    rw [execute?, reg?_eq_some m hfit]
    rfl
  | skipIfSame x y | skipIfDiffer x y =>
    rw [execute?, reg?_eq_some m hfit.1, reg?_eq_some m hfit.2]
    rfl
  | setByte x | readDelay x =>
    rw [execute?, setReg?_eq_some m hfit]
    rfl
  | addByte x nn =>
    rw [execute?, reg?_eq_some m hfit, Option.bind_eq_bind, Option.bind_some,
      setReg?_eq_some m hfit]
    rfl
  | copy x y =>
    rw [execute?, reg?_eq_some m hfit.2, Option.bind_eq_bind, Option.bind_some,
      setReg?_eq_some m hfit.1]
    rfl
  | bitOr x y | bitAnd x y | bitXor x y =>
    simp only [execute?, reg?_eq_some m hfit.1, reg?_eq_some m hfit.2, Option.bind_eq_bind,
      Option.bind_some, setReg?_eq_some m hfit.1]
    rfl
  -- these write the flag register as well, which always exists
  | add x y | sub x y | subFrom x y =>
    simp only [execute?, reg?_eq_some m hfit.1, reg?_eq_some m hfit.2, Option.bind_eq_bind,
      Option.bind_some, setFlagged?_eq_some m hfit.1]
    rfl
  | shiftRight x y | shiftLeft x y =>
    simp only [execute?, reg?_eq_some m hfit.1, Option.bind_eq_bind, Option.bind_some,
      setFlagged?_eq_some m hfit.1]
    rfl
  | jumpOffset nnn =>
    -- twelve bits and eight never need a seventeenth
    simp only [execute?, reg?_eq_some m hzero, Option.bind_eq_bind, Option.bind_some,
      sum?_of_fitsAddress hfit, sum_and_mask]
    rfl
  | random x nn =>
    simp only [execute?, setReg?_eq_some _ hfit]
    rfl
  | draw x y n =>
    simp only [execute?, drawing?_eq_some m hfit.1 hfit.2.1, Option.bind_eq_bind,
      Option.bind_some, setReg?_eq_some _ hflag]
    rfl
  | skipIfKey x | skipByKey x =>
    rw [execute?, keyInReg?_eq_some m hfit]
    rfl
  | storeDigits x =>
    rw [execute?, storedDigits?_eq_some m hfit]
    rfl
  | storeRegisters x =>
    rw [execute?, storedRegisters?_eq_some m hfit]
    rfl
  | loadRegisters x =>
    rw [execute?, loadedRegisters?_eq_some m hfit]
    rfl

/-! ## Steps and keys -/

/-- Both timers count down. -/
def tick? [Host ρ] (m : Machine ρ) : Option (Machine ρ) := do
  let delay ← Timer.countdown? m.delay
  let sound ← Timer.countdown? m.sound
  let host := if Timer.runsOut m.sound then Host.soundOff m.host else m.host
  some { m with delay, sound, host }

/-- An executed instruction is counted, and the timers tick if instructions drive them. -/
def retire? [Host ρ] (m : Machine ρ) : Option (Machine ρ) :=
  let counted := { m with cycles := m.cycles + 1 }
  match m.variant.timerMode with
  | .perInstruction => counted.tick?
  | .fixed60Hz => some counted

/-- One step, with every access checked. -/
def step? [Host ρ] (m : Machine ρ) : Option (Outcome × Machine ρ) :=
  if m.isWaiting then some (.blocked, m)
  else do
    let word ← m.memory.word? m.pc
    match Instruction.decode word with
    | .error fault => some (.failed fault, m)
    | .ok instr =>
      match ← execute? instr { m with pc := nextAddress m.pc } with
      | .refused fault after => some (.failed fault, { after with pc := m.pc })
      | .done after => do
        let after ← after.retire?
        some (.ran, after)

/-- A key changes, with every access checked. -/
def applyChange? (m : Machine ρ) : KeyChange → Option (Machine ρ)
  | .press key =>
    if Keypad.isKey key then do
      let down ← setAt? m.keys.down key.toNat true
      let resumed : Machine ρ := { m with keys := ⟨down⟩, pending := none }
      match m.pending with
      | some x => resumed.setReg? x key
      | none => some resumed
    else some m
  | .release key =>
    if Keypad.isKey key then do
      let down ← setAt? m.keys.down key.toNat false
      some { m with keys := ⟨down⟩ }
    else some m

theorem tick?_eq_some [Host ρ] (m : Machine ρ) : m.tick? = some m.tick := by
  rw [tick?, Timer.countdown?_eq_some, Timer.countdown?_eq_some]
  rfl

theorem retire?_eq_some [Host ρ] (m : Machine ρ) : m.retire? = some m.retire := by
  rw [retire?, retire]
  cases m.variant.timerMode with
  | perInstruction => exact tick?_eq_some _
  | fixed60Hz => rfl

/-- The checked machine steps whenever the machine does, and alike. -/
theorem step?_eq_some [Host ρ] (m : Machine ρ) : m.step? = some m.step := by
  rw [step?, step]
  by_cases hwait : m.isWaiting = true
  · rw [if_pos hwait, if_pos hwait]
  · rw [if_neg hwait, if_neg hwait, Memory.word?_eq_some]
    simp only [Option.bind_eq_bind, Option.bind_some, fetch, run]
    cases hfetch : Instruction.decode (m.memory.word m.pc) with
    | error fault => rfl
    | ok instr =>
      have hfit := (Instruction.isReadOf_decode hfetch).fit
      simp only [execute?_eq_some _ hfit, Option.bind_some]
      cases execute instr { m with pc := nextAddress m.pc } with
      | refused fault after => rfl
      | done after =>
        simp only [retire?_eq_some, Option.bind_some]

/-- A key that goes down is stored in a register that exists. -/
theorem applyChange?_eq_some {m : Machine ρ} (hm : m.WellFormed) (change : KeyChange) :
    m.applyChange? change = some (m.applyChange change) := by
  cases change with
  | press key =>
    simp only [applyChange?, applyChange, press]
    by_cases hkey : Keypad.isKey key
    · have hlt : key.toNat < 16 := hkey
      rw [if_pos hkey, if_pos hkey, setAt?_eq_setIfInBounds hlt]
      -- this is where a register that waits has to be one of the sixteen
      cases hp : m.pending with
      | none => rfl
      | some x => exact setReg?_eq_some _ (hm.pending x hp) key
    · rw [if_neg hkey, if_neg hkey]
  | release key =>
    simp only [applyChange?, applyChange, release]
    by_cases hkey : Keypad.isKey key
    · have hlt : key.toNat < 16 := hkey
      rw [if_pos hkey, if_pos hkey, setAt?_eq_setIfInBounds hlt]
      rfl
    · rw [if_neg hkey, if_neg hkey]

/-! ## Every reached machine -/

/-- Whatever happened to a new machine, it is well-formed, and every access of its next step and of
the next change of a key is in range. -/
theorem reached_wellFormed_checked [Host ρ] (variant : Variant) (host : ρ) (ops : List Operation) :
    (reached variant host ops).WellFormed ∧
      (reached variant host ops).step? = some (reached variant host ops).step ∧
      ∀ change, (reached variant host ops).applyChange? change
        = some ((reached variant host ops).applyChange change) := by
  have hm := wellFormed_reached variant host ops
  exact ⟨hm, step?_eq_some _, applyChange?_eq_some hm⟩

end Machine

end Chip8
