import Chip8.Proofs.Decode
import Chip8.Proofs.History

/-!
# Chip8 — well-formed machines

The state of a machine is wider than what it uses of it: addresses have sixteen bits where memory
has twelve, a pixel is a byte, the register that waits is any byte. A well-formed machine uses no
more than it may: the program counter and the return addresses lie in memory, no more than sixteen
of these are kept, pixels are zero or one, the font is in its place, and a register that waits is
one of the sixteen.

Main statements:

* `WellFormed.execute` — an instruction whose fields fit keeps a machine well-formed;
* `WellFormed.step` — so does a step;
* `wellFormed_reached` — whatever happens to a new machine, it stays well-formed.
-/

namespace Chip8

/-! ## The font -/

namespace Memory

/-- The bytes at the bottom of memory are those of the font. -/
def HoldsFont (m : Memory) : Prop :=
  m.cells.toList.take font.length = font

theorem holdsFont_initial : initial.HoldsFont := by
  unfold HoldsFont
  decide +kernel

/-- A byte that is put behind the font leaves it alone. -/
theorem take_setIfInBounds (cells : Vector UInt8 4096) {k : Nat} (h : font.length ≤ k) (b : UInt8) :
    (cells.setIfInBounds k b).toList.take font.length = cells.toList.take font.length := by
  rw [Vector.toList_setIfInBounds, List.take_set_of_le h]

theorem HoldsFont.write {m : Memory} (hm : m.HoldsFont) (address : UInt16) (value : UInt8) :
    (m.write address value).HoldsFont := by
  unfold Memory.write
  split
  · exact hm
  · rename_i h
    rw [HoldsFont, Vector.toList_set, List.take_set_of_le (Nat.not_lt.1 h)]
    exact hm

theorem HoldsFont.store {m : Memory} (hm : m.HoldsFont) (address : UInt16) (bytes : List UInt8) :
    (m.store address bytes).HoldsFont := by
  induction bytes generalizing m address with
  | nil => exact hm
  | cons b bs ih => exact ih (hm.write address b) (address + 1)

theorem take_place (cells : Vector UInt8 4096) {start : Nat} (h : font.length ≤ start)
    (bytes : List UInt8) :
    (place cells start bytes).toList.take font.length = cells.toList.take font.length := by
  induction bytes generalizing cells start with
  | nil => rfl
  | cons b bs ih => rw [place, ih _ (Nat.le_succ_of_le h), take_setIfInBounds cells h]

theorem HoldsFont.loadProgram {m : Memory} (hm : m.HoldsFont) (program : List UInt8) :
    (m.loadProgram program).HoldsFont := by
  rw [HoldsFont, Memory.loadProgram, take_place _ (by decide)]
  exact hm

end Memory

/-! ## The display -/

theorem Frame.IsBinary.byte {d : Drawing} (hd : d.frame.IsBinary) (x y : Nat) (b : UInt8) :
    (d.byte x y b).frame.IsBinary := by
  unfold Drawing.byte
  generalize List.range 8 = columns
  induction columns generalizing d with
  | nil => exact hd
  | cons column columns ih => exact ih (hd.flip _ _ _)

theorem Frame.IsBinary.rows {d : Drawing} (hd : d.frame.IsBinary) (x y : Nat)
    (sprite : List UInt8) : (d.rows x y sprite).frame.IsBinary := by
  induction sprite generalizing d y with
  | nil => exact hd
  | cons b bs ih => exact ih (hd.byte x y b) (y + 1)

/-! ## Addresses -/

theorem toNat_nextAddress (address : UInt16) :
    (nextAddress address).toNat = (address.toNat + 2) % 4096 := by
  rw [nextAddress, UInt16.toNat_ofNat']
  omega

theorem nextAddress_lt (address : UInt16) : (nextAddress address).toNat < 4096 := by
  rw [toNat_nextAddress]
  omega

/-! ## Machines -/

namespace Machine

variable {ρ : Type}

/-- The machine uses no more of its state than it may. -/
structure WellFormed (m : Machine ρ) : Prop where
  counter : m.pc.toNat < 4096
  depth : m.stack.length ≤ stackLimit
  returns : ∀ address ∈ m.stack, address.toNat < 4096
  pixels : m.frame.IsBinary
  font : m.memory.HoldsFont
  pending : ∀ x, m.pending = some x → x.toNat < 16

theorem wellFormed_initial (variant : Variant) (host : ρ) : (initial variant host).WellFormed where
  counter := show programOrigin.toNat < 4096 by decide
  depth := Nat.zero_le _
  returns := by simp [initial]
  pixels := Frame.isBinary_dark
  font := Memory.holdsFont_initial
  pending := by simp [initial]

theorem WellFormed.moveTo {m : Machine ρ} (hm : m.WellFormed) {address : UInt16}
    (h : address.toNat < 4096) : WellFormed { m with pc := address } :=
  { hm with counter := h }

theorem WellFormed.skipIf {m : Machine ρ} (hm : m.WellFormed) (condition : Bool) :
    (m.skipIf condition).WellFormed := by
  unfold Machine.skipIf
  split
  · exact hm.moveTo (nextAddress_lt _)
  · exact hm

variable [Host ρ]

/-- An instruction whose fields fit keeps a machine well-formed. -/
theorem WellFormed.execute {instr : Instruction} {m after : Machine ρ} (hm : m.WellFormed)
    (hfit : instr.FieldsFit) (h : execute instr m = .done after) : after.WellFormed := by
  cases instr with
  | clear =>
    cases h
    exact { hm with pixels := Frame.isBinary_dark }
  | ret =>
    obtain ⟨address, rest, hstack, rfl⟩ := done_ret h
    -- the address that is taken lies in memory, as all of them do
    have hdepth := hm.depth
    have hreturns := hm.returns
    rw [hstack] at hdepth hreturns
    exact
      { hm with
        counter := hreturns address (List.mem_cons_self ..)
        depth := Nat.le_of_succ_le hdepth
        returns := fun a ha => hreturns a (List.mem_cons_of_mem _ ha) }
  | call nnn =>
    obtain ⟨hroom, rfl⟩ := done_call h
    refine { hm with counter := hfit, depth := hroom, returns := ?_ }
    -- the address that is pushed is the counter, which lies in memory
    intro a ha
    rcases List.mem_cons.1 ha with rfl | ha
    · exact hm.counter
    · exact hm.returns a ha
  | jump nnn =>
    cases h
    exact hm.moveTo hfit
  | jumpOffset nnn =>
    cases h
    -- whatever the register adds, the sum is cut to an address
    refine hm.moveTo ?_
    rw [UInt16.toNat_ofNat']
    omega
  | skipIfByte | skipUnlessByte | skipIfSame | skipIfDiffer | skipIfKey | skipByKey =>
    cases h
    exact hm.skipIf _
  | draw x y n =>
    cases h
    exact { hm with pixels := hm.pixels.rows _ _ _ }
  | awaitKey x =>
    cases h
    -- the register that waits is one that was decoded
    refine { hm with pending := ?_ }
    intro y hy
    cases hy
    exact hfit
  | storeDigits | storeRegisters =>
    cases h
    exact { hm with font := hm.font.store _ _ }
  -- the others reach registers, the index, the timers or the host
  | _ =>
    cases h
    exact ⟨hm.counter, hm.depth, hm.returns, hm.pixels, hm.font, hm.pending⟩

theorem WellFormed.tick {m : Machine ρ} (hm : m.WellFormed) : m.tick.WellFormed :=
  { hm with }

theorem WellFormed.retire {m : Machine ρ} (hm : m.WellFormed) : m.retire.WellFormed := by
  unfold Machine.retire
  split
  · exact { hm with }
  · exact { hm with }

/-- A step that ran keeps a machine well-formed. -/
theorem WellFormed.step {m m' : Machine ρ} (hm : m.WellFormed) (h : m.step = (.ran, m')) :
    m'.WellFormed := by
  cases step_cases h with
  | executes instr after pending fetch run =>
    have hfit := (Instruction.isReadOf_decode fetch).fit
    exact ((hm.moveTo (nextAddress_lt _)).execute hfit run).retire

omit [Host ρ] in
theorem WellFormed.applyChange {m : Machine ρ} (hm : m.WellFormed) (change : KeyChange) :
    (m.applyChange change).WellFormed := by
  cases change with
  | press key =>
    rw [Machine.applyChange, press]
    split
    · refine { hm with pending := ?_ }
      intro x hx
      cases hx
    · exact hm
  | release key =>
    rw [Machine.applyChange, release]
    split
    · exact { hm with }
    · exact hm

omit [Host ρ] in
/-- A program lies behind the font, whatever its bytes and its declared size. -/
theorem WellFormed.loadDeclared {m m' : Machine ρ} (hm : m.WellFormed) {size : Nat}
    {data : List UInt8} (h : m.loadDeclared size data = .ok m') : m'.WellFormed := by
  unfold Machine.loadDeclared at h
  split at h
  · cases h
  · split at h
    · cases h
    · cases h
      exact { hm with font := hm.font.loadProgram data }

/-- Whatever happens to a new machine, it stays well-formed. -/
theorem wellFormed_reached (variant : Variant) (host : ρ) (ops : List Operation) :
    (reached variant host ops).WellFormed := by
  refine undergoAll_invariant ?_ ?_ ?_ ?_ (wellFormed_initial variant host) ops
  · intro m m' size data h hm
    exact hm.loadDeclared h
  · intro m m' h hm
    exact hm.step h
  · intro m change hm
    exact hm.applyChange change
  · intro m hm
    exact hm.tick

end Machine

end Chip8
