import Chip8.Host.Seeded
import Chip8.Proofs.WellFormed

/-!
# Chip8 — what a sprite draws

A sprite is drawn bit by bit, row after row. What comes of it is said here all at once: a *mask*
tells the pixels at which the sprite has a set bit, those pixels turn over, the others stay, and the
drawing hits if one of the pixels that turn over was lit. No pixel is visited twice, so the bits of
one row cannot hide what those of another hit. What lies off the display takes no part.

Main statements:

* `Draws.trans` — drawings whose masks are apart amount to one with both masks;
* `draws_rows` — the loop over a sprite draws the mask of the sprite;
* `draws_clipped_sprite` — what the drawing instruction does to a machine.
-/

namespace Chip8

/-! ## Binary frames -/

namespace Frame

/-- Frames of zeros and ones that show the same pixels are the same. -/
theorem IsBinary.ext {f g : Frame} (hf : f.IsBinary) (hg : g.IsBinary)
    (h : ∀ x y, f.pixel? x y = g.pixel? x y) : f = g := by
  refine congrArg Frame.mk (Vector.ext fun k hk => ?_)
  -- the cell is kept for the pixel in this column and row
  have hon : onDisplay (k % 64) (k / 64) := by
    simp only [onDisplay, displayWidth, displayHeight]
    omega
  have hindex : (index (k % 64) (k / 64) hon).val = k := by
    simp only [index, displayWidth]
    omega
  have hpixel := h (k % 64) (k / 64)
  simp only [pixel?, hon, dif_pos, Fin.getElem_fin, hindex, Option.some.injEq] at hpixel
  have hfk : isBit f.cells[k] := hf ⟨k, hk⟩
  have hgk : isBit g.cells[k] := hg ⟨k, hk⟩
  rcases hfk with hc | hc <;> rcases hgk with hc' | hc' <;> simp_all

/-- A pixel that is there is on the display. -/
theorem onDisplay_of_pixel? {f : Frame} {x y : Nat} {lit : Bool} (h : f.pixel? x y = some lit) :
    onDisplay x y := by
  unfold pixel? at h
  split at h
  · assumption
  · cases h

/-- On a binary frame a flip puts out just a lit pixel under a set bit. -/
theorem IsBinary.putsOut_iff {f : Frame} (hf : f.IsBinary) (x y : Nat) (bit : Bool) :
    f.putsOut x y bit = true ↔ f.pixel? x y = some true ∧ bit = true := by
  unfold putsOut pixel?
  split
  · rename_i h
    rcases hf (index x y h) with hc | hc <;> simp_all
  · simp

end Frame

/-! ## Masks -/

namespace Drawing

/-- The second drawing comes from the first by turning over the pixels of a mask; it hits if one of
them was lit. -/
structure Draws (mask : Nat → Nat → Bool) (d d' : Drawing) : Prop where
  binary : d'.frame.IsBinary
  pixel : ∀ px py, d'.frame.pixel? px py = (d.frame.pixel? px py).map (· ^^ mask px py)
  hit : d'.hit = true ↔
    d.hit = true ∨ ∃ px py, d.frame.pixel? px py = some true ∧ mask px py = true

variable {d d' d₁ d₂ : Drawing} {mask first second : Nat → Nat → Bool}

theorem Draws.refl (hd : d.frame.IsBinary) (hmask : ∀ px py, mask px py = false) :
    Draws mask d d where
  binary := hd
  pixel px py := by simp [hmask]
  hit := by simp [hmask]

/-- Drawings whose masks are apart amount to one with both masks. -/
theorem Draws.trans (h₁ : Draws first d d₁) (h₂ : Draws second d₁ d₂)
    (hapart : ∀ px py, first px py = true → second px py = false)
    (hmask : ∀ px py, mask px py = (first px py || second px py)) : Draws mask d d₂ where
  binary := h₂.binary
  pixel px py := by
    rw [h₂.pixel, h₁.pixel, hmask, Option.map_map]
    congr 1
    funext lit
    have := hapart px py
    cases lit <;> cases hf : first px py <;> simp_all
  hit := by
    -- what the second mask meets the first has left as it was
    have hkept : ∀ px py, second px py = true →
        d₁.frame.pixel? px py = d.frame.pixel? px py := by
      intro px py hs
      have hf : first px py = false := by
        cases hf : first px py with
        | false => rfl
        | true => rw [hapart px py hf] at hs; cases hs
      rw [h₁.pixel, hf]
      simp
    rw [h₂.hit, h₁.hit, or_assoc]
    refine or_congr_right ?_
    constructor
    · rintro (⟨px, py, hlit, hf⟩ | ⟨px, py, hlit, hs⟩)
      · exact ⟨px, py, hlit, by rw [hmask, hf, Bool.true_or]⟩
      · exact ⟨px, py, hkept px py hs ▸ hlit, by rw [hmask, hs, Bool.or_true]⟩
    · rintro ⟨px, py, hlit, hm⟩
      rw [hmask, Bool.or_eq_true] at hm
      rcases hm with hf | hs
      · exact Or.inl ⟨px, py, hlit, hf⟩
      · exact Or.inr ⟨px, py, (hkept px py hs).trans hlit, hs⟩

/-- A mask that keeps off the display draws nothing. -/
theorem Draws.eq_of_clear (h : Draws mask d d') (hd : d.frame.IsBinary)
    (hclear : ∀ px py, Frame.onDisplay px py → mask px py = false) : d' = d := by
  have hframe : d'.frame = d.frame := by
    refine h.binary.ext hd fun px py => ?_
    rw [h.pixel]
    cases hp : d.frame.pixel? px py with
    | none => rfl
    | some lit =>
      rw [hclear px py (Frame.onDisplay_of_pixel? hp), Option.map_some, Bool.xor_false]
  have hhit : d'.hit = d.hit := by
    rw [Bool.eq_iff_iff, h.hit, or_iff_left]
    rintro ⟨px, py, hlit, hset⟩
    rw [hclear px py (Frame.onDisplay_of_pixel? hlit)] at hset
    cases hset
  cases d
  cases d'
  simp_all

/-! ## The loops -/

/-- One bit at one pixel. -/
theorem draws_plot (hd : d.frame.IsBinary) (x y : Nat) (bit : Bool)
    (hmask : ∀ px py, mask px py = (decide (x = px ∧ y = py) && bit)) :
    Draws mask d (d.plot x y bit) where
  binary := hd.flip x y bit
  pixel px py := by
    have hflip := hd.pixel?_flip x y px py bit
    rw [show (d.plot x y bit).frame = d.frame.flip x y bit from rfl, hflip, hmask]
    by_cases e : x = px ∧ y = py
    · simp [e]
    · simp [e]
  hit := by
    rw [show (d.plot x y bit).hit = (d.hit || d.frame.putsOut x y bit) from rfl, Bool.or_eq_true,
      hd.putsOut_iff]
    refine or_congr_right ?_
    constructor
    · rintro ⟨hlit, hbit⟩
      exact ⟨x, y, hlit, by rw [hmask]; simp [hbit]⟩
    · rintro ⟨px, py, hlit, hm⟩
      rw [hmask] at hm
      simp only [Bool.and_eq_true, decide_eq_true_eq] at hm
      obtain ⟨⟨rfl, rfl⟩, hbit⟩ := hm
      exact ⟨hlit, hbit⟩

/-- The first columns of a byte, with its leftmost bit at a position. -/
def columnsMask (x y : Nat) (b : UInt8) (columns px py : Nat) : Bool :=
  decide (x ≤ px ∧ px < x + columns ∧ y = py) && spriteBit b (px - x)

/-- A sprite with its corner at a position. -/
def spriteMask (x y : Nat) (sprite : List UInt8) (px py : Nat) : Bool :=
  decide (x ≤ px ∧ px < x + 8 ∧ y ≤ py) && (sprite[py - y]?).any (spriteBit · (px - x))

theorem draws_columns (hd : d.frame.IsBinary) (x y : Nat) (b : UInt8) (columns : Nat) :
    Draws (columnsMask x y b columns) d
      ((List.range columns).foldl (fun d column => d.plot (x + column) y (spriteBit b column))
        d) := by
  induction columns with
  | zero =>
    refine .refl hd fun px py => ?_
    have hnone : ¬ (x ≤ px ∧ px < x + 0 ∧ y = py) := by omega
    rw [columnsMask, decide_eq_false hnone, Bool.false_and]
  | succ columns ih =>
    rw [List.range_succ, List.foldl_append]
    -- the next column is a pixel that the columns before it have not reached
    refine ih.trans (draws_plot ih.binary (x + columns) y _ fun _ _ => rfl) ?_ ?_
    · intro px py hfirst
      simp only [columnsMask, Bool.and_eq_true, decide_eq_true_eq] at hfirst
      have hother : ¬ (x + columns = px ∧ y = py) := by omega
      rw [decide_eq_false hother, Bool.false_and]
    · intro px py
      by_cases hlast : x + columns = px ∧ y = py
      · obtain ⟨rfl, rfl⟩ := hlast
        simp [columnsMask]
      · have hsame : (x ≤ px ∧ px < x + (columns + 1) ∧ y = py)
            ↔ (x ≤ px ∧ px < x + columns ∧ y = py) := by omega
        rw [columnsMask, columnsMask, decide_eq_decide.2 hsame, decide_eq_false hlast,
          Bool.false_and, Bool.or_false]

/-- The loop over a sprite draws the mask of the sprite. -/
theorem draws_rows (hd : d.frame.IsBinary) (x y : Nat) (sprite : List UInt8) :
    Draws (spriteMask x y sprite) d (d.rows x y sprite) := by
  induction sprite generalizing d y with
  | nil => exact .refl hd fun px py => by simp [spriteMask]
  | cons b sprite ih =>
    have hbyte : Draws (columnsMask x y b 8) d (d.byte x y b) := draws_columns hd x y b 8
    -- the rows that follow lie below the first
    refine hbyte.trans (ih hbyte.binary (y + 1)) ?_ ?_
    · intro px py hfirst
      simp only [columnsMask, Bool.and_eq_true, decide_eq_true_eq] at hfirst
      have hbelow : ¬ (x ≤ px ∧ px < x + 8 ∧ y + 1 ≤ py) := by omega
      rw [spriteMask, decide_eq_false hbelow, Bool.false_and]
    · intro px py
      by_cases hrow : y = py
      · subst hrow
        have hbelow : ¬ (x ≤ px ∧ px < x + 8 ∧ y + 1 ≤ y) := by omega
        rw [spriteMask, spriteMask, decide_eq_false hbelow, Bool.false_and, Bool.or_false]
        simp [columnsMask]
      · by_cases hbelow : y + 1 ≤ py
        · have hindex : py - y = (py - (y + 1)) + 1 := by omega
          have habove : y ≤ py := by omega
          simp [spriteMask, columnsMask, hrow, hbelow, habove, hindex]
        · have habove : ¬ y ≤ py := by omega
          simp [spriteMask, columnsMask, hrow, hbelow, habove]

end Drawing

/-! ## The instruction -/

namespace Machine

variable {ρ : Type}

/-- The bit at a pixel of the sprite with as many rows at the index register, drawn with its corner
at a position. -/
def spriteAt (m : Machine ρ) (vx vy rows px py : Nat) : Bool :=
  decide (vx ≤ px ∧ px < vx + 8 ∧ vy ≤ py ∧ py < vy + rows) &&
    (m.memory.cells[(m.i.toNat + (py - vy)) % 4096]).toNat.testBit (7 - (px - vx))

/-- The mask of the bytes that are loaded for a sprite. -/
theorem spriteMask_load (m : Machine ρ) (vx vy rows : Nat) :
    Drawing.spriteMask vx vy (m.memory.load m.i rows) = m.spriteAt vx vy rows := by
  funext px py
  by_cases hrow : py - vy < rows
  · have hbyte : (m.memory.load m.i rows)[py - vy]?
        = some m.memory.cells[Fin.ofNat 4096 (m.i.toNat + (py - vy))] := by
      rw [Memory.load, List.getElem?_map, List.getElem?_range hrow, Option.map_some,
        Memory.read_add]
    have hsame : (vx ≤ px ∧ px < vx + 8 ∧ vy ≤ py ∧ py < vy + rows)
        ↔ (vx ≤ px ∧ px < vx + 8 ∧ vy ≤ py) := by omega
    rw [Drawing.spriteMask, spriteAt, hbyte, Option.any_some, decide_eq_decide.2 hsame]
    rfl
  · have hbelow : ¬ (vx ≤ px ∧ px < vx + 8 ∧ vy ≤ py ∧ py < vy + rows) := by omega
    have hnone : (m.memory.load m.i rows)[py - vy]? = none := by
      simpa [Memory.load] using hrow
    rw [Drawing.spriteMask, spriteAt, hnone, decide_eq_false hbelow, Bool.false_and]
    simp

/-- What is on the display lies to the left of a sprite or above it if the corner is off it. -/
theorem spriteAt_of_outside (m : Machine ρ) {vx vy rows px py : Nat}
    (hoff : ¬ Frame.onDisplay vx vy) (hon : Frame.onDisplay px py) :
    m.spriteAt vx vy rows px py = false := by
  have hbeside : ¬ (vx ≤ px ∧ px < vx + 8 ∧ vy ≤ py ∧ py < vy + rows) := by
    simp only [Frame.onDisplay, displayWidth, displayHeight] at hoff hon
    omega
  rw [spriteAt, decide_eq_false hbeside, Bool.false_and]

/-- The drawing of the instruction draws the sprite at the index register. -/
theorem draws_drawing {m : Machine ρ} (hpixels : m.frame.IsBinary) (x y n : UInt8) :
    Drawing.Draws (m.spriteAt (m.reg x).toNat (m.reg y).toNat n.toNat) ⟨m.frame, false⟩
      (m.drawing x y n) := by
  rw [← spriteMask_load]
  exact Drawing.draws_rows hpixels (m.reg x).toNat (m.reg y).toNat (m.memory.load m.i n.toNat)

/-- The second machine comes from the first by drawing the sprite with as many rows at the index
register, with its corner at a position and cut at the edges of the display. -/
structure DrewSprite (m after : Machine ρ) (vx vy rows : Nat) : Prop where
  /-- The pixels under the set bits of the sprite turn over, the others stay. -/
  pixel : ∀ px py,
    after.frame.pixel? px py = (m.frame.pixel? px py).map (· ^^ m.spriteAt vx vy rows px py)
  /-- The flag tells that a pixel went out. -/
  raised : after.reg Registers.flag = 1 ↔
    ∃ px py, m.frame.pixel? px py = some true ∧ m.spriteAt vx vy rows px py = true
  lowered : after.reg Registers.flag = 0 ↔
    ¬ ∃ px py, m.frame.pixel? px py = some true ∧ m.spriteAt vx vy rows px py = true
  /-- A sprite with its corner off the display is not seen. -/
  outside : ¬ Frame.onDisplay vx vy → after.frame = m.frame ∧ after.reg Registers.flag = 0
  register : ∀ r : Fin 16, r ≠ Registers.number Registers.flag →
    after.v.get r = m.v.get r
  memory : after.memory = m.memory
  index : after.i = m.i

/-- A machine that got its frame and its flag from the drawing of a sprite drew the sprite. -/
theorem drewSprite_of_drawing {m after : Machine ρ} (hpixels : m.frame.IsBinary) (x y n : UInt8)
    (hframe : after.frame = (m.drawing x y n).frame)
    (hv : after.v = m.v.assign Registers.flag (if (m.drawing x y n).hit then 1 else 0))
    (hmemory : after.memory = m.memory) (hindex : after.i = m.i) :
    m.DrewSprite after (m.reg x).toNat (m.reg y).toNat n.toNat := by
  have hdraws := draws_drawing hpixels x y n
  have hhit := hdraws.hit
  have hflag : after.reg Registers.flag = if (m.drawing x y n).hit then 1 else 0 := by
    rw [reg, hv, Registers.value_assign, if_pos rfl]
  simp only [Bool.false_eq_true, false_or] at hhit
  refine
    { pixel := fun px py => hframe ▸ hdraws.pixel px py
      raised := ?_
      lowered := ?_
      outside := fun hoff => ?_
      register := fun r hr => ?_
      memory := hmemory
      index := hindex }
  · rw [← hhit, hflag]
    split <;> simp_all
  · rw [← hhit, hflag]
    split <;> simp_all
  · have hsame := hdraws.eq_of_clear hpixels fun px py => m.spriteAt_of_outside hoff
    rw [hframe, hflag, hsame]
    exact ⟨rfl, rfl⟩
  · rw [hv]
    exact Registers.get_assign_ne _ _ hr

variable [Host ρ]

theorem DrewSprite.retire {m after : Machine ρ} {vx vy rows : Nat}
    (h : m.DrewSprite after vx vy rows) : m.DrewSprite after.retire vx vy rows := by
  rw [retire_frame]
  exact { h with }

/-- **A sprite is drawn as it is, cut at the edges.** Whatever happened to a machine before, the
instruction takes effect: it turns over the pixels under the set bits of the sprite, whose rows are
read from the index register on and wrap at the end of memory, drops the bits that fall off the
display, and raises the flag just if a pixel went out. The corner is where the registers say before
the flag is written. Nothing else changes in the registers, the index or memory. So it is with the
instruction alone, and with a step that fetches it. -/
theorem draws_clipped_sprite (variant : Variant) (host : ρ) (ops : List Operation)
    (x y n : UInt8) :
    let m := reached variant host ops
    (∃ after, execute (.draw x y n) m = .done after ∧
        m.DrewSprite after (m.reg x).toNat (m.reg y).toNat n.toNat) ∧
      (m.pending = none → m.fetch = .ok (.draw x y n) →
        m.step.1 = .ran ∧
          m.DrewSprite m.step.2 (m.reg x).toNat (m.reg y).toNat n.toNat) := by
  intro m
  have hpixels : m.frame.IsBinary := (wellFormed_reached variant host ops).pixels
  constructor
  · exact ⟨_, rfl, drewSprite_of_drawing hpixels x y n rfl rfl rfl rfl⟩
  · intro hpending hfetch
    obtain ⟨after, hrun, hdrew⟩ : ∃ after, m.run (.draw x y n) = .done after ∧
        m.DrewSprite after (m.reg x).toNat (m.reg y).toNat n.toNat :=
      ⟨_, rfl, drewSprite_of_drawing hpixels x y n rfl rfl rfl rfl⟩
    rw [(StepCase.executes _ after hpending hfetch hrun).step_eq]
    exact ⟨rfl, hdrew.retire⟩

/-- The corner is in the flag register. The upper row of the sprite is the last byte of memory, the
lower one the first; its right half falls off the display, its left half puts out what an earlier
drawing lit. -/
theorem draws_clipped_sprite_edge :
    let m := reached {} (SeededHost.ofSeed 7) (.load 12
        [0x6F, 0x3D, 0x61, 0x1E, 0xAF, 0xFF, 0xDF, 0x12, 0x6F, 0x3D, 0xDF, 0x12] ::
      List.replicate 5 .step)
    m.pending = none ∧ m.fetch = .ok (.draw 0xF 0x1 2) ∧ m.frame.pixel? 63 31 = some true ∧
      m.step.1 = .ran ∧ m.DrewSprite m.step.2 61 30 2 := by
  intro m
  obtain ⟨hpending, hword, hlit, hx, hy⟩ : m.pending = none ∧ m.memory.word m.pc = 0xDF12 ∧
      m.frame.pixel? 63 31 = some true ∧ (m.reg 0xF).toNat = 61 ∧ (m.reg 0x1).toNat = 30 := by
    decide +kernel
  have hfetch : m.fetch = .ok (.draw 0xF 0x1 2) := by
    rw [fetch, hword]
    rfl
  have hdrew := (draws_clipped_sprite {} (SeededHost.ofSeed 7) _ 0xF 0x1 2).2 hpending hfetch
  rw [hx, hy] at hdrew
  exact ⟨hpending, hfetch, hlit, hdrew⟩

end Machine

end Chip8
