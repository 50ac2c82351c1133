import Chip8.Proofs.Footprint
import Chip8.Proofs.Sprite

/-!
# Chip8 — sprites drawn over one another

A sprite turns over the pixels of its mask, whatever is on the display. So sprites may be drawn in
any order, and one that is drawn twice is gone again, however many others were drawn in between:
what is left of a row of drawings is told by which of them occur an odd number of times.

A drawing is asked for by a position, an index and a number of rows. In which registers the position
is and what the machine does between two drawings is left open, as long as it leaves the display and
memory alone.

Main statements:

* `even_countP` — what occurs in pairs is counted in pairs;
* `Drew.turnedOver`, `DrewAll.pixel` — what one drawing and a row of drawings do to the display;
* `drewAll_drawRequests` — the drawings of a run;
* `sprites_cancel_in_pairs` — any order, only what is odd counts, and what the flag tells when a
  sprite is drawn twice.
-/

namespace Chip8

/-! ## Pairs -/

/-- If everything in a list occurs in pairs, so does what is counted. -/
theorem even_countP {α : Type} [DecidableEq α] {l : List α} (h : ∀ a, l.count a % 2 = 0)
    (p : α → Bool) : l.countP p % 2 = 0 := by
  induction hn : l.length using Nat.strongRecOn generalizing l with
  | ind n ih =>
    cases l with
    | nil => rfl
    | cons a l =>
      -- the first element has a partner, and without both the others still occur in pairs
      have hpartner : a ∈ l := by
        have hfirst := h a
        rw [List.count_cons_self] at hfirst
        exact List.count_pos_iff.1 (by omega)
      have hperm : l.Perm (a :: l.erase a) := List.perm_cons_erase hpartner
      have hothers : ∀ b, (l.erase a).count b % 2 = 0 := by
        intro b
        have hb := h b
        rw [List.count_cons, hperm.count_eq, List.count_cons] at hb
        omega
      have hshorter : (l.erase a).length < n := by
        have hlength := hperm.length_eq
        simp only [List.length_cons] at hlength hn
        omega
      have hrest := ih _ hshorter hothers rfl
      rw [List.countP_cons, hperm.countP_eq, List.countP_cons]
      omega

/-- What is counted is even or odd as the elements of a list occur even or odd numbers of times. -/
theorem countP_parity {α : Type} [DecidableEq α] {l l' : List α}
    (h : ∀ a, l.count a % 2 = l'.count a % 2) (p : α → Bool) :
    l.countP p % 2 = l'.countP p % 2 := by
  have hpairs : ∀ a, (l ++ l').count a % 2 = 0 := by
    intro a
    have ha := h a
    rw [List.count_append]
    omega
  have heven := even_countP hpairs p
  rw [List.countP_append] at heven
  omega

/-! ## Drawings that are asked for -/

/-- A drawing is asked for by the position of its corner, where its rows are and how many. -/
structure DrawRequest where
  x : UInt8
  y : UInt8
  index : UInt16
  rows : UInt8
  deriving DecidableEq

/-- The pixels that a drawing turns over. -/
def DrawRequest.mask (r : DrawRequest) (memory : Memory) : Nat → Nat → Bool :=
  Drawing.spriteMask r.x.toNat r.y.toNat (memory.load r.index r.rows.toNat)

namespace Machine

variable {ρ : Type} [Host ρ]

/-- The second machine comes from the first by a drawing that was asked for. Before it the registers
and the index may change. -/
inductive Drew (m : Machine ρ) (r : DrawRequest) (after : Machine ρ) : Prop where
  | intro (ready : Machine ρ) (x y : UInt8) (frame : ready.frame = m.frame)
      (memory : ready.memory = m.memory) (left : ready.reg x = r.x) (top : ready.reg y = r.y)
      (index : ready.i = r.index) (obeys : ready.Obeys (.draw x y r.rows) after)

/-- The second machine comes from the first by a row of drawings. -/
inductive DrewAll : Machine ρ → List DrawRequest → Machine ρ → Prop where
  | nil {m after : Machine ρ} (frame : after.frame = m.frame) (memory : after.memory = m.memory) :
      DrewAll m [] after
  | cons {m next after : Machine ρ} {r : DrawRequest} {requests : List DrawRequest}
      (first : m.Drew r next) (rest : DrewAll next requests after) :
      DrewAll m (r :: requests) after

variable {m next after after' : Machine ρ} {r : DrawRequest} {requests requests' : List DrawRequest}

/-! ## One drawing -/

/-- The second machine comes from the first by turning over the pixels of a mask, with a flag that
tells whether one of them was lit. -/
structure TurnedOver (m : Machine ρ) (r : DrawRequest) (after : Machine ρ) : Prop where
  binary : after.frame.IsBinary
  memory : after.memory = m.memory
  pixel : ∀ px py,
    after.frame.pixel? px py = (m.frame.pixel? px py).map (· ^^ r.mask m.memory px py)
  raised : after.reg Registers.flag = 1 ↔
    ∃ px py, m.frame.pixel? px py = some true ∧ r.mask m.memory px py = true
  lowered : after.reg Registers.flag = 0 ↔
    ¬ ∃ px py, m.frame.pixel? px py = some true ∧ r.mask m.memory px py = true

/-- The instruction draws the sprite at the index register, by itself and in a step. -/
theorem does_draw (hpixels : m.frame.IsBinary) (x y n : UInt8) :
    m.Does (.draw x y n) fun after =>
      m.DrewSprite after (m.reg x).toNat (m.reg y).toNat n.toNat ∧ after.frame.IsBinary := by
  refine does_of_execute (fun pc => ⟨_, rfl, ?_, hpixels.rows _ _ _⟩) fun done hdone => ?_
  · exact drewSprite_of_drawing hpixels x y n rfl rfl rfl rfl
  · obtain ⟨hdrew, hbinary⟩ := hdone
    refine ⟨hdrew.retire, ?_⟩
    rw [retire_frame]
    exact hbinary

/-- A drawing turns over the pixels of its mask, whatever is on the display. -/
theorem Drew.turnedOver (h : m.Drew r after) (hpixels : m.frame.IsBinary) :
    m.TurnedOver r after := by
  obtain ⟨ready, x, y, hframe, hmemory, hleft, htop, hindex, hobeys⟩ := h
  obtain ⟨hdrew, hbinary⟩ := (does_draw (hframe ▸ hpixels) x y r.rows).effect after hobeys
  have hmask : ready.spriteAt (ready.reg x).toNat (ready.reg y).toNat r.rows.toNat
      = r.mask m.memory := by
    rw [← spriteMask_load, hmemory, hleft, htop, hindex]
    rfl
  obtain ⟨hpixel, hraised, hlowered, -, -, hkept, -⟩ := hdrew
  rw [hframe, hmask] at hpixel hraised hlowered
  exact ⟨hbinary, hkept.trans hmemory, hpixel, hraised, hlowered⟩

/-- What is asked for can be drawn. -/
theorem exists_drew (m : Machine ρ) (r : DrawRequest) : ∃ after, m.Drew r after := by
  let ready : Machine ρ := { m with v := (m.v.assign 0 r.x).assign 1 r.y, i := r.index }
  have hleft : ready.reg 0 = r.x := by
    have hother : (Registers.number 1 : Fin 16) ≠ Registers.number 0 := by decide
    show ((m.v.assign 0 r.x).assign 1 r.y).value 0 = r.x
    rw [Registers.value_assign, if_neg hother, Registers.value_assign, if_pos rfl]
  have htop : ready.reg 1 = r.y := by
    show ((m.v.assign 0 r.x).assign 1 r.y).value 1 = r.y
    rw [Registers.value_assign, if_pos rfl]
  exact ⟨_, ready, 0, 1, rfl, rfl, hleft, htop, rfl, .alone rfl⟩

/-- A drawing starts from what is on the display and in memory. -/
theorem Drew.of_same (h : next.Drew r after) (hframe : next.frame = m.frame)
    (hmemory : next.memory = m.memory) : m.Drew r after := by
  obtain ⟨ready, x, y, frame, memory, hleft, htop, hindex, hobeys⟩ := h
  exact ⟨ready, x, y, frame.trans hframe, memory.trans hmemory, hleft, htop, hindex, hobeys⟩

/-! ## Rows of drawings -/

theorem DrewAll.of_same (h : next.DrewAll requests after) (hframe : next.frame = m.frame)
    (hmemory : next.memory = m.memory) : m.DrewAll requests after := by
  cases h with
  | nil frame memory => exact .nil (frame.trans hframe) (memory.trans hmemory)
  | cons first rest => exact .cons (first.of_same hframe hmemory) rest

theorem exists_drewAll (m : Machine ρ) (requests : List DrawRequest) :
    ∃ after, m.DrewAll requests after := by
  induction requests generalizing m with
  | nil => exact ⟨m, .nil rfl rfl⟩
  | cons r requests ih =>
    obtain ⟨next, hfirst⟩ := m.exists_drew r
    obtain ⟨after, hrest⟩ := ih next
    exact ⟨after, .cons hfirst hrest⟩

/-- A row of drawings turns over the pixels that lie in an odd number of their masks. -/
theorem DrewAll.pixel (h : m.DrewAll requests after) (hpixels : m.frame.IsBinary) :
    after.frame.IsBinary ∧ ∀ px py, after.frame.pixel? px py
      = (m.frame.pixel? px py).map
          (· ^^ decide (requests.countP (·.mask m.memory px py) % 2 = 1)) := by
  induction h with
  | nil frame memory =>
    rw [frame]
    exact ⟨hpixels, fun px py => by simp⟩
  | @cons m next after r requests first rest ih =>
    have hfirst := first.turnedOver hpixels
    obtain ⟨hbinary, hafter⟩ := ih hfirst.binary
    refine ⟨hbinary, fun px py => ?_⟩
    -- one mask more or less turns odd into even
    have hparity : ∀ (n : Nat) (lit bit : Bool), ((lit ^^ bit) ^^ decide (n % 2 = 1))
        = (lit ^^ decide ((n + if bit then 1 else 0) % 2 = 1)) := by
      intro n lit bit
      rcases Nat.mod_two_eq_zero_or_one n with hn | hn <;> cases bit <;> simp [Nat.add_mod, hn]
    rw [hafter, hfirst.pixel, hfirst.memory, Option.map_map, List.countP_cons]
    congr 1
    funext lit
    exact hparity _ lit _

/-- Two rows of drawings leave the same on the display if they agree on which occur an odd number of
times. -/
theorem DrewAll.frame_eq (h : m.DrewAll requests after) (h' : m.DrewAll requests' after')
    (hpixels : m.frame.IsBinary)
    (hparity : ∀ r, requests'.count r % 2 = requests.count r % 2) : after'.frame = after.frame := by
  obtain ⟨hbinary, hpixel⟩ := h.pixel hpixels
  obtain ⟨hbinary', hpixel'⟩ := h'.pixel hpixels
  refine hbinary'.ext hbinary fun px py => ?_
  rw [hpixel, hpixel', countP_parity hparity]

/-- A sprite that is drawn twice is gone again, and the second time the flag tells whether it was
drawn on a dark pixel. -/
theorem Drew.twice (hfirst : m.Drew r next) (hsecond : next.Drew r after)
    (hpixels : m.frame.IsBinary) :
    after.frame = m.frame ∧
      (after.reg Registers.flag = 1 ↔
        ∃ px py, m.frame.pixel? px py = some false ∧ r.mask m.memory px py = true) ∧
      (after.reg Registers.flag = 0 ↔
        ¬ ∃ px py, m.frame.pixel? px py = some false ∧ r.mask m.memory px py = true) := by
  have hboth : m.DrewAll [r, r] after := .cons hfirst (.cons hsecond (.nil rfl rfl))
  have hnone : m.DrewAll [] m := .nil rfl rfl
  have hlights := hfirst.turnedOver hpixels
  have hagain := hsecond.turnedOver hlights.binary
  -- the second drawing puts out what the first lit
  have hlit : (∃ px py, next.frame.pixel? px py = some true ∧ r.mask next.memory px py = true) ↔
      ∃ px py, m.frame.pixel? px py = some false ∧ r.mask m.memory px py = true := by
    rw [hlights.memory]
    refine exists_congr fun px => exists_congr fun py => and_congr_left fun hmask => ?_
    rw [hlights.pixel, hmask]
    cases m.frame.pixel? px py <;> simp
  refine ⟨hnone.frame_eq hboth hpixels fun other => ?_, hagain.raised.trans hlit,
    hagain.lowered.trans (not_congr hlit)⟩
  rw [List.count_cons, List.count_cons, List.count_nil]
  omega

/-! ## The drawings of a run -/

/-- The drawing that a move asks for, if it executes the instruction that draws. -/
def drawRequest? (m : Machine ρ) (move : Move) : Option DrawRequest :=
  match m.executed? move with
  | some (.draw x y n) => some ⟨m.reg x, m.reg y, m.i, n⟩
  | _ => none

/-- The drawings that the moves of a row ask for, one after another. -/
def drawRequests (m : Machine ρ) (moves : List Move) : List DrawRequest :=
  (m.along moves).filterMap fun c => c.1.drawRequest? c.2

/-- Nothing but drawings reaches the display in a row of moves, and nothing reaches memory. -/
def OnlyDraws (m : Machine ρ) (moves : List Move) : Prop :=
  ∀ c ∈ m.along moves, c.1.executed? c.2 ≠ some .clear ∧ (c.1.make c.2).memory = c.1.memory

/-- A move that asks for a drawing draws. -/
theorem drew_of_drawRequest? {move : Move} (h : m.drawRequest? move = some r) :
    m.Drew r (m.make move) := by
  unfold drawRequest? at h
  split at h
  · rename_i x y n hexec
    cases h
    cases move with
    | step => exact ⟨m, x, y, rfl, rfl, rfl, rfl, rfl, obeys_of_executed? hexec⟩
    | _ => cases hexec
  · cases h

/-- A move that neither asks for a drawing nor clears the display leaves it alone. -/
theorem frame_make {move : Move} (hdraw : m.drawRequest? move = none)
    (hclear : m.executed? move ≠ some .clear) : (m.make move).frame = m.frame := by
  cases move with
  | load size data => exact (congrArg Machine.frame (m.tryLoad_frame size data) :)
  | step =>
    refine (step_kept fun instr hexec => ?_ : Part.frame.Kept m m.step.2)
    rw [drawRequest?, hexec] at hdraw
    cases instr with
    | clear => exact absurd hexec hclear
    | draw => cases hdraw
    | _ => simp [Instruction.footprint]
  | key change => exact (congrArg Machine.frame (m.applyChange_frame change) :)
  | tick => rfl

/-- A row of moves in which nothing else reaches the display draws what its moves ask for. -/
theorem drewAll_drawRequests {moves : List Move} (h : m.OnlyDraws moves) :
    m.DrewAll (m.drawRequests moves) (m.makeAll moves) := by
  induction moves generalizing m with
  | nil => exact .nil rfl rfl
  | cons move moves ih =>
    obtain ⟨⟨hclear, hmemory⟩, hmoves⟩ := List.forall_mem_cons.1 h
    have hrest := ih hmoves
    cases hdraw : m.drawRequest? move with
    | none =>
      have hsame : m.drawRequests (move :: moves) = (m.make move).drawRequests moves :=
        List.filterMap_cons_none hdraw
      rw [hsame]
      exact hrest.of_same (frame_make hdraw hclear) hmemory
    | some r =>
      have hnext : m.drawRequests (move :: moves) = r :: (m.make move).drawRequests moves :=
        List.filterMap_cons_some hdraw
      rw [hnext]
      exact .cons (drew_of_drawRequest? hdraw) hrest

/-- **Sprites cancel in pairs.** Whatever happened to a machine before, any row of drawings can be
drawn, in any order with the same display in the end. What is on the display then depends on each of
them only by whether it occurs an odd number of times. One that is drawn twice leaves no pixel
changed, and the second time the flag is raised just if the sprite has a set bit at a pixel of the
display that was dark before the first, and lowered otherwise. A run in which nothing but drawings
reaches the display, and nothing memory, draws such a row. -/
theorem sprites_cancel_in_pairs (variant : Variant) (host : ρ) (ops : List Operation) :
    let m := reached variant host ops
    (∀ requests, ∃ after, m.DrewAll requests after) ∧
    (∀ requests requests' after after', requests'.Perm requests →
      m.DrewAll requests after → m.DrewAll requests' after' → after'.frame = after.frame) ∧
    (∀ requests requests' after after', (∀ r, requests'.count r % 2 = requests.count r % 2) →
      m.DrewAll requests after → m.DrewAll requests' after' → after'.frame = after.frame) ∧
    (∀ r first second, m.Drew r first → first.Drew r second →
      second.frame = m.frame ∧
        (second.reg Registers.flag = 1 ↔
          ∃ px py, m.frame.pixel? px py = some false ∧ r.mask m.memory px py = true) ∧
        (second.reg Registers.flag = 0 ↔
          ¬ ∃ px py, m.frame.pixel? px py = some false ∧ r.mask m.memory px py = true)) ∧
    ∀ moves, m.OnlyDraws moves → m.DrewAll (m.drawRequests moves) (m.makeAll moves) := by
  intro m
  have hpixels : m.frame.IsBinary := (wellFormed_reached variant host ops).pixels
  refine ⟨m.exists_drewAll, ?_, ?_, ?_, fun moves => drewAll_drawRequests⟩
  · intro requests requests' after after' hperm h h'
    exact h.frame_eq h' hpixels fun r => congrArg (· % 2) (hperm.count_eq r)
  · intro requests requests' after after' hparity h h'
    exact h.frame_eq h' hpixels hparity
  · intro r first second hfirst hsecond
    exact hfirst.twice hsecond hpixels

/-- Two glyphs lie over one another at the right edge, each of them drawn twice in turn. In the end
the display is dark as before, while it was not on the way. -/
theorem sprites_cancel_in_pairs_edge :
    let m := reached {} (SeededHost.ofSeed 7)
      [.load 16 [0x60, 0x3E, 0xD0, 0x15, 0xA0, 0x05, 0xD0, 0x15, 0xA0, 0x00, 0xD0, 0x15,
        0xA0, 0x05, 0xD0, 0x15], .step]
    let zero : DrawRequest := ⟨62, 0, 0, 5⟩
    let one : DrawRequest := ⟨62, 0, 5, 5⟩
    let run : List Move := List.replicate 7 .step
    m.OnlyDraws run ∧ m.drawRequests run = [zero, one, zero, one] ∧
      (m.makeAll (run.take 3)).frame.pixel? 62 0 = some true ∧ (m.makeAll run).frame = m.frame ∧
      (∃ first second, m.Drew zero first ∧ first.Drew zero second ∧ second.frame = m.frame ∧
        second.reg Registers.flag = 1) ∧
      ∃ after after', m.DrewAll [zero, one] after ∧ m.DrewAll [one, zero] after' ∧
        after'.frame = after.frame := by
  intro m zero one run
  obtain ⟨hinstr, hrequests, hlit⟩ :
      (∀ c ∈ m.along run, c.2 = .step ∧ c.1.executed? c.2 ≠ some .clear ∧
        ∀ instr ∈ c.1.executed? c.2, Part.memory ∉ instr.footprint) ∧
      m.drawRequests run = [zero, one, zero, one] ∧
      (m.makeAll (run.take 3)).frame.pixel? 62 0 = some true := by decide +kernel
  have honly : m.OnlyDraws run := by
    rintro ⟨m', move⟩ hmove
    obtain ⟨rfl, hclear, hstores⟩ := hinstr _ hmove
    exact ⟨hclear, (step_kept hstores : Part.memory.Kept m' m'.step.2)⟩
  have hdark : ∃ px py, m.frame.pixel? px py = some false ∧ zero.mask m.memory px py = true :=
    ⟨62, 0, by decide +kernel⟩
  have hpairs : ∀ r, [zero, one, zero, one].count r % 2 = [].count r % 2 := by
    intro r
    simp only [List.count_cons, List.count_nil]
    omega
  obtain ⟨hall, hperm, hparity, htwice, hruns⟩ :=
    sprites_cancel_in_pairs {} (SeededHost.ofSeed 7) _
  have hdrawn := hruns run honly
  rw [hrequests] at hdrawn
  obtain ⟨first, hfirst⟩ := m.exists_drew zero
  obtain ⟨second, hsecond⟩ := first.exists_drew zero
  obtain ⟨hsame, hraised, -⟩ := htwice zero first second hfirst hsecond
  obtain ⟨after, hafter⟩ := hall [zero, one]
  obtain ⟨after', hafter'⟩ := hall [one, zero]
  exact ⟨honly, hrequests, hlit, hparity _ _ _ _ hpairs (.nil rfl rfl) hdrawn,
    ⟨first, second, hfirst, hsecond, hsame, hraised.2 hdark⟩,
    after, after', hafter, hafter', hperm _ _ _ _ (.swap ..) hafter hafter'⟩

end Machine

end Chip8
