import Chip8.Rom

/-!
# Chip8 — programs in memory

A program is put into memory byte by byte, from its origin on. Memory with a program is the font,
zeros up to the origin, the program, and zeros up to the end.

An image that is read from a source holds the first bytes of the source, wherever they are cut into
chunks. Whoever loads a program image loads no more bytes than the image declares, since every image
comes from its own bytes or from a source that is read up to its declared size.

Main statements:

* `Memory.getElem_place` — which byte lies in a cell after bytes were put side by side;
* `Memory.toList_loadProgram` — the whole memory with a program;
* `Memory.getElem?_loadProgram_inside`, `Memory.getElem?_loadProgram_outside` — the cells that a
  program takes, and the others;
* `Memory.read_loadProgram` — a program is read back byte by byte;
* `Rom.read?_eq` — whether a source yields an image, and which;
* `Rom.IsMade.length_data_le` — an image holds no more than it declares.
-/

namespace Chip8

/-! ## Cells -/

namespace Memory

theorem getElem_place (cells : Vector UInt8 4096) (start : Nat) (bytes : List UInt8) {k : Nat}
    (hk : k < 4096) :
    (place cells start bytes)[k]
      = if start ≤ k then bytes[k - start]?.getD cells[k] else cells[k] := by
  induction bytes generalizing cells start with
  | nil => simp [place]
  | cons b bs ih =>
    rw [place, ih, Vector.getElem_setIfInBounds]
    -- the first byte lies in the first cell, the others in the cells behind it
    rcases Nat.lt_trichotomy start k with hlt | rfl | hgt
    · have hpred : k - start = k - (start + 1) + 1 := by omega
      rw [if_pos (Nat.succ_le_of_lt hlt), if_pos (Nat.le_of_lt hlt), if_neg (Nat.ne_of_lt hlt),
        hpred, List.getElem?_cons_succ]
    · rw [if_neg (Nat.not_succ_le_self start), if_pos rfl, if_pos (Nat.le_refl start),
        Nat.sub_self, List.getElem?_cons_zero, Option.getD_some]
    · rw [if_neg (by omega), if_neg (Nat.not_le.2 hgt), if_neg (Nat.ne_of_gt hgt)]

/-- The bytes of memory when only a program was put there. -/
def image (program : List UInt8) : List UInt8 :=
  font ++ List.replicate (programOrigin.toNat - font.length) 0 ++ program
    ++ List.replicate (programSpace - program.length) 0

theorem toList_loadProgram {program : List UInt8} (h : program.length ≤ programSpace) :
    (initial.loadProgram program).cells.toList = image program := by
  have hfont : font.length = 80 := rfl
  have horigin : programOrigin.toNat = 512 := rfl
  have hspace : programSpace = 3584 := rfl
  rw [hspace] at h
  refine List.ext_getElem ?_ ?_
  · simp only [image, Vector.length_toList, List.length_append, List.length_replicate]
    omega
  · intro k hk hk'
    rw [Vector.length_toList] at hk
    rw [Vector.getElem_toList]
    simp only [loadProgram, initial, getElem_place, Vector.getElem_replicate, image,
      List.getElem_append, List.length_append, List.length_replicate, List.getElem_replicate,
      horigin, hfont, hspace]
    rcases Nat.lt_or_ge k 512 with hlow | hhigh
    · -- below the origin there is the font and, behind it, nothing
      grind
    · -- from the origin on the font has no byte any more
      have hbehind : font[k]? = none := List.getElem?_eq_none (by omega)
      grind

theorem getElem?_loadProgram_inside (m : Memory) {program : List UInt8}
    (hfits : program.length ≤ programSpace) {i : Nat} (hi : i < program.length) :
    (m.loadProgram program).cells[programOrigin.toNat + i]? = program[i]? := by
  have hcell : programOrigin.toNat + i < 4096 :=
    Nat.add_lt_of_lt_sub' (Nat.lt_of_lt_of_le hi hfits)
  rw [Vector.getElem?_eq_getElem hcell, loadProgram, getElem_place _ _ _ hcell,
    if_pos (Nat.le_add_right ..), Nat.add_sub_cancel_left, List.getElem?_eq_getElem hi,
    Option.getD_some]

theorem getElem?_loadProgram_outside (m : Memory) {program : List UInt8} {k : Nat}
    (hk : k < programOrigin.toNat ∨ programOrigin.toNat + program.length ≤ k) :
    (m.loadProgram program).cells[k]? = m.cells[k]? := by
  rcases Nat.lt_or_ge k 4096 with hcell | hbeyond
  · rw [Vector.getElem?_eq_getElem hcell, Vector.getElem?_eq_getElem hcell, loadProgram,
      getElem_place _ _ _ hcell]
    rcases hk with hbelow | hbehind
    · rw [if_neg (Nat.not_le.2 hbelow)]
    · rw [if_pos (Nat.le_of_add_right_le hbehind),
        List.getElem?_eq_none (Nat.le_sub_of_add_le' hbehind), Option.getD_none]
  · rw [Vector.getElem?_eq_none hbeyond, Vector.getElem?_eq_none hbeyond]

theorem read_loadProgram (m : Memory) {program : List UInt8} (hfits : program.length ≤ programSpace)
    {k : Nat} {b : UInt8} (hb : program[k]? = some b) :
    (m.loadProgram program).read (UInt16.ofNat (programOrigin.toNat + k)) = b := by
  have horigin : programOrigin.toNat = 512 := rfl
  have hspace : programSpace = 3584 := rfl
  obtain ⟨hk, -⟩ := List.getElem?_eq_some_iff.1 hb
  have hcell : (cell (UInt16.ofNat (programOrigin.toNat + k))).val = programOrigin.toNat + k := by
    simp only [cell, Fin.val_ofNat, UInt16.toNat_ofNat']
    omega
  have hinside := m.getElem?_loadProgram_inside hfits hk
  rw [hb, ← hcell] at hinside
  exact (Vector.getElem?_eq_some_iff.1 hinside).2

end Memory

/-! ## Images -/

namespace ByteSource

/-- All bytes of the source, side by side. -/
def bytes (source : ByteSource) : List UInt8 :=
  source.chunks.flatten

/-- How the bytes are cut into chunks does not matter; a source that breaks is noticed just if it
has fewer bytes than are wanted. -/
theorem readChunks?_eq (breaks : Bool) (limit : Nat) (chunks : List (List UInt8)) :
    readChunks? breaks limit chunks
      = if breaks = true ∧ chunks.flatten.length < limit then none
        else some (chunks.flatten.take limit) := by
  induction chunks generalizing limit with
  | nil =>
    rw [readChunks?, List.flatten_nil, List.take_nil, List.length_nil]
    cases breaks with
    | false => simp
    | true => simp [Nat.pos_iff_ne_zero]
  | cons chunk chunks ih =>
    rw [readChunks?, List.flatten_cons, List.length_append, List.take_append]
    by_cases hlimit : limit = 0
    · simp [hlimit]
    · -- the rest of the source is asked for what the chunk leaves open
      have hrest : chunks.flatten.length < limit - chunk.length
          ↔ chunk.length + chunks.flatten.length < limit := by omega
      rw [if_neg hlimit, ih]
      simp only [hrest]
      split
      · rfl
      · rfl

theorem read?_eq (source : ByteSource) (limit : Nat) :
    source.read? limit
      = if source.breaks = true ∧ source.bytes.length < limit then none
        else some (source.bytes.take limit) :=
  readChunks?_eq source.breaks limit source.chunks

end ByteSource

namespace Rom

/-- An image holds the first bytes of its source, as many as it declares, as fit and as are
there. -/
theorem read?_eq (name : String) (size : Nat) (source : ByteSource) :
    read? name size source
      = if source.breaks = true ∧ source.bytes.length < min size programSpace then none
        else some ⟨name, size,
          source.bytes.take (min size (min programSpace source.bytes.length))⟩ := by
  have htake : source.bytes.take (min size (min programSpace source.bytes.length))
      = source.bytes.take (min size programSpace) := by
    rw [← Nat.min_assoc, ← List.take_take, List.take_length]
  rw [read?, ByteSource.read?_eq, htake]
  split
  · rfl
  · rfl

theorem eq_of_read? {name : String} {size : Nat} {source : ByteSource} {rom : Rom}
    (h : read? name size source = some rom) :
    rom = ⟨name, size,
      source.bytes.take (min size (min programSpace source.bytes.length))⟩ := by
  rw [read?_eq] at h
  obtain ⟨-, hrom⟩ := Option.ite_none_left_eq_some.1 h
  exact (Option.some.inj hrom).symm

/-- The image was made of bytes, or it was read from a source with a declared size. -/
inductive IsMade : Rom → Prop
  | ofBytes (name : String) (data : List UInt8) : IsMade (ofBytes name data)
  | read {name : String} {size : Nat} {source : ByteSource} {rom : Rom}
      (read : read? name size source = some rom) : IsMade rom

theorem IsMade.length_data_le {rom : Rom} (h : rom.IsMade) : rom.data.length ≤ rom.size := by
  cases h with
  | ofBytes name data => exact Nat.le_refl _
  | read read =>
    rw [eq_of_read? read]
    exact Nat.le_trans (List.length_take_le ..) (Nat.min_le_left ..)

end Rom

end Chip8
