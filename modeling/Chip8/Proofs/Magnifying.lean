import Chip8.Frame.Picture
import Chip8.Proofs.Rows
import Chip8.Proofs.Sprite

/-!
# Chip8 — what a picture shows of a frame

At some scale every pixel of a row and every row is repeated that often, so what stands in a column
and a line of a magnified frame is the pixel whose column and row are theirs divided by the scale.
A picture writes a magnified frame out, line by line. Nothing of the frame is lost in it: the first
column and line of each pixel show the pixel.

Main statements:

* `getElem?_repeatEach` — what repeating puts where;
* `Frame.getElem?_magnified` — the cells of a magnified frame;
* `Frame.ShownBy.eq` — no two frames are shown by the same lines;
* `Frame.picture_shows_magnified` — magnified frames and pictures at every scale.
-/

namespace Chip8

/-! ## Repeating -/

variable {α β : Type}

theorem length_repeatEach (scale : Nat) (xs : List α) :
    (repeatEach scale xs).length = scale * xs.length :=
  length_flatMap_of_length fun _ _ => List.length_replicate

/-- Where every element stands a number of times, a place holds the element of the place divided by
that number. -/
theorem getElem?_repeatEach {scale : Nat} (hscale : 0 < scale) (xs : List α) (k : Nat) :
    (repeatEach scale xs)[k]? = xs[k / scale]? := by
  have hplace : k % scale < scale := Nat.mod_lt k hscale
  have hcopies : ∀ x : α, (List.replicate scale x)[k % scale]? = some x := by
    intro x
    rw [List.getElem?_replicate, if_pos hplace]
  calc (repeatEach scale xs)[k]? = (repeatEach scale xs)[scale * (k / scale) + k % scale]? := by
        rw [Nat.div_add_mod]
    _ = xs[k / scale]?.bind fun x => (List.replicate scale x)[k % scale]? :=
        getElem?_flatMap_of_length (fun _ _ => List.length_replicate) _ hplace
    _ = xs[k / scale]? := by simp only [hcopies, Option.bind_fun_some]

theorem map_repeatEach (g : α → β) (scale : Nat) (xs : List α) :
    (repeatEach scale xs).map g = repeatEach scale (xs.map g) := by
  simp only [repeatEach, List.map_flatMap, List.flatMap_map, List.map_replicate]

theorem repeatEach_one (xs : List α) : repeatEach 1 xs = xs :=
  List.flatMap_singleton' xs

theorem mem_of_mem_repeatEach {scale : Nat} {x : α} {xs : List α} (h : x ∈ repeatEach scale xs) :
    x ∈ xs := by
  obtain ⟨y, hy, hx⟩ := List.mem_flatMap.1 h
  rwa [List.eq_of_mem_replicate hx]

namespace Frame

/-! ## Magnified frames -/

theorem length_magnified (f : Frame) (scale : Nat) : (f.magnified scale).length = 32 * scale := by
  rw [magnified, length_repeatEach, List.length_map, rows, List.length_map, List.length_range,
    Nat.mul_comm]
  rfl

theorem length_of_mem_magnified {f : Frame} {scale : Nat} {cells : List Bool}
    (h : cells ∈ f.magnified scale) : cells.length = 64 * scale := by
  obtain ⟨row, hrow, rfl⟩ := List.mem_map.1 (mem_of_mem_repeatEach h)
  obtain ⟨y, hy, rfl⟩ := List.mem_map.1 hrow
  rw [length_repeatEach, f.length_row (List.mem_range.1 hy), Nat.mul_comm]

/-- A cell of a magnified frame is the pixel whose column and row are those of the cell divided by
the scale. -/
theorem getElem?_magnified (f : Frame) {scale : Nat} (hscale : 0 < scale) (column line : Nat) :
    (f.magnified scale)[line]?.bind (·[column]?) = f.pixel? (column / scale) (line / scale) := by
  rw [magnified, getElem?_repeatEach hscale, List.getElem?_map, Option.bind_map,
    ← f.getElem?_rows]
  congr 1
  funext row
  exact getElem?_repeatEach hscale row column

/-! ## Pictures -/

/-- The lines show a frame at a scale. -/
structure ShownBy (f : Frame) (scale : Nat) (lines : List (List Char)) : Prop where
  height : lines.length = 32 * scale
  width : ∀ line ∈ lines, line.length = 64 * scale
  mark : ∀ column < 64 * scale, ∀ line < 32 * scale, lines[line]?.bind (·[column]?)
    = some (if f.pixel? (column / scale) (line / scale) = some true then '#' else '.')

theorem exists_pixel? (f : Frame) {x y : Nat} (h : onDisplay x y) : ∃ on, f.pixel? x y = some on :=
  ⟨_, dif_pos h⟩

/-- No two frames of zeros and ones are shown by the same lines. -/
theorem ShownBy.eq {f g : Frame} {scale : Nat} {lines : List (List Char)} (hscale : 0 < scale)
    (hf : f.IsBinary) (hg : g.IsBinary) (h : f.ShownBy scale lines) (h' : g.ShownBy scale lines) :
    f = g := by
  refine hf.ext hg fun x y => ?_
  by_cases hdisplay : onDisplay x y
  · -- the first column and line that show the pixel
    have hcolumn : scale * x < 64 * scale := by
      rw [Nat.mul_comm]
      exact Nat.mul_lt_mul_of_pos_right hdisplay.1 hscale
    have hline : scale * y < 32 * scale := by
      rw [Nat.mul_comm]
      exact Nat.mul_lt_mul_of_pos_right hdisplay.2 hscale
    have hmark := (h.mark _ hcolumn _ hline).symm.trans (h'.mark _ hcolumn _ hline)
    rw [Nat.mul_div_cancel_left x hscale, Nat.mul_div_cancel_left y hscale] at hmark
    obtain ⟨on, hon⟩ := f.exists_pixel? hdisplay
    obtain ⟨on', hon'⟩ := g.exists_pixel? hdisplay
    rw [hon, hon'] at hmark ⊢
    cases on <;> cases on' <;> simp_all
  · rw [pixel?, pixel?, dif_neg hdisplay, dif_neg hdisplay]

theorem toList_picture (f : Frame) (scale : Nat) :
    (f.picture scale).toList = (f.lines scale).flatMap (· ++ ['\n']) :=
  String.toList_ofList

/-- The lines of a picture are those at scale one, with every character and every line repeated. -/
theorem lines_eq_repeatEach (f : Frame) (scale : Nat) :
    f.lines scale = repeatEach (max scale 1) ((f.lines 1).map (repeatEach (max scale 1))) := by
  have hone : f.lines 1 = f.rows.map (List.map dot) := by
    have hid : repeatEach (α := Bool) 1 = id := funext repeatEach_one
    rw [lines, magnified, Nat.max_self, hid, List.map_id, repeatEach_one]
  rw [hone, lines, magnified, map_repeatEach, List.map_map, List.map_map]
  simp only [Function.comp_def, map_repeatEach]

/-- The lines of a picture show the frame at the scale, where no scale counts as one. -/
theorem shownBy_lines (f : Frame) (scale : Nat) : f.ShownBy (max scale 1) (f.lines scale) := by
  have hscale : 0 < max scale 1 := Nat.lt_of_lt_of_le Nat.zero_lt_one (Nat.le_max_right ..)
  refine ⟨?_, fun line hline => ?_, fun column hcolumn line hline => ?_⟩
  · rw [lines, List.length_map, length_magnified]
  · obtain ⟨cells, hcells, rfl⟩ := List.mem_map.1 hline
    rw [List.length_map, length_of_mem_magnified hcells]
  · have hdisplay : onDisplay (column / max scale 1) (line / max scale 1) :=
      ⟨Nat.div_lt_of_lt_mul (by rwa [Nat.mul_comm]), Nat.div_lt_of_lt_mul (by rwa [Nat.mul_comm])⟩
    obtain ⟨on, hon⟩ := f.exists_pixel? hdisplay
    calc (f.lines scale)[line]?.bind (·[column]?)
        = ((f.magnified (max scale 1))[line]?.bind (·[column]?)).map dot := by
          rw [lines, List.getElem?_map, Option.bind_map, Option.map_bind]
          simp only [Function.comp_def, List.getElem?_map]
      _ = some (dot on) := by rw [f.getElem?_magnified hscale, hon, Option.map_some]
      _ = _ := by
          rw [hon]
          cases on <;> rfl

/-- The lines of a picture can be told from the picture. -/
theorem lines_eq_of_picture_eq {f g : Frame} {scale : Nat} (h : f.picture scale = g.picture scale) :
    f.lines scale = g.lines scale := by
  have hf := f.shownBy_lines scale
  have hg := g.shownBy_lines scale
  have hbroken : ∀ {lines : List (List Char)}, (∀ line ∈ lines, line.length = 64 * max scale 1) →
      ∀ line ∈ lines, (line ++ ['\n']).length = 64 * max scale 1 + 1 := by
    intro lines hwidth line hline
    rw [List.length_append, hwidth line hline]
    rfl
  have htext : (f.lines scale).flatMap (· ++ ['\n']) = (g.lines scale).flatMap (· ++ ['\n']) := by
    rw [← toList_picture, h, toList_picture]
  have hlines := map_eq_of_flatMap_eq (hbroken hf.width) (hbroken hg.width)
    (hf.height.trans hg.height.symm) htext
  exact (List.map_inj_right fun _ _ => List.append_cancel_right).1 hlines

/-- **A picture shows its frame magnified.** A magnified frame has as many rows and cells in each as
the display has, times the scale, and a cell is the pixel in its column and row divided by the
scale; at no scale it is empty. A picture, for which no scale counts as one, is lines with a break
behind each: as many lines and characters in each as the display has, times the scale, with a `#`
where the pixel is on and a `.` elsewhere. Its lines are those of the picture at scale one with
every character and every line repeated, and a frame of zeros and ones is told by its picture at any
scale. -/
theorem picture_shows_magnified (f : Frame) (scale : Nat) :
    ((f.magnified scale).length = 32 * scale ∧
      (∀ cells ∈ f.magnified scale, cells.length = 64 * scale) ∧
      (0 < scale → ∀ column line, (f.magnified scale)[line]?.bind (·[column]?)
        = f.pixel? (column / scale) (line / scale))) ∧
    ((f.picture scale).toList = (f.lines scale).flatMap (· ++ ['\n']) ∧
      f.ShownBy (max scale 1) (f.lines scale)) ∧
    f.lines scale
      = repeatEach (max scale 1) ((f.lines 1).map (repeatEach (max scale 1))) ∧
    ∀ g : Frame, f.IsBinary → g.IsBinary → f.picture scale = g.picture scale → f = g := by
  refine ⟨⟨f.length_magnified scale, fun cells => length_of_mem_magnified, f.getElem?_magnified⟩,
    ⟨f.toList_picture scale, f.shownBy_lines scale⟩, f.lines_eq_repeatEach scale, ?_⟩
  intro g hf hg h
  have hother := g.shownBy_lines scale
  rw [← lines_eq_of_picture_eq h] at hother
  exact (f.shownBy_lines scale).eq (by omega) hf hg hother

/-- The second pixel of the first row at scale two: it is in the third and fourth column of the
first two rows, and no other frame has its picture. -/
theorem picture_shows_magnified_twice :
    let f := dark.flip 1 0 true
    0 < 2 ∧ (f.magnified 2)[1]?.bind (·[3]?) = some true ∧
      (f.lines 2)[1]?.bind (·[3]?) = some '#' ∧ (f.lines 2)[1]?.bind (·[4]?) = some '.' ∧
      f.IsBinary ∧ dark.IsBinary ∧ f.picture 2 ≠ dark.picture 2 := by
  intro f
  have hf : f.IsBinary := isBinary_dark.flip 1 0 true
  have hdark : ∀ x < 64, dark.pixel? x 0 = some false := by
    intro x hx
    rw [pixel?, dif_pos ⟨hx, by decide⟩]
    simp [dark]
  have hon : f.pixel? 1 0 = some true := by
    rw [isBinary_dark.pixel?_flip, hdark 1 (by decide)]
    rfl
  have hoff : f.pixel? 2 0 = some false := by
    rw [isBinary_dark.pixel?_flip, hdark 2 (by decide)]
    rfl
  obtain ⟨⟨-, -, hcells⟩, ⟨-, hshown⟩, -, htold⟩ := picture_shows_magnified f 2
  have hmark := hshown.mark 3 (by decide) 1 (by decide)
  have hmark' := hshown.mark 4 (by decide) 1 (by decide)
  refine ⟨by decide, (hcells (by decide) 3 1).trans hon, ?_, ?_, hf, isBinary_dark, fun h => ?_⟩
  · rw [hmark, show f.pixel? (3 / max 2 1) (1 / max 2 1) = some true from hon]
    rfl
  · rw [hmark', show f.pixel? (4 / max 2 1) (1 / max 2 1) = some false from hoff]
    rfl
  · rw [htold dark hf isBinary_dark h, hdark 1 (by decide)] at hon
    cases hon

end Frame

end Chip8
