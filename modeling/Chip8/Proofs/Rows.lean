import Chip8.Frame

/-!
# Chip8 — rows laid end to end

A display is rows of pixels of equal length, kept one behind the other; so are the bytes of a bitmap
and the lines of a picture. Where rows are equally long, what stands at some place of a row is found
at that place behind as many whole rows as come before it.

Main statements:

* `getElem?_flatMap_of_length` — where what belongs to an element is found in the whole;
* `map_eq_of_flatMap_eq` — no other rows of that length make the same whole;
* `Frame.getElem?_rows` — the rows of a frame hold its pixels.
-/

namespace Chip8

variable {α β : Type} {f : α → List β} {l : List α} {width : Nat}

/-- Rows of equal length have as many elements as rows times the length. -/
theorem length_flatMap_of_length (h : ∀ a ∈ l, (f a).length = width) :
    (l.flatMap f).length = width * l.length := by
  induction l with
  | nil => rfl
  | cons a l ih =>
    have hrest := ih fun a' ha' => h a' (List.mem_cons_of_mem a ha')
    rw [List.flatMap_cons, List.length_append, h a (List.mem_cons_self ..), hrest,
      List.length_cons, Nat.mul_succ, Nat.add_comm]

/-- An element is found behind the rows before its own. -/
theorem getElem?_flatMap_of_length (h : ∀ a ∈ l, (f a).length = width) (row : Nat) {place : Nat}
    (hplace : place < width) :
    (l.flatMap f)[width * row + place]? = l[row]?.bind fun a => (f a)[place]? := by
  induction l generalizing row with
  | nil => rfl
  | cons a l ih =>
    have hfirst : (f a).length = width := h a (List.mem_cons_self ..)
    rw [List.flatMap_cons]
    cases row with
    | zero =>
      rw [Nat.mul_zero, Nat.zero_add, List.getElem?_append_left (by rwa [hfirst])]
      rfl
    | succ row =>
      have hskip : width * (row + 1) + place - width = width * row + place := by
        rw [Nat.mul_succ]
        omega
      rw [List.getElem?_append_right (by rw [hfirst, Nat.mul_succ]; omega), hfirst, hskip]
      exact ih (fun a' ha' => h a' (List.mem_cons_of_mem a ha')) row

/-- As many rows of equal length are told from what they make end to end. -/
theorem map_eq_of_flatMap_eq {l' : List α} (h : ∀ a ∈ l, (f a).length = width)
    (h' : ∀ a ∈ l', (f a).length = width) (hlength : l.length = l'.length)
    (heq : l.flatMap f = l'.flatMap f) : l.map f = l'.map f := by
  have hlengths : ∀ {rows : List α}, (∀ a ∈ rows, (f a).length = width) →
      (rows.map f).map List.length = List.replicate rows.length width := by
    intro rows hrows
    rw [List.map_map, List.map_eq_replicate_iff]
    exact hrows
  rw [List.flatMap_def, List.flatMap_def] at heq
  exact List.eq_iff_flatten_eq.2 ⟨heq, by rw [hlengths h, hlengths h', hlength]⟩

namespace Frame

/-- The pixels of a frame, row after row and from left to right. -/
def pixels (f : Frame) : List Bool :=
  f.cells.toList.map (· != 0)

theorem length_pixels (f : Frame) : f.pixels.length = 2048 := by
  rw [pixels, List.length_map, Vector.length_toList]

theorem getElem?_pixels (f : Frame) (y : Nat) {x : Nat} (hx : x < 64) :
    f.pixels[64 * y + x]? = f.pixel? x y := by
  unfold pixel?
  split
  · rename_i hon
    have hcell : 64 * y + x = (index x y hon).val := by
      simp only [index, displayWidth]
      omega
    simp [pixels, hcell]
  · rename_i hoff
    simp only [onDisplay, displayWidth, displayHeight] at hoff
    exact List.getElem?_eq_none (by rw [length_pixels]; omega)

theorem pixel?_of_width_le (f : Frame) {x : Nat} (hx : 64 ≤ x) (y : Nat) : f.pixel? x y = none := by
  rw [pixel?, dif_neg]
  simp only [onDisplay, displayWidth]
  omega

theorem pixel?_of_height_le (f : Frame) (x : Nat) {y : Nat} (hy : 32 ≤ y) :
    f.pixel? x y = none := by
  rw [pixel?, dif_neg]
  simp only [onDisplay, displayHeight]
  omega

/-- A row holds its pixels from left to right. -/
theorem getElem?_row (f : Frame) (x y : Nat) : (f.row y)[x]? = f.pixel? x y := by
  have hrow : f.row y = (f.pixels.drop (64 * y)).take 64 := by
    rw [row, pixels, List.map_take, List.map_drop, Nat.mul_comm]
    rfl
  rw [hrow]
  rcases Nat.lt_or_ge x 64 with hx | hx
  · rw [List.getElem?_take_of_lt hx, List.getElem?_drop, f.getElem?_pixels y hx]
  · rw [List.getElem?_take_eq_none hx, f.pixel?_of_width_le hx]

/-- The rows of a frame hold its pixels. -/
theorem getElem?_rows (f : Frame) (x y : Nat) : f.rows[y]?.bind (·[x]?) = f.pixel? x y := by
  rw [rows, List.getElem?_map, show displayHeight = 32 from rfl]
  rcases Nat.lt_or_ge y 32 with hy | hy
  · rw [List.getElem?_range hy]
    exact f.getElem?_row x y
  · rw [List.getElem?_eq_none (by rwa [List.length_range]), f.pixel?_of_height_le x hy]
    rfl

theorem length_row (f : Frame) {y : Nat} (hy : y < 32) : (f.row y).length = 64 := by
  simp only [row, displayWidth, List.length_map, List.length_take, List.length_drop,
    Vector.length_toList]
  omega

end Frame

end Chip8
