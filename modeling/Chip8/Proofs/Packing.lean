import Chip8.Frame.Bitmap
import Chip8.Proofs.Rows
import Chip8.Proofs.Sprite
import Mathlib.Data.List.Induction

/-!
# Chip8 — what a bitmap keeps of a frame

The bits of a bitmap are read byte after byte, the highest of a byte first. Read in this way the
bitmap of a frame is the frame: its bits are the pixels, in their order. Where a pixel is found in a
byte, what the rows of bits hold, how many bits are set, what an image of the bits shows, and that
no two frames have the same bitmap all come from that.

Main statements:

* `bitsOfByte_byteOfBits` — a byte keeps the bits that it is made of;
* `Frame.bits_pack` — the bits of a bitmap are the pixels of its frame;
* `Bitmap.flatten_rows` — the rows of bits are the bits of the bytes, laid end to end;
* `Frame.packing_keeps_pixels` — what is found where.
-/

namespace Chip8

/-! ## Bytes -/

/-- The bits of a byte, the highest first. -/
def bitsOfByte (byte : UInt8) : List Bool :=
  (List.range 8).map fun place => byte.toNat.testBit (7 - place)

theorem length_bitsOfByte (byte : UInt8) : (bitsOfByte byte).length = 8 := by
  rw [bitsOfByte, List.length_map, List.length_range]

theorem getElem?_bitsOfByte (byte : UInt8) {place : Nat} (hplace : place < 8) :
    (bitsOfByte byte)[place]? = some (byte.toNat.testBit (7 - place)) := by
  rw [bitsOfByte, List.getElem?_map, List.getElem?_range hplace]
  rfl

/-- The number with these bits, the highest first, has them from the last one upwards. -/
theorem testBit_foldl (bits : List Bool) (place : Nat) :
    (bits.foldl (fun n (bit : Bool) => 2 * n + bit.toNat) 0).testBit place
      = (bits.reverse[place]?).getD false := by
  induction bits using List.reverseRecOn generalizing place with
  | nil => simp
  | append_singleton bits bit ih =>
    rw [List.foldl_append, List.reverse_append]
    cases place with
    | zero => cases bit <;> simp
    | succ place =>
      rw [Nat.testBit_succ, List.foldl_cons, List.foldl_nil]
      have hhalf : ∀ n : Nat, (2 * n + bit.toNat) / 2 = n := by
        intro n
        have hbit := bit.toNat_lt
        omega
      rw [hhalf, ih]
      rfl

/-- A byte keeps the bits that it is made of. -/
theorem bitsOfByte_byteOfBits {bits : List Bool} (h : bits.length = 8) :
    bitsOfByte (byteOfBits bits) = bits := by
  refine List.ext_getElem ((length_bitsOfByte _).trans h.symm) fun place hplace hplace' => ?_
  have hlt : place < 8 := h ▸ hplace'
  have hmirror : bits.length - 1 - (7 - place) = place := by omega
  have hbyte : (byteOfBits bits).toNat
      = bits.foldl (fun n bit => 2 * n + bit.toNat) 0 % 2 ^ 8 := UInt8.toNat_ofNat'
  rw [← Option.some_inj, ← List.getElem?_eq_getElem, ← List.getElem?_eq_getElem,
    getElem?_bitsOfByte _ hlt, hbyte, Nat.testBit_mod_two_pow, testBit_foldl,
    List.getElem?_reverse (by omega), hmirror, List.getElem?_eq_getElem hplace', Option.getD_some,
    decide_eq_true (show 7 - place < 8 by omega), Bool.true_and]

/-! ## Bitmaps -/

namespace Bitmap

/-- The bits of a bitmap, byte after byte and the highest of a byte first. -/
def bits (b : Bitmap) : List Bool :=
  b.bytes.toList.flatMap bitsOfByte

theorem getElem?_bits (b : Bitmap) (k : Nat) {place : Nat} (hplace : place < 8) :
    b.bits[8 * k + place]? = b.bytes[k]?.map fun byte => byte.toNat.testBit (7 - place) := by
  rw [bits, getElem?_flatMap_of_length (fun byte _ => length_bitsOfByte byte) k hplace,
    Vector.getElem?_toList]
  cases b.bytes[k]? with
  | none => rfl
  | some byte => exact getElem?_bitsOfByte byte hplace

theorem length_bits (b : Bitmap) : b.bits.length = 2048 := by
  rw [bits, length_flatMap_of_length fun byte _ => length_bitsOfByte byte, Vector.length_toList]

/-- The bit for a pixel is found where the pixels of a frame have that pixel. -/
theorem getElem?_bits_row (b : Bitmap) {x y : Nat} (h : Frame.onDisplay x y) :
    b.bits[64 * y + x]? = some (b.bit x y) := by
  obtain ⟨hx, hy⟩ := h
  simp only [displayWidth, displayHeight] at hx hy
  have hplace : x % 8 < 8 := Nat.mod_lt x (by decide)
  have hbyte : 8 * y + x / 8 < 256 := by omega
  rw [show 64 * y + x = 8 * (8 * y + x / 8) + x % 8 by omega, b.getElem?_bits _ hplace, bit,
    Vector.getElem?_eq_getElem hbyte]
  rfl

theorem length_row (b : Bitmap) (y : Nat) : (b.row y).length = 64 := by
  rw [row, List.length_map, List.length_range]
  rfl

/-- A row of bits holds the bits for its pixels from left to right. -/
theorem getElem?_row (b : Bitmap) {x : Nat} (hx : x < 64) (y : Nat) :
    (b.row y)[x]? = some (b.bit x y) := by
  rw [row, List.getElem?_map, List.getElem?_range (show x < displayWidth from hx)]
  rfl

/-- The rows of bits are the bits of the bytes, laid end to end. -/
theorem flatten_rows (b : Bitmap) : b.rows.flatten = b.bits := by
  have hrows : b.rows.flatten = (List.range 32).flatMap b.row := rfl
  have hlength : b.rows.flatten.length = 2048 := by
    rw [hrows, length_flatMap_of_length fun y _ => b.length_row y, List.length_range]
  refine List.ext_getElem? fun k => ?_
  rcases Nat.lt_or_ge k 2048 with hk | hk
  · -- the place of the bit in its row
    have hy : k / 64 < 32 := by omega
    have hx : k % 64 < 64 := Nat.mod_lt k (by decide)
    rw [show k = 64 * (k / 64) + k % 64 by omega, b.getElem?_bits_row ⟨hx, hy⟩, hrows,
      getElem?_flatMap_of_length (fun y _ => b.length_row y) _ hx, List.getElem?_range hy]
    exact b.getElem?_row hx _
  · rw [List.getElem?_eq_none (by omega), List.getElem?_eq_none (by rw [b.length_bits]; omega)]

end Bitmap

namespace Frame

/-- **The bits of a bitmap are the pixels of its frame.** -/
theorem bits_pack (f : Frame) : f.pack.bits = f.pixels := by
  have hbytes : f.pack.bytes.toList = List.ofFn fun byte =>
      byteOfBits (List.ofFn fun bit => f.cells[bitmapCell byte bit] != 0) := Vector.toList_ofFn
  refine List.ext_getElem? fun k => ?_
  rcases Nat.lt_or_ge k 2048 with hk | hk
  · have hbyte : k / 8 < 256 := by omega
    have hplace : k % 8 < 8 := Nat.mod_lt k (by decide)
    have hcell : 8 * (k / 8) + k % 8 = k := by omega
    calc f.pack.bits[k]? = f.pack.bits[8 * (k / 8) + k % 8]? := by rw [hcell]
      _ = some (f.cells[bitmapCell ⟨k / 8, hbyte⟩ ⟨k % 8, hplace⟩] != 0) := by
        rw [Bitmap.bits, getElem?_flatMap_of_length (fun byte _ => length_bitsOfByte byte) _ hplace,
          hbytes, List.getElem?_ofFn, dif_pos hbyte, Option.bind_some,
          bitsOfByte_byteOfBits List.length_ofFn, List.getElem?_ofFn, dif_pos hplace]
      _ = f.pixels[k]? := by simp [pixels, bitmapCell, hcell, hk]
  · rw [List.getElem?_eq_none (by rwa [Bitmap.length_bits]),
      List.getElem?_eq_none (by rwa [length_pixels])]

/-- The bit for a pixel on the display tells whether it is on. -/
theorem pixel?_eq_bit (f : Frame) {x y : Nat} (h : onDisplay x y) :
    f.pixel? x y = some (f.pack.bit x y) := by
  rw [← f.getElem?_pixels y h.1, ← f.bits_pack, f.pack.getElem?_bits_row h]

/-- The rows of bits hold the pixels of the frame. -/
theorem getElem?_rows_pack (f : Frame) (x y : Nat) :
    f.pack.rows[y]?.bind (·[x]?) = f.pixel? x y := by
  rw [Bitmap.rows, List.getElem?_map, show displayHeight = 32 from rfl]
  rcases Nat.lt_or_ge y 32 with hy | hy
  · rw [List.getElem?_range hy, Option.map_some, Option.bind_some]
    rcases Nat.lt_or_ge x 64 with hx | hx
    · rw [f.pack.getElem?_row hx, f.pixel?_eq_bit ⟨hx, hy⟩]
    · rw [List.getElem?_eq_none (by rwa [Bitmap.length_row]), f.pixel?_of_width_le hx]
  · rw [List.getElem?_eq_none (by rwa [List.length_range]), f.pixel?_of_height_le x hy]
    rfl

/-- As many bits are set as pixels are on. -/
theorem count_bits_pack (f : Frame) : f.pack.bits.count true = f.countLit := by
  rw [f.bits_pack, pixels, countLit, List.count, List.countP_map]
  refine List.countP_congr fun cell _ => ?_
  simp

/-- An image of the bits shows the pixels that are on. -/
theorem mem_lit_pack (f : Frame) (x y : Nat) :
    (x, y) ∈ f.pack.lit ↔ f.pixel? x y = some true := by
  have hpositions : (x, y) ∈ Bitmap.positions ↔ onDisplay x y := by
    simp [Bitmap.positions, onDisplay, and_comm]
  rw [Bitmap.lit, List.mem_filter, hpositions]
  constructor
  · rintro ⟨hon, hbit⟩
    rw [f.pixel?_eq_bit hon, hbit]
  · intro hlit
    have hon := onDisplay_of_pixel? hlit
    rw [f.pixel?_eq_bit hon, Option.some_inj] at hlit
    exact ⟨hon, hlit⟩

/-- Frames of zeros and ones with the same bitmap are the same. -/
theorem IsBinary.eq_of_pack_eq {f g : Frame} (hf : f.IsBinary) (hg : g.IsBinary)
    (h : f.pack = g.pack) : f = g := by
  refine hf.ext hg fun x y => ?_
  rw [← f.getElem?_rows_pack, h, g.getElem?_rows_pack]

/-- **A bitmap keeps the pixels of its frame and puts each in its place.** The bit for a pixel is in
the byte behind eight bytes for each row above and one for each eight pixels to the left, the first
of eight in the highest bit. The rows of bits are the bits of the bytes laid end to end, in
thirty-two rows of sixty-four, and hold the pixels of the frame. As many bits are set as pixels are
on, an image of the bits shows those and no others, and a frame of zeros and ones is told by its
bitmap. -/
theorem packing_keeps_pixels (f : Frame) :
    (∀ x y, onDisplay x y → ∃ byte, f.pack.bytes[8 * y + x / 8]? = some byte ∧
      (byte.toNat.testBit (7 - x % 8) = true ↔ f.pixel? x y = some true)) ∧
    (f.pack.rows.flatten = f.pack.bits ∧ f.pack.rows.length = 32 ∧
      (∀ row ∈ f.pack.rows, row.length = 64) ∧
      ∀ x y, f.pack.rows[y]?.bind (·[x]?) = f.pixel? x y) ∧
    f.pack.bits.count true = f.countLit ∧
    (∀ x y, (x, y) ∈ f.pack.lit ↔ f.pixel? x y = some true) ∧
    ∀ g : Frame, f.IsBinary → g.IsBinary → f.pack = g.pack → f = g := by
  refine ⟨fun x y hon => ?_, ⟨f.pack.flatten_rows, ?_, ?_, f.getElem?_rows_pack⟩,
    f.count_bits_pack, f.mem_lit_pack, fun g hf hg => hf.eq_of_pack_eq hg⟩
  · have hbyte : 8 * y + x / 8 < 256 := by
      have hx : x < 64 := hon.1
      have hy : y < 32 := hon.2
      omega
    refine ⟨_, Vector.getElem?_eq_getElem hbyte, ?_⟩
    rw [f.pixel?_eq_bit hon, Option.some_inj, Bitmap.bit, Vector.getElem?_eq_getElem hbyte]
    rfl
  · rw [Bitmap.rows, List.length_map, List.length_range]
    rfl
  · intro row hrow
    obtain ⟨y, -, rfl⟩ := List.mem_map.1 hrow
    exact f.pack.length_row y

/-- Two pixels of which the second is the ninth in its row: it is in the highest bit of the second
byte of that row, and the bitmap of the first one alone is another one. -/
theorem packing_keeps_pixels_ninth :
    let first := dark.flip 0 0 true
    let both := first.flip 8 1 true
    onDisplay 8 1 ∧ (∃ byte, both.pack.bytes[9]? = some byte ∧ byte.toNat.testBit 7 = true) ∧
      both.IsBinary ∧ first.IsBinary ∧ both.pack ≠ first.pack := by
  intro first both
  have hfirst : first.IsBinary := isBinary_dark.flip 0 0 true
  have hboth : both.IsBinary := hfirst.flip 8 1 true
  have hoff : first.pixel? 8 1 = some false := by
    rw [isBinary_dark.pixel?_flip]
    simp [pixel?, onDisplay, displayWidth, displayHeight, dark]
  have hon : both.pixel? 8 1 = some true := by
    rw [hfirst.pixel?_flip, hoff]
    rfl
  obtain ⟨hplaces, -, -, -, htold⟩ := packing_keeps_pixels both
  obtain ⟨byte, hbyte, hbit⟩ := hplaces 8 1 (by decide)
  refine ⟨by decide, ⟨byte, hbyte, hbit.2 hon⟩, hboth, hfirst, fun h => ?_⟩
  rw [htold first hboth hfirst h, hoff] at hon
  cases hon

end Frame

end Chip8
