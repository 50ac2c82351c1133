import Chip8.Proofs.Loading

/-!
# Chip8 — from a source of bytes to memory

Three lengths meet when a program is read and loaded: the size that its source declares, the number
of bytes that the source has, and the space for a program. What is read is the bytes up to the least
of the three, wherever the source cuts its chunks; and reading fails just if the source breaks
before the declared size and the space are reached. What is checked at the load is the declared
size, not what was read of it; what is copied is what was read.

Main statements:

* `Machine.holdsFirst_loadProgram` — what is left of a machine when bytes are loaded into it;
* `Rom.read_and_load` — from the source to memory.
-/

namespace Chip8

variable {ρ : Type}

namespace Machine

/-- The machine as it is when the first of some bytes were loaded into another one. -/
structure HoldsFirst (before after : Machine ρ) (bytes : List UInt8) (count : Nat) : Prop where
  -- they lie byte by byte from the origin on
  inside : ∀ i < count, after.memory.cells[programOrigin.toNat + i]? = bytes[i]?
  -- every other cell keeps its byte
  outside : ∀ k, k < programOrigin.toNat ∨ programOrigin.toNat + count ≤ k →
    after.memory.cells[k]? = before.memory.cells[k]?
  -- nothing else changed
  others : after = { before with memory := after.memory, loaded := true }

theorem holdsFirst_loadProgram (m : Machine ρ) {bytes : List UInt8} {count : Nat}
    (hfits : count ≤ programSpace) (hcount : count ≤ bytes.length) :
    HoldsFirst m { m with memory := m.memory.loadProgram (bytes.take count), loaded := true } bytes
      count := by
  have hlength : (bytes.take count).length = count := List.length_take_of_le hcount
  refine ⟨?_, ?_, rfl⟩
  · intro i hi
    rw [m.memory.getElem?_loadProgram_inside (by rwa [hlength]) (by rwa [hlength]),
      List.getElem?_take_of_lt hi]
  · intro k hk
    exact m.memory.getElem?_loadProgram_outside (by rwa [hlength])

end Machine

namespace Rom

open Machine

/-- **From a source to memory.** Reading an image fails just if the source breaks and has fewer
bytes than the image declares and than fit. Otherwise the image keeps the size it declares, and it
holds the first bytes of the source, as many as it declares, as fit and as are there, wherever the
chunks are cut. A new machine takes the image just if the declared size fits. Then its memory holds
the first bytes of the source from the origin on, as many as are declared and as there are, and
nothing else changed; if not, the machine tells by how much the declared size exceeds the space, and
stays as it is. -/
theorem read_and_load (name : String) (size : Nat) (source : ByteSource) (variant : Variant)
    (host : ρ) :
    let bytes := source.bytes
    let new := initial variant host
    (read? name size source = none
        ↔ source.breaks = true ∧ bytes.length < min size programSpace) ∧
      ∀ rom, read? name size source = some rom →
        rom = ⟨name, size, bytes.take (min size (min programSpace bytes.length))⟩ ∧
        (size ≤ programSpace →
          ∃ after, new.loadRom rom = .ok after ∧
            HoldsFirst new after bytes (min size bytes.length)) ∧
        (programSpace < size →
          new.loadRom rom = .error (.programTooLarge (size - programSpace)) ∧
          new.tryLoad rom.size rom.data = new) := by
  intro bytes new
  refine ⟨by simp [read?_eq, bytes], fun rom hread => ?_⟩
  obtain rfl := eq_of_read? hread
  have hload := loadDeclared_unloaded variant host .allUp size
    (bytes.take (min size (min programSpace bytes.length)))
  refine ⟨rfl, fun hfits => ?_, fun hexcess => ?_⟩
  · -- the space is no bound any more when the declared size fits
    have hcount : min size (min programSpace bytes.length) = min size bytes.length := by omega
    have hcount_le : min size bytes.length ≤ programSpace :=
      Nat.le_trans (Nat.min_le_left ..) hfits
    rw [if_pos hfits, hcount] at hload
    rw [hcount]
    exact ⟨_, hload, holdsFirst_loadProgram new hcount_le (Nat.min_le_right ..)⟩
  · rw [if_neg (Nat.not_le.2 hexcess)] at hload
    exact ⟨hload, by rw [tryLoad, show new.loadDeclared size _ = _ from hload]⟩

/-- A source of three bytes in two chunks that breaks behind them: two bytes can be read from it and
loaded, though they end within a chunk, and four thousand cannot be read. If it does not break, the
three are an image of four thousand, and it is too large. -/
theorem read_and_load_cut :
    let broken : ByteSource := ⟨[[0x12], [0x00, 0xAB]], true⟩
    let ended : ByteSource := { broken with breaks := false }
    let new := initial {} (SilentHost.mk 0)
    let short : Rom := ⟨"short", 2, [0x12, 0x00]⟩
    let large : Rom := ⟨"large", 4000, [0x12, 0x00, 0xAB]⟩
    (read? "short" 2 broken = some short ∧ 2 ≤ programSpace ∧
        ∃ after, new.loadRom short = .ok after ∧ HoldsFirst new after [0x12, 0x00, 0xAB] 2) ∧
      read? "large" 4000 broken = none ∧
      read? "large" 4000 ended = some large ∧ programSpace < 4000 ∧
      new.loadRom large = .error (.programTooLarge 416) ∧
      new.tryLoad large.size large.data = new := by
  intro broken ended new short large
  have hshort : read? "short" 2 broken = some short := by decide
  have hlarge : read? "large" 4000 ended = some large := by decide
  obtain ⟨-, htaken⟩ := read_and_load "short" 2 broken {} (SilentHost.mk 0)
  obtain ⟨hfails, -⟩ := read_and_load "large" 4000 broken {} (SilentHost.mk 0)
  obtain ⟨-, hrefused⟩ := read_and_load "large" 4000 ended {} (SilentHost.mk 0)
  obtain ⟨-, hloaded, -⟩ := htaken short hshort
  obtain ⟨-, -, hexcess⟩ := hrefused large hlarge
  exact ⟨⟨hshort, by decide, hloaded (by decide)⟩, hfails.2 (by decide), hlarge, by decide,
    hexcess (by decide)⟩

end Rom

end Chip8
