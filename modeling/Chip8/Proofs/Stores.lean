import Chip8.Proofs.WellFormed

/-!
# Chip8 — rows of bytes in memory

Three instructions move rows of bytes between the registers and memory. A row begins at the index
register and goes on past the end of memory at its beginning, which is the font: what falls there is
dropped, and what follows behind the font is stored again. No row is as long as memory, so its bytes
lie in different cells and none is written over by a later one.

Main statements:

* `cells_store` — which byte lies in a cell after a row was stored;
* `stored_store` — the same seen from the bytes: where each of them is found, and what stays;
* `stores_and_loads_agree` — the three instructions, and what a store gives back to a load.
-/

namespace Chip8

namespace Memory

/-! ## Stores -/

theorem cells_write (m : Memory) (address : UInt16) (value : UInt8) (c : Fin 4096) :
    (m.write address value).cells[c]
      = if font.length ≤ c.val ∧ cell address = c then value else m.cells[c] := by
  by_cases hfont : inFont address
  · have hother : ¬ (font.length ≤ c.val ∧ cell address = c) := by
      rintro ⟨hle, rfl⟩
      exact absurd hfont (Nat.not_lt.2 hle)
    rw [write_of_inFont hfont, if_neg hother]
  · have hle : font.length ≤ (cell address).val := Nat.not_lt.1 hfont
    have hsame : font.length ≤ c.val ∧ cell address = c ↔ (cell address).val = c.val := by
      rw [Fin.ext_iff]
      omega
    rw [write, if_neg hfont, if_congr hsame rfl rfl]
    simp only [Fin.getElem_fin, Vector.getElem_set]

/-- How far a cell lies behind an address, where memory begins anew after its end. -/
def distance (address : UInt16) (c : Fin 4096) : Nat :=
  (c.val + (4096 - address.toNat % 4096)) % 4096

theorem distance_of_cell_eq {address : UInt16} {c : Fin 4096} (h : cell address = c) :
    distance address c = 0 ∧ distance (address + 1) c = 4095 := by
  have hone : (1 : UInt16).toNat = 1 := rfl
  have hcell : address.toNat % 4096 = c.val := congrArg Fin.val h
  simp only [distance, UInt16.toNat_add, hone]
  omega

/-- Seen from the next address, every other cell is one nearer. -/
theorem distance_of_cell_ne {address : UInt16} {c : Fin 4096} (h : cell address ≠ c) :
    distance address c = distance (address + 1) c + 1 := by
  have hone : (1 : UInt16).toNat = 1 := rfl
  have hcell : address.toNat % 4096 ≠ c.val := fun e => h (Fin.ext e)
  have hc := c.isLt
  simp only [distance, UInt16.toNat_add, hone]
  omega

theorem distance_ofNat {address : UInt16} {k : Nat} (hk : k < 4096) :
    distance address (Fin.ofNat 4096 (address.toNat + k)) = k := by
  simp only [distance, Fin.val_ofNat]
  omega

/-- After a row was stored, a cell behind the font holds the byte of the row that lies as far behind
the first as the cell lies behind the address, if there is one. -/
theorem cells_store (m : Memory) (address : UInt16) {bytes : List UInt8}
    (hlength : bytes.length ≤ 4096) (c : Fin 4096) :
    (m.store address bytes).cells[c]
      = if font.length ≤ c.val then bytes[distance address c]?.getD m.cells[c]
        else m.cells[c] := by
  induction bytes generalizing m address with
  | nil => simp [store]
  | cons b bs ih =>
    rw [List.length_cons] at hlength
    rw [store, ih _ _ (by omega), cells_write]
    by_cases hfont : font.length ≤ c.val
    · by_cases hcell : cell address = c
      · -- the bytes that follow do not come round to the first one's cell
        obtain ⟨hzero, hlast⟩ := distance_of_cell_eq hcell
        have hnone : bs[4095]? = none := List.getElem?_eq_none (by omega)
        simp [hfont, hcell, hzero, hlast, hnone]
      · have hnext := distance_of_cell_ne hcell
        simp [hfont, hcell, hnext]
    · simp [hfont]

/-- The cells of the font hold its bytes. -/
theorem HoldsFont.getElem {m : Memory} (hm : m.HoldsFont) {c : Fin 4096}
    (h : c.val < font.length) : font[c.val]? = some m.cells[c] := by
  have hbyte : (m.cells.toList.take font.length)[c.val]? = some m.cells[c] := by
    rw [List.getElem?_take_of_lt h]
    simp
  rwa [hm] at hbyte

end Memory

namespace Machine

variable {ρ : Type}

/-! ## Rows of a machine -/

/-- The second machine comes from the first by storing a row of bytes at the index register, except
for those that fall in the font. -/
structure Stored (m : Machine ρ) (bytes : List UInt8) (after : Machine ρ) : Prop where
  /-- A byte is found in its cell, which comes round at the end of memory. -/
  written : ∀ k b, bytes[k]? = some b → 0x50 ≤ (m.i.toNat + k) % 4096 →
    after.memory.cells[Fin.ofNat 4096 (m.i.toNat + k)] = b
  /-- Every other cell stays, and the font does. -/
  kept : ∀ c : Fin 4096, (c.val < 0x50 ∨ ∀ k < bytes.length, (m.i.toNat + k) % 4096 ≠ c.val) →
    after.memory.cells[c] = m.memory.cells[c]
  registers : after.v = m.v
  index : after.i = m.i

/-- The second machine comes from the first by loading the registers up to one of them with the
bytes from the index register on. -/
structure Loaded (m : Machine ρ) (x : UInt8) (after : Machine ρ) : Prop where
  taken : ∀ k : Fin 16, k.val ≤ x.toNat →
    after.v[k] = m.memory.cells[Fin.ofNat 4096 (m.i.toNat + k.val)]
  kept : ∀ k : Fin 16, x.toNat < k.val → after.v[k] = m.v[k]
  memory : after.memory = m.memory
  index : after.i = m.i

theorem stored_store (m : Machine ρ) {bytes : List UInt8} (hlength : bytes.length ≤ 4096) :
    m.Stored bytes { m with memory := m.memory.store m.i bytes } where
  written := by
    intro k b hb haddress
    obtain ⟨hk, -⟩ := List.getElem?_eq_some_iff.1 hb
    have hdistance : Memory.distance m.i (Fin.ofNat 4096 (m.i.toNat + k)) = k :=
      Memory.distance_ofNat (by omega)
    have hfont : font.length ≤ (Fin.ofNat 4096 (m.i.toNat + k)).val := haddress
    rw [Memory.cells_store _ _ hlength, if_pos hfont, hdistance, hb, Option.getD_some]
  kept := by
    intro c hc
    rw [Memory.cells_store _ _ hlength]
    split
    · rename_i hfont
      -- a byte as far behind the index as the cell would have been stored there
      have hnone : bytes[Memory.distance m.i c]? = none := by
        refine List.getElem?_eq_none (Nat.not_lt.1 fun hlt => ?_)
        have hat : (m.i.toNat + Memory.distance m.i c) % 4096 = c.val := by
          have := c.isLt
          simp only [Memory.distance]
          omega
        have hbehind : ¬ c.val < 0x50 := Nat.not_lt.2 hfont
        exact (hc.resolve_left hbehind) _ hlt hat
      rw [hnone, Option.getD_none]
    · rfl
  registers := rfl
  index := rfl

theorem loaded_loadedRegisters (m : Machine ρ) (x : UInt8) :
    m.Loaded x { m with v := m.loadedRegisters x } where
  taken := by
    intro k hk
    have hread := (m.get_loadedRegisters x k).trans (if_pos hk)
    exact hread.trans (m.memory.read_add m.i k.val)
  kept := by
    intro k hk
    exact (m.get_loadedRegisters x k).trans (if_neg (Nat.not_le.2 hk))
  memory := rfl
  index := rfl

/-- What a load of some of the registers finds that a store put at the same index: the registers as
they were when they were stored, or the font where the store was dropped. -/
theorem loaded_of_stored {m stored changed loaded : Machine ρ} {x y : UInt8}
    (hfont : m.memory.HoldsFont) (hxy : y.toNat ≤ x.toNat)
    (hstored : m.Stored (m.v.toList.take (x.toNat + 1)) stored)
    (hmemory : changed.memory = stored.memory) (hindex : changed.i = stored.i)
    (hloaded : changed.Loaded y loaded) {k : Fin 16} (hk : k.val ≤ y.toNat) :
    ((m.i.toNat + k.val) % 4096 < 0x50 →
        font[(m.i.toNat + k.val) % 4096]? = some loaded.v[k]) ∧
      (0x50 ≤ (m.i.toNat + k.val) % 4096 → loaded.v[k] = m.v[k]) := by
  have hsame : changed.i = m.i := hindex.trans hstored.index
  have hread : loaded.v[k] = stored.memory.cells[Fin.ofNat 4096 (m.i.toNat + k.val)] := by
    rw [hloaded.taken k hk, hmemory]
    simp only [hsame]
  constructor
  · intro hlow
    rw [hread, hstored.kept _ (Or.inl hlow)]
    exact hfont.getElem (c := Fin.ofNat 4096 (m.i.toNat + k.val)) hlow
  · intro hhigh
    have hbyte : (m.v.toList.take (x.toNat + 1))[k.val]? = some m.v[k] := by
      rw [List.getElem?_take_of_lt (by omega)]
      simp
    rw [hread, hstored.written k.val m.v[k] hbyte hhigh]

/-! ## The instructions -/

variable [Host ρ]

/-- An instruction that stores a row does so by itself and in a step. -/
theorem does_stored {m : Machine ρ} {instr : Instruction} {bytes : List UInt8}
    (hexec : ∀ pc, execute instr { m with pc }
      = .done { m with pc, memory := m.memory.store m.i bytes })
    (hlength : bytes.length ≤ 4096) : m.Does instr (m.Stored bytes) := by
  refine does_of_execute (fun pc => ⟨_, hexec pc, ?_⟩) fun done hdone => ?_
  · have hstored := stored_store { m with pc } hlength
    exact { hstored with }
  · rw [retire_frame]
    exact { hdone with }

theorem does_loaded (m : Machine ρ) (x : UInt8) : m.Does (.loadRegisters x) (m.Loaded x) := by
  refine does_of_execute (fun pc => ⟨_, rfl, ?_⟩) fun done hdone => ?_
  · have hloaded := loaded_loadedRegisters { m with pc } x
    exact { hloaded with }
  · rw [retire_frame]
    exact { hdone with }

theorem does_storeRegisters (m : Machine ρ) (x : UInt8) :
    m.Does (.storeRegisters x) (m.Stored (m.v.toList.take (x.toNat + 1))) := by
  refine does_stored (fun _ => rfl) ?_
  rw [List.length_take, Vector.length_toList]
  omega

/-- The digits of a byte are digits, and they make up the byte. -/
theorem decimalDigits_eq (b : UInt8) :
    ∃ hundreds tens ones : UInt8, decimalDigits b = [hundreds, tens, ones] ∧
      hundreds.toNat ≤ 9 ∧ tens.toNat ≤ 9 ∧ ones.toNat ≤ 9 ∧
      100 * hundreds.toNat + 10 * tens.toNat + ones.toNat = b.toNat := by
  have hb := b.toNat_lt
  have hhundred : (100 : UInt8).toNat = 100 := rfl
  have hten : (10 : UInt8).toNat = 10 := rfl
  refine ⟨b / 100, b % 100 / 10, b % 10, rfl, ?_⟩
  simp only [UInt8.toNat_div, UInt8.toNat_mod, hhundred, hten]
  omega

/-- **Stores and loads agree.** Whatever happened to a machine, a store of the registers up to one
of them puts each at its address and a store of digits the three digits of a register, except for
what falls in the font, and a load takes each register up to one of them from its address; nothing
else changes in the registers, the index or memory. So with its memory, whatever the registers hold
and wherever the index points, what was stored is loaded again, into all the registers or fewer,
whatever became of these in between, and where the store was dropped the font is loaded. -/
theorem stores_and_loads_agree (variant : Variant) (host : ρ) (ops : List Operation) (x : UInt8) :
    let m := reached variant host ops
    m.Does (.storeRegisters x) (m.Stored (m.v.toList.take (x.toNat + 1))) ∧
    (∃ hundreds tens ones : UInt8, hundreds.toNat ≤ 9 ∧ tens.toNat ≤ 9 ∧ ones.toNat ≤ 9 ∧
      100 * hundreds.toNat + 10 * tens.toNat + ones.toNat = (m.reg x).toNat ∧
      m.Does (.storeDigits x) (m.Stored [hundreds, tens, ones])) ∧
    m.Does (.loadRegisters x) (m.Loaded x) ∧
    ∀ (start : Machine ρ) (y : UInt8), start.memory = m.memory → y.toNat ≤ x.toNat →
      start.Does (.storeRegisters x) fun stored =>
        ∀ changed : Machine ρ, changed.memory = stored.memory → changed.i = stored.i →
          changed.Does (.loadRegisters y) fun loaded => ∀ k : Fin 16, k.val ≤ y.toNat →
            ((start.i.toNat + k.val) % 4096 < 0x50 →
              font[(start.i.toNat + k.val) % 4096]? = some loaded.v[k]) ∧
            (0x50 ≤ (start.i.toNat + k.val) % 4096 → loaded.v[k] = start.v[k]) := by
  intro m
  have hfont : m.memory.HoldsFont := (wellFormed_reached variant host ops).font
  refine ⟨does_storeRegisters m x, ?_, does_loaded m x, ?_⟩
  · obtain ⟨hundreds, tens, ones, hdigits, hhundreds, htens, hones, hsum⟩ :=
      decimalDigits_eq (m.reg x)
    refine ⟨hundreds, tens, ones, hhundreds, htens, hones, hsum, ?_⟩
    rw [← hdigits]
    exact does_stored (fun _ => rfl) (by simp [hdigits])
  · intro start y hstart hxy
    refine (does_storeRegisters start x).mono fun stored hstored changed hmemory hindex => ?_
    refine (does_loaded changed y).mono fun loaded hloaded k hk => ?_
    exact loaded_of_stored (hstart ▸ hfont) hxy hstored hmemory hindex hloaded hk

/-- Three registers are stored across the end of memory, so the third is dropped. After all
registers were written over, the first is loaded again and the third takes the first byte of the
font. -/
theorem stores_and_loads_agree_wrapping :
    let m := reached {} (SilentHost.mk 0)
      [.load 10 [0x60, 0x11, 0x62, 0x33, 0xAF, 0xFE, 0xF2, 0x55, 0xF2, 0x65], .step, .step, .step]
    let changed := { m.step.2 with v := Vector.replicate 16 7 }
    m.i = 0xFFE ∧ changed.memory = m.step.2.memory ∧ changed.i = m.step.2.i ∧
      m.step.1 = .ran ∧ changed.step.1 = .ran ∧ changed.step.2.v[(0 : Fin 16)] = 0x11 ∧
      font[0]? = some changed.step.2.v[(2 : Fin 16)] := by
  intro m changed
  obtain ⟨hindex, hpending, hword, hpending', hword', hfirst⟩ :
      m.i = 0xFFE ∧ m.pending = none ∧ m.memory.word m.pc = 0xF255 ∧ changed.pending = none ∧
        changed.memory.word changed.pc = 0xF265 ∧ m.v[(0 : Fin 16)] = 0x11 := by
    decide +kernel
  have hfetch : m.fetch = .ok (.storeRegisters 2) := by
    rw [fetch, hword]
    rfl
  have hfetch' : changed.fetch = .ok (.loadRegisters 2) := by
    rw [fetch, hword']
    rfl
  obtain ⟨-, -, -, hagree⟩ := stores_and_loads_agree {} (SilentHost.mk 0)
    [.load 10 [0x60, 0x11, 0x62, 0x33, 0xAF, 0xFE, 0xF2, 0x55, 0xF2, 0x65], .step, .step, .step] 2
  have hstore := hagree m 2 rfl (Nat.le_refl _)
  -- from here on it does not matter how the machine was reached
  clear_value m
  obtain ⟨hran, hstored⟩ := hstore.step hpending hfetch
  obtain ⟨hran', hloaded⟩ := (hstored changed rfl rfl).step hpending' hfetch'
  rw [hindex] at hloaded
  have hkept := (hloaded 0 (by decide)).2 (by decide)
  have hdropped := (hloaded 2 (by decide)).1 (by decide)
  exact ⟨hindex, rfl, rfl, hran, hran', hkept.trans hfirst, hdropped⟩

end Machine

end Chip8
