import Chip8.Proofs.Moves
import Chip8.Proofs.WellFormed

/-!
# Chip8 — what an instruction leaves alone

Every instruction changes a few parts of the machine, its *footprint*, and leaves the others as they
are. Registers are parts on their own. Apart from these there are the timers, which two instructions
set and the tick behind an instruction counts down, and the program counter, which goes on to the
next instruction or skips it unless the instruction says where to go.

Main statements:

* `execute_kept`, `step_kept` — an executed instruction keeps to its footprint, and so does a step;
* `execute_timers`, `run_counter` — what it leaves in the timers and the program counter;
* `footprint_step` — all of it for a step.
-/

namespace Chip8

open Registers

/-! ## Parts -/

/-- A part of a machine that some instruction changes. -/
inductive Part where
  | frame
  | memory
  | stack
  | index
  -- the register that waits for a key
  | wait
  | register (r : Fin 16)
  deriving DecidableEq

/-- A part is the same in both machines. -/
def Part.Kept {ρ : Type} (m after : Machine ρ) : Part → Prop
  | .frame => after.frame = m.frame
  | .memory => after.memory = m.memory
  | .stack => after.stack = m.stack
  | .index => after.i = m.i
  | .wait => after.pending = m.pending
  | .register r => after.v.get r = m.v.get r

namespace Instruction

/-- The parts of a machine that an instruction may change. -/
def footprint : Instruction → List Part
  | clear => [.frame]
  | draw _ _ _ => [.frame, .register (number flag)]
  | storeDigits _ | storeRegisters _ => [.memory]
  | call _ | ret => [.stack]
  | setIndex _ | addIndex _ | setGlyph _ => [.index]
  | awaitKey _ => [.wait]
  | setByte x _ | addByte x _ | random x _ | copy x _ | bitOr x _ | bitAnd x _ | bitXor x _
  | readDelay x => [.register (number x)]
  | add x _ | sub x _ | shiftRight x _ | subFrom x _ | shiftLeft x _ =>
    [.register (number x), .register (number flag)]
  | loadRegisters x => ((List.finRange 16).filter (·.val ≤ x.toNat)).map .register
  | jump _ | jumpOffset _ | skipIfByte _ _ | skipUnlessByte _ _ | skipIfSame _ _
  | skipIfDiffer _ _ | skipIfKey _ | skipByKey _ | setDelay _ | setSound _ => []

end Instruction

/-- How often the timers tick behind an instruction. -/
def TimerMode.ticksPerInstruction : TimerMode → Nat
  | .perInstruction => 1
  | .fixed60Hz => 0

namespace Machine

variable {ρ : Type}

/-- The delay timer as an instruction leaves it. -/
def delayAfter (m : Machine ρ) : Instruction → UInt8
  | .setDelay x => m.reg x
  | _ => m.delay

/-- The sound timer as an instruction leaves it. -/
def soundAfter (m : Machine ρ) : Instruction → UInt8
  | .setSound x => m.reg x
  | _ => m.sound

/-- Where the program counter may be after an instruction. -/
def successors (m : Machine ρ) : Instruction → List Nat
  | .jump nnn | .call nnn => [nnn.toNat]
  | .jumpOffset nnn => [(nnn.toNat + (m.reg 0).toNat) % 4096]
  -- the latest return address
  | .ret => (m.stack.take 1).map UInt16.toNat
  | .skipIfByte _ _ | .skipUnlessByte _ _ | .skipIfSame _ _ | .skipIfDiffer _ _ | .skipIfKey _
  | .skipByKey _ => [(m.pc.toNat + 2) % 4096, (m.pc.toNat + 4) % 4096]
  | _ => [(m.pc.toNat + 2) % 4096]

variable [Host ρ] {instr : Instruction} {m after : Machine ρ}

/-! ## One instruction -/

/-- An executed instruction keeps to its footprint. -/
theorem execute_kept (h : execute instr m = .done after) {part : Part}
    (hpart : part ∉ instr.footprint) : part.Kept m after := by
  cases instr with
  | ret =>
    obtain ⟨address, rest, -, rfl⟩ := done_ret h
    cases part with
    | stack => exact absurd (List.mem_singleton_self _) hpart
    | _ => rfl
  | call nnn =>
    obtain ⟨-, rfl⟩ := done_call h
    cases part with
    | stack => exact absurd (List.mem_singleton_self _) hpart
    | _ => rfl
  | clear =>
    cases h
    cases part with
    | frame => exact absurd (List.mem_singleton_self _) hpart
    | _ => rfl
  | setIndex | addIndex | setGlyph =>
    cases h
    cases part with
    | index => exact absurd (List.mem_singleton_self _) hpart
    | _ => rfl
  | awaitKey x =>
    cases h
    cases part with
    | wait => exact absurd (List.mem_singleton_self _) hpart
    | _ => rfl
  | storeDigits | storeRegisters =>
    cases h
    cases part with
    | memory => exact absurd (List.mem_singleton_self _) hpart
    | _ => rfl
  | setByte | addByte | random | copy | bitOr | bitAnd | bitXor | readDelay =>
    cases h
    cases part with
    | register r => exact get_assign_ne _ _ fun e => hpart (e ▸ List.mem_singleton_self _)
    | _ => rfl
  | add | sub | shiftRight | subFrom | shiftLeft =>
    cases h
    cases part with
    | register r =>
      simp only [Instruction.footprint, List.mem_cons, Part.register.injEq, List.not_mem_nil,
        or_false, not_or] at hpart
      exact (get_assign_ne _ _ hpart.1).trans (get_assign_ne _ _ hpart.2)
    | _ => rfl
  | draw x y n =>
    cases h
    cases part with
    | frame => exact absurd (List.mem_cons_self ..) hpart
    | register r =>
      simp only [Instruction.footprint, List.mem_cons, Part.register.injEq, List.not_mem_nil,
        or_false, not_or] at hpart
      exact get_assign_ne _ _ hpart.2
    | _ => rfl
  | loadRegisters x =>
    cases h
    cases part with
    | register r =>
      have hbeyond : ¬ r.val ≤ x.toNat := by simpa [Instruction.footprint] using hpart
      exact (m.get_loadedRegisters x r).trans (if_neg hbeyond)
    | _ => rfl
  | skipIfByte | skipUnlessByte | skipIfSame | skipIfDiffer | skipIfKey | skipByKey =>
    cases h
    rw [skipIf_frame]
    cases part <;> rfl
  -- the others reach the timers, the host and the program counter
  | _ =>
    cases h
    cases part <;> rfl

/-- Two instructions set a timer, the others leave both timers as they are. -/
theorem execute_timers (h : execute instr m = .done after) :
    after.delay = m.delayAfter instr ∧ after.sound = m.soundAfter instr := by
  cases instr with
  | ret =>
    obtain ⟨address, rest, -, rfl⟩ := done_ret h
    exact ⟨rfl, rfl⟩
  | call nnn =>
    obtain ⟨-, rfl⟩ := done_call h
    exact ⟨rfl, rfl⟩
  | skipIfByte | skipUnlessByte | skipIfSame | skipIfDiffer | skipIfKey | skipByKey =>
    cases h
    rw [skipIf_frame]
    exact ⟨rfl, rfl⟩
  | _ =>
    cases h
    exact ⟨rfl, rfl⟩

omit [Host ρ] in
/-- A skip behind the next instruction goes there or one instruction further. -/
theorem skipIf_counter (m : Machine ρ) (condition : Bool) :
    (skipIf { m with pc := nextAddress m.pc } condition).pc.toNat
      ∈ [(m.pc.toNat + 2) % 4096, (m.pc.toNat + 4) % 4096] := by
  unfold skipIf
  split
  · have hskipped : (nextAddress (nextAddress m.pc)).toNat = (m.pc.toNat + 4) % 4096 := by
      rw [toNat_nextAddress, toNat_nextAddress]
      omega
    exact hskipped ▸ List.mem_cons_of_mem _ (List.mem_singleton_self _)
  · exact toNat_nextAddress m.pc ▸ List.mem_cons_self ..

/-- An instruction in a step leaves the program counter where it may go. -/
theorem run_counter (h : m.run instr = .done after) : after.pc.toNat ∈ m.successors instr := by
  have hnext : (nextAddress m.pc).toNat ∈ [(m.pc.toNat + 2) % 4096] :=
    toNat_nextAddress m.pc ▸ List.mem_singleton_self _
  cases instr with
  | ret =>
    obtain ⟨address, rest, hstack, rfl⟩ := done_ret h
    have hlatest : m.stack = address :: rest := hstack
    show address.toNat ∈ (m.stack.take 1).map UInt16.toNat
    rw [hlatest]
    exact List.mem_singleton_self _
  | call nnn =>
    obtain ⟨-, rfl⟩ := done_call h
    exact List.mem_singleton_self _
  | jump nnn =>
    cases h
    exact List.mem_singleton_self _
  | jumpOffset nnn =>
    cases h
    have htarget : (UInt16.ofNat ((nnn.toNat + (m.reg 0).toNat) % 4096)).toNat
        = (nnn.toNat + (m.reg 0).toNat) % 4096 := by
      rw [UInt16.toNat_ofNat']
      omega
    exact List.mem_singleton.2 htarget
  | skipIfByte | skipUnlessByte | skipIfSame | skipIfDiffer | skipIfKey | skipByKey =>
    cases h
    exact skipIf_counter m _
  | _ =>
    cases h
    exact hnext

/-! ## One step -/

/-- The second machine comes from the first by a step that executes the instruction, and it differs
no more than the instruction says. -/
structure Footprint (m : Machine ρ) (instr : Instruction) (after : Machine ρ) : Prop where
  parts : ∀ part, part ∉ instr.footprint → part.Kept m after
  keys : after.keys = m.keys
  loaded : after.loaded = m.loaded
  -- a timer that an instruction sets or leaves, and a tick counts down to zero at most
  delay : after.delay.toNat
    = (m.delayAfter instr).toNat - m.variant.timerMode.ticksPerInstruction
  sound : after.sound.toNat
    = (m.soundAfter instr).toNat - m.variant.timerMode.ticksPerInstruction
  counter : after.pc.toNat ∈ m.successors instr
  inMemory : after.pc.toNat < 4096

/-- Retiring an instruction counts the timers down as often as they tick. -/
theorem retire_timers (m : Machine ρ) :
    m.retire.delay.toNat = m.delay.toNat - m.variant.timerMode.ticksPerInstruction ∧
      m.retire.sound.toNat = m.sound.toNat - m.variant.timerMode.ticksPerInstruction := by
  rw [retire]
  cases m.variant.timerMode with
  | perInstruction => exact ⟨Timer.toNat_countdown m.delay, Timer.toNat_countdown m.sound⟩
  | fixed60Hz => exact ⟨rfl, rfl⟩

omit [Host ρ] in
/-- The program counter is none of the parts. -/
theorem kept_moved {pc : UInt16} {part : Part} :
    part.Kept { m with pc } after ↔ part.Kept m after := by
  cases part <;> rfl

/-- The parts do not tell that an instruction was retired. -/
theorem kept_retire {part : Part} : part.Kept m after.retire ↔ part.Kept m after := by
  rw [retire_frame]
  cases part <;> rfl

/-- A step leaves alone what is no part of the footprint of an instruction that it executes. -/
theorem step_kept {part : Part}
    (h : ∀ instr, m.executed? .step = some instr → part ∉ instr.footprint) :
    part.Kept m m.step.2 := by
  rcases m.make_step_cases with ⟨instr, done, hexec, -, -, hrun, hmake⟩ | ⟨-, hmake⟩
  · have hstep : m.step.2 = done.retire := hmake
    rw [hstep]
    exact kept_retire.2 (kept_moved.1 (execute_kept hrun (h instr hexec)))
  · have hstep : m.step.2 = m := hmake
    rw [hstep]
    cases part <;> rfl

/-- A step keeps to the footprint of the instruction that it executes. -/
theorem footprint_step (hm : m.WellFormed) (h : m.executed? .step = some instr) :
    m.Footprint instr m.step.2 := by
  rcases m.make_step_cases with ⟨instr', done, hexec, hpending, hfetch, hrun, hmake⟩ | ⟨hnone, -⟩
  · obtain rfl : instr' = instr := Option.some.inj (hexec.symm.trans h)
    have hstep : m.step = (.ran, done.retire) :=
      (StepCase.executes instr' done hpending hfetch hrun).step_eq
    obtain ⟨hvariant, hkeys, -, hloaded⟩ := execute_frame hrun
    obtain ⟨hdelay, hsound⟩ := execute_timers hrun
    obtain ⟨hdelay', hsound'⟩ := done.retire_timers
    have hmode : done.variant.timerMode = m.variant.timerMode := congrArg Variant.timerMode hvariant
    rw [hmode] at hdelay' hsound'
    have hwell : done.retire.WellFormed := hm.step hstep
    have hpc : done.retire.pc = done.pc := (congrArg Machine.pc done.retire_frame :)
    rw [hstep]
    exact
      { parts := fun part hpart => kept_retire.2 (kept_moved.1 (execute_kept hrun hpart))
        keys := (congrArg Machine.keys done.retire_frame :).trans hkeys
        loaded := (congrArg Machine.loaded done.retire_frame :).trans hloaded
        delay := hdelay ▸ hdelay'
        sound := hsound ▸ hsound'
        counter := hpc ▸ run_counter hrun
        inMemory := hwell.counter }
  · rw [hnone] at h
    cases h

end Machine

end Chip8
