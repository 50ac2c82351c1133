import Chip8.Proofs.History

/-!
# Chip8 — machines that stand still

A machine stands still while its step does not run: it waits for a key, or its next instruction
cannot be executed. How it steps is decided by its *core*, which is all of it but the timers, the
keys and the host, and nothing that happens to it from outside reaches the core: it was used, so it
takes no other program; a poll only ticks it; a key that changes is stored in no register unless one
waits. So a fault is final, and a wait goes on until a key goes down.

Main statements:

* `step_of_core` — machines with one core stand still alike;
* `core_undergoAll` — a machine that stands still keeps its core, whatever happens to it except for
  the key that it waits for;
* `failed_for_good` — a machine whose step fails never gets over it.
-/

namespace Chip8

namespace Machine

variable {ρ : Type}

/-! ## Cores -/

/-- What a machine is apart from its timers, its keys and its host. -/
def core (m : Machine ρ) : Machine Unit :=
  { m with host := (), delay := 0, sound := 0, keys := .allUp }

theorem isInitial_of_core {m m' : Machine ρ} (h : m'.core = m.core) :
    m'.isInitial = m.isInitial := by
  have hpc : m'.pc = m.pc := (congrArg Machine.pc h :)
  have hcycles : m'.cycles = m.cycles := (congrArg Machine.cycles h :)
  have hloaded : m'.loaded = m.loaded := (congrArg Machine.loaded h :)
  rw [isInitial, hpc, hcycles, hloaded, isInitial]

theorem tryLoad_of_used {m : Machine ρ} (hused : m.isInitial = false) (size : Nat)
    (data : List UInt8) : m.tryLoad size data = m := by
  rw [tryLoad, loadDeclared_of_used hused]

/-- A change of a key leaves the core alone, unless it is a key that is waited for. -/
theorem core_applyChange {m : Machine ρ} {change : KeyChange}
    (h : ∀ key, change = .press key → Keypad.isKey key → m.pending = none) :
    (m.applyChange change).core = m.core := by
  cases change with
  | press key =>
    rw [applyChange, press]
    by_cases hkey : Keypad.isKey key
    · have hpending := h key rfl hkey
      simp [core, hkey, hpending]
    · rw [if_neg hkey]
  | release key =>
    rw [applyChange, release]
    split <;> rfl

variable [Host ρ]

theorem core_tick (m : Machine ρ) : m.tick.core = m.core := rfl

/-! ## Standing still -/

/-- Machines with one core stand still alike. -/
theorem step_of_core {m m' : Machine ρ} {outcome : Outcome} (hcore : m'.core = m.core)
    (hstep : m.step.1 = outcome) (hstill : outcome ≠ .ran) : m'.step = (outcome, m') := by
  have hpending : m'.pending = m.pending := (congrArg Machine.pending hcore :)
  have hpc : m'.pc = m.pc := (congrArg Machine.pc hcore :)
  have hmemory : m'.memory = m.memory := (congrArg Machine.memory hcore :)
  have hstack : m'.stack = m.stack := (congrArg Machine.stack hcore :)
  have hfetch : m'.fetch = m.fetch := by rw [fetch, hmemory, hpc, fetch]
  -- each way of standing still is told from the register that waits, the word and the stack
  have hcase := step_case m
  rw [hstep] at hcase
  refine StepCase.step_eq ?_
  generalize m.step.2 = after at hcase
  cases hcase with
  | waits x pending => exact .waits x (hpending.trans pending)
  | unknown pending fetch =>
    rw [← hmemory, ← hpc] at fetch ⊢
    exact .unknown (hpending.trans pending) (hfetch.trans fetch)
  | overflows nnn pending fetch full =>
    rw [← hpc]
    exact .overflows nnn (hpending.trans pending) (hfetch.trans fetch) (hstack ▸ full)
  | underflows pending fetch empty =>
    rw [← hpc]
    exact .underflows (hpending.trans pending) (hfetch.trans fetch) (hstack.trans empty)
  | executes => exact absurd rfl hstill

theorem core_poll {m : Machine ρ} (hstill : m.step.1 ≠ .ran) (p : Pacer) (now : Nat) :
    (p.poll m now).machine.core = m.core := by
  refine Pacer.catchUp_invariant (fun _ m' => m'.core = m.core) ?_ ?_ ?_ rfl 0 #[]
  · intro _ m' _ h
    exact (core_tick m').trans h
  · intro _ m' after _ _ hrun h
    -- no turn executes an instruction, as the machine stood still all along
    have hstep := step_of_core h rfl hstill
    rw [hrun] at hstep
    exact absurd (congrArg Prod.fst hstep).symm hstill
  · intro _ _ _ _ _ h
    exact h

theorem core_undergo {m : Machine ρ} {op : Operation} (hused : m.isInitial = false)
    (hstill : m.step.1 ≠ .ran)
    (hkey : ∀ key, op = .key (.press key) → Keypad.isKey key → m.pending = none) :
    (m.undergo op).core = m.core := by
  cases op with
  | load size data => rw [undergo, tryLoad_of_used hused]
  | step =>
    have hsame : m.step.2 = m := step_eq_self rfl hstill
    rw [undergo, hsame]
  | key change => exact core_applyChange fun key hpress => hkey key (congrArg Operation.key hpress)
  | tick => exact core_tick m
  | poll p now => exact core_poll hstill p now

/-- A machine that stands still keeps its core until a key goes down that it waits for. -/
theorem core_undergoAll {m : Machine ρ} {ops : List Operation} (hused : m.isInitial = false)
    (hstill : m.step.1 ≠ .ran)
    (hkeys : ∀ key, .key (.press key) ∈ ops → Keypad.isKey key → m.pending = none) :
    (m.undergoAll ops).core = m.core := by
  -- with the core, a machine keeps all that the next operation asks of it
  induction ops generalizing m with
  | nil => rfl
  | cons op ops ih =>
    have hcore : (m.undergo op).core = m.core :=
      core_undergo hused hstill fun key hop => hkeys key (hop ▸ List.mem_cons_self ..)
    have hpending : (m.undergo op).pending = m.pending := (congrArg Machine.pending hcore :)
    have hstep : (m.undergo op).step.1 = m.step.1 := by rw [step_of_core hcore rfl hstill]
    refine (ih ?_ ?_ ?_).trans hcore
    · exact (isInitial_of_core hcore).trans hused
    · rwa [hstep]
    · intro key hmem hkey
      exact hpending.trans (hkeys key (List.mem_cons_of_mem _ hmem) hkey)

theorem pending_of_failed {m : Machine ρ} {fault : Fault} (h : m.step.1 = .failed fault) :
    m.pending = none := by
  have hcase := step_case m
  rw [h] at hcase
  generalize m.step.2 = after at hcase
  cases hcase <;> assumption

end Machine

/-! ## Polls of a machine whose step fails -/

/-- A poll of a machine whose step fails meets the fault if it has an instruction to execute, and
executes none. -/
theorem Pacer.catchUp_of_failed {ρ : Type} [Host ρ] {target quota : Nat} {p : Pacer}
    {m : Machine ρ} {fault : Fault} (hfail : m.step.1 = .failed fault) (ran : Nat)
    (told : Array Event) :
    (catchUp target quota p m ran told).result
        = (if p.cycles < target then .error fault else .ok ran) ∧
      (catchUp target quota p m ran told).pacer.cycles = p.cycles := by
  fun_induction catchUp target quota p m ran told with
  | case1 p m ran told hdue ih =>
    -- a tick does not mend the machine
    have hstep := Machine.step_of_core m.core_tick hfail (by simp)
    exact ih (by rw [hstep])
  | case2 p m ran told hdue hlt after hstep ih => simp [hstep] at hfail
  | case3 p m ran told hdue hlt after hstep ih => simp [hstep] at hfail
  | case4 p m ran told hdue hlt fault' after hstep =>
    obtain rfl : fault' = fault := by simpa [hstep] using hfail
    rw [if_pos hlt]
    exact ⟨rfl, rfl⟩
  | case5 p m ran told hdue hlt =>
    rw [if_neg hlt]
    exact ⟨rfl, rfl⟩

namespace Machine

variable {ρ : Type} [Host ρ]

/-- **Faults are final.** When a step of a machine with a program fails, then whatever happens to
the machine from then on, its steps fail with the same fault, and its registers, its index, its
program counter, its stack, its memory, its display, the register that waits and its count of
instructions stay as they are. Every poll, by any pacer, meets the fault if its target lies ahead of
the pacer, executes nothing and leaves the pacer where it is. -/
theorem failed_for_good {m : Machine ρ} {fault : Fault} (hloaded : m.loaded = true)
    (hfail : m.step.1 = .failed fault) (ops : List Operation) :
    let m' := m.undergoAll ops
    m'.step = (.failed fault, m') ∧ m'.core = m.core ∧
      ∀ (p : Pacer) (now : Nat),
        (p.poll m' now).result = (if p.cycles < p.target now then .error fault else .ok 0) ∧
          (p.poll m' now).pacer.cycles = p.cycles := by
  intro m'
  have hused : m.isInitial = false := by simp [isInitial, hloaded]
  have hstill : m.step.1 ≠ .ran := by simp [hfail]
  have hcore : m'.core = m.core := core_undergoAll hused hstill fun _ _ _ => pending_of_failed hfail
  have hstep : m'.step = (.failed fault, m') := step_of_core hcore hfail (by simp)
  refine ⟨hstep, hcore, fun p now => ?_⟩
  exact Pacer.catchUp_of_failed (by rw [hstep]) 0 #[]

/-- A program of one word that is no instruction, and then every kind of thing that can happen. -/
theorem failed_for_good_unknownOpcode :
    let m := reached {} (SilentHost.mk 0) [.load 2 [0xFF, 0xFF]]
    let p : Pacer := .initial 0 usualRate
    let m' := m.undergoAll
      [.step, .key (.press 5), .tick, .load 2 [0x12, 0x00], .poll p 3000000, .key (.release 5)]
    m.loaded = true ∧ m.step.1 = .failed (.unknownOpcode 0xFFFF) ∧
      m'.step = (.failed (.unknownOpcode 0xFFFF), m') ∧ m'.core = m.core ∧
      (p.poll m' 3000000).result = .error (.unknownOpcode 0xFFFF) ∧
      (p.poll m' 999999).result = .ok 0 := by
  intro m p m'
  have hloaded : m.loaded = true := by decide +kernel
  have hfail : m.step.1 = .failed (.unknownOpcode 0xFFFF) := by decide +kernel
  obtain ⟨hstep, hcore, hpolls⟩ := failed_for_good hloaded hfail
    [.step, .key (.press 5), .tick, .load 2 [0x12, 0x00], .poll p 3000000, .key (.release 5)]
  refine ⟨hloaded, hfail, hstep, hcore, ?_, ?_⟩
  · exact (hpolls p 3000000).1.trans (if_pos (by decide))
  · exact (hpolls p 999999).1.trans (if_neg (by decide))

end Machine

end Chip8
