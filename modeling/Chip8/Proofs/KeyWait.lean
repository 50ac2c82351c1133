import Chip8.Proofs.Moves
import Chip8.Proofs.Outcome
import Chip8.Proofs.Standstill

/-!
# Chip8 — waiting for a key

A program and the keypad take turns. An instruction that waits for a key marks a register, and until
a key goes down every step is blocked; neither keys that are down already, nor keys that go up, nor
numbers that mean no key end the wait. The first key that goes down is stored in that register and
nowhere else, and the program goes on behind the instruction.

No key is lost and none is stored twice: a machine has begun just as many waits as keys were stored,
and one more while it waits.

Main statements:

* `keepsWaiting_undergoAll` — a wait goes on until a key goes down, which ends it;
* `wait_make` — how one move changes the balance of waits and keys stored;
* `key_wait_protocol` — both for every history of a new machine.
-/

namespace Chip8

/-- The register that an instruction waits with. -/
def Instruction.awaited? : Instruction → Option UInt8
  | .awaitKey x => some x
  | _ => none

namespace Machine

variable {ρ : Type}

/-! ## Keys that are stored -/

/-- The register that a move writes a key to, if it writes one. -/
def written? (m : Machine ρ) : Move → Option UInt8
  | .key (.press key) => if Keypad.isKey key then m.pending else none
  | _ => none

/-- A key that goes down is written to that register and to no other. -/
theorem v_press (m : Machine ρ) (key : UInt8) :
    (m.press key).v = match m.written? (.key (.press key)) with
      | some x => m.v.assign x key
      | none => m.v := by
  rw [press, written?]
  split <;> rfl

variable [Host ρ]

/-! ## Waits that begin -/

/-- A move executes an instruction that waits for a key. -/
def beginsWait (m : Machine ρ) (move : Move) : Bool :=
  ((m.executed? move).bind Instruction.awaited?).isSome

@[simp] theorem retire_pending (m : Machine ρ) : m.retire.pending = m.pending :=
  (congrArg Machine.pending m.retire_frame :)

/-- No instruction marks a register but the one that waits for a key. -/
theorem execute_pending {instr : Instruction} {m after : Machine ρ}
    (h : execute instr m = .done after) : after.pending = instr.awaited?.or m.pending := by
  cases instr with
  | ret =>
    obtain ⟨address, rest, -, rfl⟩ := done_ret h
    rfl
  | call nnn =>
    obtain ⟨-, rfl⟩ := done_call h
    rfl
  | skipIfByte | skipUnlessByte | skipIfSame | skipIfDiffer | skipIfKey | skipByKey =>
    cases h
    exact (congrArg Machine.pending (skipIf_frame ..) :)
  | _ =>
    cases h
    rfl

/-- Of waits and stored keys, a move that begins a wait leaves the machine waiting, and a move that
stores a key ends the wait; no other move makes a difference. -/
theorem wait_make (m : Machine ρ) (move : Move) :
    (m.beginsWait move).toNat + m.isWaiting.toNat
      = (m.written? move).isSome.toNat + (m.make move).isWaiting.toNat := by
  cases move with
  | load size data =>
    have hpending : (m.tryLoad size data).pending = m.pending :=
      (congrArg Machine.pending (m.tryLoad_frame size data) :)
    simp [beginsWait, executed?, written?, make, isWaiting, hpending]
  | step =>
    rcases m.make_step_cases with ⟨instr, after, hexec, hpending, -, hrun, hmake⟩ | ⟨hexec, hmake⟩
    · have hafter : after.pending = instr.awaited?.or m.pending := (execute_pending hrun :)
      rw [hpending, Option.or_none] at hafter
      simp [beginsWait, hexec, written?, hmake, isWaiting, hpending, hafter]
    · simp [beginsWait, hexec, written?, hmake]
  | key change =>
    cases change with
    | press key =>
      by_cases hkey : Keypad.isKey key
      · simp [beginsWait, executed?, written?, make, applyChange, press, isWaiting, hkey]
      · simp [beginsWait, executed?, written?, make, applyChange, press, hkey]
    | release key =>
      have hpending : (m.release key).pending = m.pending := by
        rw [release]
        split <;> rfl
      simp [beginsWait, executed?, written?, make, applyChange, isWaiting, hpending]
  | tick => simp [beginsWait, executed?, written?, make, isWaiting]

/-- Along a row of moves, waits begun and keys stored differ by what the machine waits for before
and after it. -/
theorem wait_makeAll (m : Machine ρ) (moves : List Move) :
    (m.along moves).countP (fun c => c.1.beginsWait c.2) + m.isWaiting.toNat
      = (m.along moves).countP (fun c => (c.1.written? c.2).isSome)
        + (m.makeAll moves).isWaiting.toNat :=
  along_balance wait_make m moves

/-! ## Waits that go on -/

/-- The wait with a register goes on as it began. -/
structure KeepsWaiting (start m : Machine ρ) (x : UInt8) : Prop where
  -- a step is blocked and changes nothing
  blocked : m.step = (.blocked, m)
  -- nothing changed since but the timers, the keys and the host
  core : m.core = start.core
  -- a key that goes down is stored in the register, and this ends the wait
  stored : ∀ key, Keypad.isKey key → m.press key
    = { m with v := m.v.assign x key, keys := m.keys.put key true, pending := none }
  -- the register that waits reads as the key, every other one as before
  registers : ∀ key, Keypad.isKey key → ∀ y, (m.press key).reg y
    = if Registers.number x = Registers.number y then key else m.reg y
  -- the key is down, every other one is as before
  keys : ∀ key, Keypad.isKey key → ∀ other, (m.press key).keys.isDown other
    = if other = key then true else m.keys.isDown other
  -- the next step fetches where the wait left the program counter
  resumes : ∀ key, Keypad.isKey key → (m.press key).step.1 ≠ .blocked ∧
    (m.press key).pc = start.pc ∧
    (m.press key).fetch = Instruction.decode (start.memory.word start.pc)

/-- A machine with a register that waits, and with the core that it had when the wait began, waits
on. -/
theorem keepsWaiting_of_core {start m : Machine ρ} {x : UInt8} (hpending : m.pending = some x)
    (hcore : m.core = start.core) : KeepsWaiting start m x := by
  have hpc : m.pc = start.pc := (congrArg Machine.pc hcore :)
  have hmemory : m.memory = start.memory := (congrArg Machine.memory hcore :)
  have hwait : m.isWaiting = true := by rw [isWaiting, hpending, Option.isSome_some]
  have hstored : ∀ key, Keypad.isKey key → m.press key
      = { m with v := m.v.assign x key, keys := m.keys.put key true, pending := none } := by
    intro key hkey
    rw [press, if_pos hkey, hpending]
  constructor
  case blocked => exact step_of_isWaiting hwait
  case core => exact hcore
  case stored => exact hstored
  case registers =>
    intro key hkey y
    rw [hstored key hkey]
    exact Registers.value_assign ..
  case keys =>
    intro key hkey other
    rw [hstored key hkey]
    exact Keypad.isDown_put hkey true other
  case resumes =>
    intro key hkey
    rw [hstored key hkey]
    refine ⟨?_, hpc, ?_⟩
    · rw [Ne, step_fst_eq_blocked]
      simp
    · rw [fetch]
      exact congrArg Instruction.decode (by rw [hmemory, hpc])

/-- A wait goes on until a key goes down. -/
theorem keepsWaiting_undergoAll {m : Machine ρ} {x : UInt8} {later : List Operation}
    (hexec : m.executed? .step = some (.awaitKey x))
    (hkeys : ∀ key, .key (.press key) ∈ later → ¬ Keypad.isKey key) :
    KeepsWaiting m.step.2 (m.step.2.undergoAll later) x := by
  rcases m.make_step_cases with ⟨instr, after, hexec', hpending, -, hrun, hmake⟩ | ⟨hnone, -⟩
  · obtain rfl : instr = .awaitKey x := Option.some.inj (hexec'.symm.trans hexec)
    have hnext : m.step.2 = after.retire := hmake
    have hwaits : m.step.2.pending = some x := by
      rw [hnext, retire_pending, execute_pending hrun]
      rfl
    -- an instruction was executed, so no program is taken any more
    have hused : m.step.2.isInitial = false := by
      rw [hnext, isInitial, retire_cycles]
      simp
    have hstill : m.step.2.step.1 ≠ .ran := by
      rw [step_of_isWaiting (by rw [isWaiting, hwaits, Option.isSome_some])]
      simp
    have hcore : (m.step.2.undergoAll later).core = m.step.2.core :=
      core_undergoAll hused hstill fun key hmem hkey => absurd hkey (hkeys key hmem)
    have hwaits' : (m.step.2.undergoAll later).pending = some x :=
      (congrArg Machine.pending hcore :).trans hwaits
    exact keepsWaiting_of_core hwaits' hcore
  · rw [hnone] at hexec
    cases hexec

/-! ## Every history -/

/-- **The key-wait protocol.** In every history of a new machine, a wait that an instruction began
goes on until a key goes down, which is stored in the register that waits and nowhere else; a key
that goes down while no register waits is stored in none; and the instructions executed that wait
for a key are as many as the keys that were stored, and one more if the machine waits. -/
theorem key_wait_protocol (variant : Variant) (host : ρ) (ops : List Operation) :
    let m := reached variant host ops
    let course := (initial variant host).course ops
    (∀ x later, m.executed? .step = some (.awaitKey x) →
      (∀ key, .key (.press key) ∈ later → ¬ Keypad.isKey key) →
      KeepsWaiting m.step.2 (m.step.2.undergoAll later) x) ∧
    (∀ key, m.pending = none → (m.press key).v = m.v) ∧
    (∀ key, (m.press key).v = match m.written? (.key (.press key)) with
      | some x => m.v.assign x key
      | none => m.v) ∧
    course.countP (fun c => c.1.beginsWait c.2)
      = course.countP (fun c => (c.1.written? c.2).isSome) + if m.isWaiting then 1 else 0 := by
  intro m course
  refine ⟨fun x later => keepsWaiting_undergoAll, ?_, m.v_press, ?_⟩
  · intro key hpending
    rw [v_press, written?, hpending, ite_self]
  · -- a new machine does not wait, so the balance is what the last machine waits for
    have hbalance := (initial variant host).wait_makeAll ((initial variant host).moves ops)
    have hnew : (initial variant host).isWaiting = false := rfl
    have hlast : (initial variant host).makeAll ((initial variant host).moves ops) = m :=
      makeAll_moves _ ops
    rw [hnew, hlast, Bool.toNat_false, Nat.add_zero, ← Machine.course] at hbalance
    have hcount : m.isWaiting.toNat = if m.isWaiting then 1 else 0 := by
      cases m.isWaiting <;> rfl
    rwa [hcount] at hbalance

/-- A wait with a key held down that goes up, a number that means no key, a tick, a program that is
refused and a poll on the way. -/
theorem key_wait_protocol_ignoring :
    let m := reached {} (SilentHost.mk 0) [.load 2 [0xF3, 0x0A], .key (.press 7)]
    let later : List Operation := [.step, .key (.release 7), .key (.press 16), .tick,
      .load 2 [0x12, 0x00], .poll (.initial 0 usualRate) 5000000]
    m.executed? .step = some (.awaitKey 3) ∧
    (∀ key, .key (.press key) ∈ later → ¬ Keypad.isKey key) ∧
    KeepsWaiting m.step.2 (m.step.2.undergoAll later) 3 ∧
    m.pending = none ∧ (m.press 5).v = m.v := by
  intro m later
  have hexec : m.executed? .step = some (.awaitKey 3) := by decide +kernel
  have hkeys : ∀ key, .key (.press key) ∈ later → ¬ Keypad.isKey key := by
    intro key hmem
    have h16 : key = 16 := by simpa [later] using hmem
    subst h16
    decide
  have hpending : m.pending = none := by decide +kernel
  obtain ⟨hkeeps, hwrites, -⟩ := key_wait_protocol {} (SilentHost.mk 0)
    [.load 2 [0xF3, 0x0A], .key (.press 7)]
  exact ⟨hexec, hkeys, hkeeps 3 later hexec hkeys, hpending, hwrites 5 hpending⟩

end Machine

end Chip8
