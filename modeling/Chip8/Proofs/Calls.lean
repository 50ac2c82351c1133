import Chip8.Proofs.Moves
import Chip8.Proofs.WellFormed

/-!
# Chip8 — calls and returns

A call pushes the address behind it, a return takes the latest address and goes on there, and
nothing else touches the stack. So from a call on, the address that it pushed and those below it
stay where they are, whatever is called and returned above them, until the stack is as low again as
it was before the call. It can only get there by a return, and that one goes on behind the call.

Main statements:

* `stack_make` — what a move does to the stack;
* `suffix_makeAll` — what lies on the stack stays there until it is returned to;
* `call_return_discipline` — calls and returns in any history, and how many there were.
-/

namespace Chip8

namespace Instruction

def isCall : Instruction → Bool
  | call _ => true
  | _ => false

def isReturn : Instruction → Bool
  | ret => true
  | _ => false

end Instruction

namespace Machine

variable {ρ : Type} [Host ρ]

/-! ## One move -/

/-- A move executes a call. -/
def calls (m : Machine ρ) (move : Move) : Bool :=
  (m.executed? move).any Instruction.isCall

/-- A move executes a return. -/
def returns (m : Machine ρ) (move : Move) : Bool :=
  (m.executed? move).any Instruction.isReturn

theorem execute_stack {instr : Instruction} {m after : Machine ρ}
    (h : execute instr m = .done after) :
    (∃ nnn, instr = .call nnn ∧ after.stack = m.pc :: m.stack) ∨
      (instr = .ret ∧ m.stack = after.pc :: after.stack) ∨
        (instr.isCall = false ∧ instr.isReturn = false ∧ after.stack = m.stack) := by
  cases instr with
  | ret =>
    obtain ⟨address, rest, hstack, rfl⟩ := done_ret h
    exact Or.inr (Or.inl ⟨rfl, hstack⟩)
  | call nnn =>
    obtain ⟨-, rfl⟩ := done_call h
    exact Or.inl ⟨nnn, rfl, rfl⟩
  | skipIfByte | skipUnlessByte | skipIfSame | skipIfDiffer | skipIfKey | skipByKey =>
    cases h
    exact Or.inr (Or.inr ⟨rfl, rfl, (congrArg Machine.stack (skipIf_frame ..) :)⟩)
  | _ =>
    cases h
    exact Or.inr (Or.inr ⟨rfl, rfl, rfl⟩)

/-- The ways in which a move treats the stack. -/
inductive StackCase (m m' : Machine ρ) : Move → Prop where
  -- a call pushes the address behind it
  | calls (nnn : UInt16) (executed : m.executed? .step = some (.call nnn))
      (stack : m'.stack = nextAddress m.pc :: m.stack) : StackCase m m' .step
  -- a return takes the latest address and goes on there
  | returns (executed : m.executed? .step = some .ret) (stack : m.stack = m'.pc :: m'.stack) :
      StackCase m m' .step
  -- anything else leaves the stack alone
  | keeps {move : Move} (no_call : m.calls move = false) (no_return : m.returns move = false)
      (stack : m'.stack = m.stack) : StackCase m m' move

theorem stack_make (m : Machine ρ) (move : Move) : StackCase m (m.make move) move := by
  cases move with
  | load size data => exact .keeps rfl rfl (congrArg Machine.stack (m.tryLoad_frame size data) :)
  | step =>
    rcases m.make_step_cases with ⟨instr, after, hexec, -, -, hrun, hmake⟩ | ⟨hexec, hmake⟩
    · have hpc : after.retire.pc = after.pc := (congrArg Machine.pc after.retire_frame :)
      have hretire : after.retire.stack = after.stack :=
        (congrArg Machine.stack after.retire_frame :)
      rw [hmake]
      rcases execute_stack hrun with
        ⟨nnn, rfl, hstack⟩ | ⟨rfl, hstack⟩ | ⟨hcall, hreturn, hstack⟩
      · exact .calls nnn hexec (hretire.trans hstack)
      · refine .returns hexec ?_
        rw [hpc, hretire]
        exact hstack
      · refine .keeps ?_ ?_ (hretire.trans hstack)
        · rw [calls, hexec, Option.any_some, hcall]
        · rw [returns, hexec, Option.any_some, hreturn]
    · refine .keeps ?_ ?_ (congrArg Machine.stack hmake)
      · rw [calls, hexec, Option.any_none]
      · rw [returns, hexec, Option.any_none]
  | key change => exact .keeps rfl rfl (congrArg Machine.stack (m.applyChange_frame change) :)
  | tick => exact .keeps rfl rfl rfl

/-- A call adds an address to the stack, and a return takes one. -/
theorem depth_make (m : Machine ρ) (move : Move) :
    (m.calls move).toNat + m.stack.length
      = (m.returns move).toNat + (m.make move).stack.length := by
  cases m.stack_make move with
  | calls nnn executed stack =>
    simp [calls, returns, executed, stack, Instruction.isCall, Instruction.isReturn, Nat.add_comm]
  | returns executed stack =>
    simp [calls, returns, executed, stack, Instruction.isCall, Instruction.isReturn, Nat.add_comm]
  | keeps no_call no_return stack => simp [no_call, no_return, stack]

/-- What lies at the bottom of the stack stays there, unless its top address is returned to. -/
theorem suffix_make {m : Machine ρ} {back : UInt16} {rest : List UInt16}
    (h : back :: rest <:+ m.stack) (move : Move) :
    back :: rest <:+ (m.make move).stack ∨
      (move = .step ∧ m.executed? .step = some .ret ∧ (m.make move).stack = rest ∧
        (m.make move).pc = back) := by
  cases m.stack_make move with
  | calls nnn executed stack =>
    rw [stack]
    exact Or.inl (h.trans (List.suffix_cons ..))
  | returns executed stack =>
    rw [stack] at h
    rcases List.suffix_cons_iff.1 h with heq | hbelow
    · obtain ⟨hpc, hrest⟩ := List.cons.inj heq
      exact Or.inr ⟨rfl, executed, hrest.symm, hpc.symm⟩
    · exact Or.inl hbelow
  | keeps _ _ stack =>
    rw [stack]
    exact Or.inl h

/-! ## Rows of moves -/

/-- Before, between and after these moves, the stack never has as many addresses as this one. -/
def Avoids (m : Machine ρ) (moves : List Move) (stack : List UInt16) : Prop :=
  ∀ k ≤ moves.length, (m.makeAll (moves.take k)).stack.length ≠ stack.length

instance (m : Machine ρ) (moves : List Move) (stack : List UInt16) :
    Decidable (m.Avoids moves stack) :=
  inferInstanceAs (Decidable (∀ k ≤ moves.length, _))

theorem suffix_makeAll {m : Machine ρ} {back : UInt16} {rest : List UInt16}
    (h : back :: rest <:+ m.stack) {moves : List Move} (havoids : m.Avoids moves rest) :
    back :: rest <:+ (m.makeAll moves).stack := by
  induction moves generalizing m with
  | nil => exact h
  | cons move moves ih =>
    rw [makeAll_cons]
    rcases suffix_make h move with hkept | ⟨-, -, hreturned, -⟩
    · exact ih hkept fun k hk => havoids (k + 1) (Nat.succ_le_succ hk)
    · -- a return to the address would bring the stack down to the rest
      have hlow := havoids 1 (Nat.succ_le_succ (Nat.zero_le _))
      exact absurd (congrArg List.length hreturned) hlow

/-- A move that brings the stack down to what lies below an address is a return to that address. -/
theorem returned_of_length_eq {m : Machine ρ} {back : UInt16} {rest : List UInt16}
    (h : back :: rest <:+ m.stack) {move : Move} (hlow : (m.make move).stack.length = rest.length) :
    move = .step ∧ m.executed? .step = some .ret ∧ (m.make move).stack = rest ∧
      (m.make move).pc = back := by
  rcases suffix_make h move with hkept | hreturned
  · have hlength := hkept.length_le
    rw [hlow, List.length_cons] at hlength
    omega
  · exact hreturned

/-- An executed call leaves the address behind it on top of the stack. -/
theorem stack_step_of_call {m : Machine ρ} {nnn : UInt16}
    (h : m.executed? .step = some (.call nnn)) : m.step.2.stack = nextAddress m.pc :: m.stack := by
  cases m.stack_make .step with
  | calls nnn' executed stack => exact stack
  | returns executed => simp [h] at executed
  | keeps no_call => simp [calls, h, Instruction.isCall] at no_call

/-! ## Every history -/

/-- **Calls and returns.** When a machine executes a call, in any history, then the address behind
the call and the stack as it was stay on the stack through all moves that follow, until one makes it
as low as it was before the call. That one is a return, which leaves the stack as it was and goes on
behind the call. There are always as many addresses on the stack as calls were executed less the
returns, and never more than sixteen. -/
theorem call_return_discipline (variant : Variant) (host : ρ) (ops : List Operation) :
    let m := reached variant host ops
    let course := (initial variant host).course ops
    (∀ nnn later, m.executed? .step = some (.call nnn) → m.step.2.Avoids later m.stack →
      let inside := m.step.2.makeAll later
      nextAddress m.pc :: m.stack <:+ inside.stack ∧
        ∀ move, (inside.make move).stack.length = m.stack.length →
          move = .step ∧ inside.executed? .step = some .ret ∧
            (inside.make move).stack = m.stack ∧ (inside.make move).pc = nextAddress m.pc) ∧
    course.countP (fun c => c.1.calls c.2)
      = course.countP (fun c => c.1.returns c.2) + m.stack.length ∧
    m.stack.length ≤ 16 := by
  intro m course
  refine ⟨?_, ?_, (wellFormed_reached variant host ops).depth⟩
  · intro nnn later hcall havoids inside
    have hpushed : nextAddress m.pc :: m.stack <:+ m.step.2.stack :=
      stack_step_of_call hcall ▸ List.suffix_refl _
    have hinside : nextAddress m.pc :: m.stack <:+ inside.stack := suffix_makeAll hpushed havoids
    exact ⟨hinside, fun move hlow => returned_of_length_eq hinside hlow⟩
  · have hbalance := along_balance depth_make (initial variant host)
      ((initial variant host).moves ops)
    rw [makeAll_moves, ← Machine.course] at hbalance
    exact hbalance

/-- A call at `0x200` of a subroutine that calls another one. While the first call stands, the other
one is made and left, a key goes down, a tick passes and a program is refused. -/
theorem call_return_discipline_nested :
    let m := reached {} (SilentHost.mk 0)
      [.load 12 [0x22, 0x06, 0x12, 0x02, 0x00, 0x00, 0x22, 0x0A, 0x00, 0xEE, 0x00, 0xEE]]
    let later : List Move := [.step, .key (.press 5), .tick, .load 2 [0x12, 0x00], .step]
    let inside := m.step.2.makeAll later
    m.executed? .step = some (.call 0x206) ∧ m.step.2.Avoids later m.stack ∧
      [0x202] <:+ inside.stack ∧ (inside.make .step).stack.length = m.stack.length ∧
      inside.executed? .step = some .ret ∧ (inside.make .step).stack = m.stack ∧
      (inside.make .step).pc = 0x202 := by
  intro m later inside
  have hcall : m.executed? .step = some (.call 0x206) := by decide +kernel
  have havoids : m.step.2.Avoids later m.stack := by decide +kernel
  have hlow : (inside.make .step).stack.length = m.stack.length := by decide +kernel
  have hback : nextAddress m.pc :: m.stack = [0x202] := by decide +kernel
  obtain ⟨hcalls, -, -⟩ := call_return_discipline {} (SilentHost.mk 0)
    [.load 12 [0x22, 0x06, 0x12, 0x02, 0x00, 0x00, 0x22, 0x0A, 0x00, 0xEE, 0x00, 0xEE]]
  obtain ⟨hinside, hreturns⟩ := hcalls 0x206 later hcall havoids
  obtain ⟨-, hret, hstack, hpc⟩ := hreturns .step hlow
  refine ⟨hcall, havoids, ?_, hlow, hret, hstack, hpc.trans (List.cons.inj hback).1⟩
  rw [← hback]
  exact hinside

end Machine

end Chip8
