import Chip8.Proofs.History

/-!
# Chip8 — one machine in two hosts

A machine knows its host only by the bytes that it is handed and by what it tells of sound. When one
host is a picture of another, in that it hands out the same bytes and is told the same, the machine
in the one goes just like the machine in the other.

Main statements:

* `execute_rehost` and `step_rehost` — an instruction and a step do not see the difference;
* `reached_rehost` — neither does any history.

So a host may keep a record on the side of what it hands out or is told, each entry put behind the
earlier ones: `foldl_snoc`.
-/

namespace Chip8

/-- Entries that are put behind a record one by one stand behind it in their order. -/
theorem foldl_snoc {α : Type} (entries record : List α) :
    entries.foldl (fun record entry => record ++ [entry]) record = record ++ entries := by
  have hfold : entries.foldl (· ++ [·]) record = record ++ (entries.map ([·])).flatten :=
    List.foldl_append_eq_append
  exact hfold.trans (congrArg (record ++ ·) (List.flatMap_singleton' entries))

/-- A picture of a host: it hands out the same bytes and is told the same. -/
structure HostMap (σ ρ : Type) [Host σ] [Host ρ] where
  map : σ → ρ
  nextByte : ∀ host,
    Host.nextByte (map host) = ((Host.nextByte host).1, map (Host.nextByte host).2)
  soundOn : ∀ host, Host.soundOn (map host) = map (Host.soundOn host)
  soundOff : ∀ host, Host.soundOff (map host) = map (Host.soundOff host)

variable {σ ρ : Type} [Host σ] [Host ρ]

namespace Machine

/-- The machine in the picture of its host. -/
def rehost (f : HostMap σ ρ) (m : Machine σ) : Machine ρ :=
  { m with host := f.map m.host }

end Machine

/-- The outcome of an instruction in the picture of the host. -/
def Executed.rehost (f : HostMap σ ρ) : Executed σ → Executed ρ
  | .done after => .done (after.rehost f)
  | .refused fault after => .refused fault (after.rehost f)

namespace Machine

variable (f : HostMap σ ρ) (m : Machine σ)

/-! ## Instructions -/

theorem skipIf_rehost (condition : Bool) :
    (m.rehost f).skipIf condition = (m.skipIf condition).rehost f := by
  unfold skipIf
  split <;> rfl

theorem setSound_rehost (value : UInt8) :
    (m.rehost f).setSound value = (m.setSound value).rehost f := by
  have hon := f.soundOn m.host
  have hoff := f.soundOff m.host
  simp only [setSound, rehost]
  cases Timer.isRunning m.sound <;> cases Timer.isRunning value <;> simp only [hon, hoff]

theorem execute_rehost (instr : Instruction) :
    execute instr (m.rehost f) = (execute instr m).rehost f := by
  cases instr with
  | ret =>
    have hstack : (m.rehost f).stack = m.stack := rfl
    rw [execute, execute, hstack]
    cases m.stack <;> rfl
  | call nnn =>
    have hstack : (m.rehost f).stack = m.stack := rfl
    rw [execute, execute, hstack]
    split <;> rfl
  | skipIfByte | skipUnlessByte | skipIfSame | skipIfDiffer | skipIfKey | skipByKey =>
    exact congrArg Executed.done (skipIf_rehost f m _)
  | setSound x => exact congrArg Executed.done (setSound_rehost f m _)
  | random x nn =>
    have hbyte := f.nextByte m.host
    simp only [execute, rehost, hbyte, Executed.rehost]
  | _ => rfl

/-! ## Steps, ticks and what happens from outside -/

theorem tick_rehost : (m.rehost f).tick = m.tick.rehost f := by
  have hoff := f.soundOff m.host
  by_cases hsound : Timer.runsOut m.sound = true <;> simp [tick, rehost, hsound, hoff]

theorem retire_rehost : (m.rehost f).retire = m.retire.rehost f := by
  have hvariant : (m.rehost f).variant = m.variant := rfl
  rw [retire, retire, hvariant]
  cases m.variant.timerMode with
  | perInstruction => exact tick_rehost f { m with cycles := m.cycles + 1 }
  | fixed60Hz => rfl

theorem step_rehost : (m.rehost f).step = (m.step.1, m.step.2.rehost f) := by
  have hwait : (m.rehost f).isWaiting = m.isWaiting := rfl
  have hfetch : (m.rehost f).fetch = m.fetch := rfl
  have hrun : ∀ instr, (m.rehost f).run instr = (m.run instr).rehost f :=
    execute_rehost f { m with pc := nextAddress m.pc }
  rw [step, step, hwait, hfetch]
  cases m.isWaiting with
  | true => rfl
  | false =>
    cases m.fetch with
    | error fault => rfl
    | ok instr =>
      simp only [hrun]
      cases m.run instr with
      | refused fault after => rfl
      | done after => exact congrArg (Prod.mk Outcome.ran) (retire_rehost f after)

theorem applyChange_rehost (change : KeyChange) :
    (m.rehost f).applyChange change = (m.applyChange change).rehost f := by
  cases change with
  | press key =>
    rw [applyChange, applyChange, press, press]
    split <;> rfl
  | release key =>
    rw [applyChange, applyChange, release, release]
    split <;> rfl

theorem tryLoad_rehost (size : Nat) (data : List UInt8) :
    (m.rehost f).tryLoad size data = (m.tryLoad size data).rehost f := by
  have hinitial : (m.rehost f).isInitial = m.isInitial := rfl
  rw [tryLoad, tryLoad, loadDeclared, loadDeclared, hinitial]
  cases m.isInitial with
  | false => rfl
  | true =>
    by_cases hsize : programSpace < size
    · simp [hsize]
    · simp only [hsize, Bool.not_true, Bool.false_eq_true, if_false]
      rfl

end Machine

theorem Pacer.catchUp_rehost (f : HostMap σ ρ) (target quota : Nat) (p : Pacer) (m : Machine σ)
    (ran : Nat) (told told' : Array Event) :
    effect (catchUp target quota p (m.rehost f) ran told')
      = ((catchUp target quota p m ran told).result, (catchUp target quota p m ran told).pacer,
          (catchUp target quota p m ran told).machine.rehost f) := by
  -- both loops take the same turns, as the pacer and the outcome of a step decide them
  fun_induction catchUp target quota p m ran told generalizing told' with
  | case1 p m ran told hdue ih =>
    rw [catchUp_tick hdue, Machine.tick_rehost]
    exact ih _
  | case2 p m ran told hdue hlt after hstep ih =>
    rw [catchUp_run hdue hlt (by rw [Machine.step_rehost, hstep])]
    exact ih _
  | case3 p m ran told hdue hlt after hstep ih =>
    obtain rfl := Machine.step_eq_self hstep (by simp)
    have hwait : (after.rehost f).isWaiting = true :=
      (Machine.isWaiting_of_step hstep :)
    rw [catchUp_skip hdue hlt hwait]
    exact ih _
  | case4 p m ran told hdue hlt fault after hstep =>
    rw [catchUp_fail hdue hlt (by rw [Machine.step_rehost, hstep])]
    rfl
  | case5 p m ran told hdue hlt =>
    rw [catchUp_reached hdue (Nat.not_lt.1 hlt)]
    rfl

namespace Machine

variable (f : HostMap σ ρ) (m : Machine σ)

theorem undergo_rehost (op : Operation) :
    (m.rehost f).undergo op = (m.undergo op).rehost f := by
  cases op with
  | load size data => exact tryLoad_rehost f m size data
  | step => exact congrArg Prod.snd (step_rehost f m)
  | key change => exact applyChange_rehost f m change
  | tick => exact tick_rehost f m
  | poll p now =>
    have hpoll := Pacer.catchUp_rehost f (p.target now) (p.quota now m.variant.timerMode) p m 0
      #[] #[]
    exact congrArg (fun e => e.2.2) hpoll

theorem undergoAll_rehost (ops : List Operation) :
    (m.rehost f).undergoAll ops = (m.undergoAll ops).rehost f := by
  induction ops generalizing m with
  | nil => rfl
  | cons op ops ih =>
    rw [undergoAll, List.foldl_cons, undergo_rehost]
    exact ih (m.undergo op)

/-- A new machine in the picture of a host goes like the one in the host. -/
theorem reached_rehost (variant : Variant) (host : σ) (ops : List Operation) :
    reached variant (f.map host) ops = (reached variant host ops).rehost f :=
  undergoAll_rehost f (initial variant host) ops

end Machine

end Chip8
