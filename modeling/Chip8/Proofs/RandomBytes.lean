import Chip8.Host.Seeded
import Chip8.Proofs.Footprint
import Chip8.Proofs.HostMap

/-!
# Chip8 — where random bytes go

One instruction takes a byte from the host, each time one, and nothing else does: not an instruction
that sets the sound timer, of which the host hears as well, not a step that fails or is blocked, not
a tick. So the bytes that a host hands out are received by the instructions that are executed, in
their order, and a host that draws from a generator hands out its bytes from the first one on.

Main statements:

* `taken_makeAll` — a host hands out the bytes that moves receive, and no other;
* `received_in_turn` — from a host that draws from a generator they receive its first bytes;
* `footprint_and_random_bytes` — what a step changes in any history, and where random bytes go.
-/

namespace Chip8

/-! ## What a host hands out -/

/-- What a host keeps of the bytes that it hands out. What it is told of sound leaves that alone. -/
structure Supply (ρ α : Type) [Host ρ] where
  taken : ρ → α
  take : α → UInt8 → α
  nextByte : ∀ host, taken (Host.nextByte host).2 = take (taken host) (Host.nextByte host).1
  soundOn : ∀ host : ρ, taken (Host.soundOn host) = taken host
  soundOff : ∀ host : ρ, taken (Host.soundOff host) = taken host

/-- A host with a record of the bytes that it handed out. -/
structure Tape (ρ : Type) where
  inner : ρ
  bytes : List UInt8 := []
  deriving DecidableEq

variable {ρ α γ : Type} [Host ρ]

/-- A generator is behind the bytes that were drawn from it. -/
def RandomSource.supply (r : RandomSource ρ γ) : Supply ρ γ where
  taken := r.source
  take generator _ := (r.draw generator).2
  nextByte host := (congrArg Prod.snd (r.nextByte host)).symm
  soundOn := r.soundOn
  soundOff := r.soundOff

namespace Tape

instance : Host (Tape ρ) where
  nextByte tape :=
    let (byte, inner) := Host.nextByte tape.inner
    (byte, ⟨inner, tape.bytes ++ [byte]⟩)
  soundOn tape := { tape with inner := Host.soundOn tape.inner }
  soundOff tape := { tape with inner := Host.soundOff tape.inner }
  reportsSound := Host.reportsSound ρ

/-- Without its record the host is what it was. -/
def forget : HostMap (Tape ρ) ρ where
  map := Tape.inner
  nextByte _ := rfl
  soundOn _ := rfl
  soundOff _ := rfl

/-- The record holds every byte. -/
def supply : Supply (Tape ρ) (List UInt8) where
  taken := Tape.bytes
  take bytes byte := bytes ++ [byte]
  nextByte _ := rfl
  soundOn _ := rfl
  soundOff _ := rfl

end Tape

/-- The instruction takes a random byte. -/
def Instruction.isRandom : Instruction → Bool
  | .random _ _ => true
  | _ => false

namespace Machine

variable (s : Supply ρ α)

/-! ## One instruction -/

/-- The byte that an instruction receives from the host, if it asks for one. -/
def handed (m : Machine ρ) : Instruction → Option UInt8
  | .random _ _ => some (Host.nextByte m.host).1
  | _ => none

/-- A host hands out the byte that an instruction receives, and no other. -/
theorem taken_execute {instr : Instruction} {m after : Machine ρ}
    (h : execute instr m = .done after) :
    s.taken after.host = (m.handed instr).toList.foldl s.take (s.taken m.host) := by
  cases instr with
  | random x nn =>
    cases h
    exact s.nextByte m.host
  | setSound x =>
    cases h
    simp only [setSound]
    split
    · exact s.soundOn m.host
    · exact s.soundOff m.host
    · rfl
  | _ =>
    obtain ⟨hhost, -⟩ := execute_host h (by simp) (by simp)
    exact congrArg s.taken hhost

theorem taken_tick (m : Machine ρ) : s.taken m.tick.host = s.taken m.host := by
  rw [tick]
  split
  · exact s.soundOff m.host
  · rfl

theorem taken_retire (m : Machine ρ) : s.taken m.retire.host = s.taken m.host := by
  unfold retire
  split
  · exact taken_tick s { m with cycles := m.cycles + 1 }
  · rfl

/-! ## Moves -/

/-- The byte that a move receives from the host, if it asks for one. -/
def received (m : Machine ρ) (move : Move) : Option UInt8 :=
  (m.executed? move).bind m.handed

/-- A move that receives a byte executes the one instruction that takes one, and masks it. -/
theorem executed?_of_received {m : Machine ρ} {move : Move} {byte : UInt8}
    (h : m.received move = some byte) : byte = (Host.nextByte m.host).1 ∧
      ∃ x nn, m.executed? move = some (.random x nn) ∧ (m.make move).reg x = byte &&& nn := by
  obtain ⟨instr, hexec, hhanded⟩ := Option.bind_eq_some_iff.1 h
  cases instr with
  | random x nn =>
    cases hhanded
    cases move with
    | step =>
      refine ⟨rfl, x, nn, hexec, ?_⟩
      rcases m.make_step_cases with ⟨instr, after, hexec', -, -, hrun, hmake⟩ | ⟨hnone, -⟩
      · obtain rfl : instr = .random x nn := Option.some.inj (hexec'.symm.trans hexec)
        cases hrun
        rw [hmake, retire_frame]
        exact (Registers.value_assign m.v x _ x).trans (if_pos rfl)
      · rw [hnone] at hexec
        cases hexec
    | _ => cases hexec
  | _ => cases hhanded

/-- Just the instruction that takes a byte receives one. -/
theorem isSome_received (m : Machine ρ) (move : Move) :
    (m.received move).isSome = (m.executed? move).any Instruction.isRandom := by
  rw [received]
  cases m.executed? move with
  | none => rfl
  | some instr => cases instr <;> rfl

theorem taken_make (m : Machine ρ) (move : Move) :
    s.taken (m.make move).host = (m.received move).toList.foldl s.take (s.taken m.host) := by
  cases move with
  | load size data =>
    have hhost : (m.tryLoad size data).host = m.host :=
      (congrArg Machine.host (m.tryLoad_frame size data) :)
    exact congrArg s.taken hhost
  | step =>
    rcases m.make_step_cases with ⟨instr, after, hexec, -, -, hrun, hmake⟩ | ⟨hexec, hmake⟩
    · rw [hmake, taken_retire, received, hexec, Option.bind_some]
      have htaken := taken_execute s hrun
      exact htaken
    -- a step that fails or is blocked asks for nothing
    · rw [hmake, received, hexec]
      rfl
  | key change =>
    have hhost : (m.applyChange change).host = m.host :=
      (congrArg Machine.host (m.applyChange_frame change) :)
    exact congrArg s.taken hhost
  | tick => exact taken_tick s m

/-- The bytes that the moves of a course receive, one after another. -/
def receivedIn (course : List (Machine ρ × Move)) : List UInt8 :=
  course.filterMap fun c => c.1.received c.2

theorem receivedIn_along_cons (m : Machine ρ) (move : Move) (moves : List Move) :
    receivedIn (m.along (move :: moves))
      = (m.received move).toList ++ receivedIn ((m.make move).along moves) := by
  cases hreceived : m.received move with
  | none => exact List.filterMap_cons_none hreceived
  | some byte => exact List.filterMap_cons_some hreceived

/-- A host hands out the bytes that the moves of a row receive, and no other. -/
theorem taken_makeAll (m : Machine ρ) (moves : List Move) :
    s.taken (m.makeAll moves).host
      = (receivedIn (m.along moves)).foldl s.take (s.taken m.host) := by
  induction moves generalizing m with
  | nil => rfl
  | cons move moves ih =>
    rw [makeAll_cons, ih, taken_make, receivedIn_along_cons, List.foldl_append]

/-- What a row of moves receives from a host that draws from a generator are the first bytes of the
generator. -/
theorem received_eq_bytesFrom (r : RandomSource ρ γ) (m : Machine ρ) (moves : List Move) :
    receivedIn (m.along moves)
      = bytesFrom r.draw (r.source m.host) (receivedIn (m.along moves)).length := by
  induction moves generalizing m with
  | nil => rfl
  | cons move moves ih =>
    have hsource := taken_make r.supply m move
    rw [receivedIn_along_cons]
    cases hreceived : m.received move with
    | none =>
      rw [hreceived] at hsource
      have hsame : r.source (m.make move).host = r.source m.host := hsource
      rw [Option.toList_none, List.nil_append, ← hsame]
      exact ih (m.make move)
    | some byte =>
      rw [hreceived] at hsource
      have hnext : r.source (m.make move).host = (r.draw (r.source m.host)).2 := hsource
      have hbyte : byte = (r.draw (r.source m.host)).1 :=
        (executed?_of_received hreceived).1.trans (congrArg Prod.fst (r.nextByte m.host)).symm
      rw [Option.toList_some, List.singleton_append, List.length_cons, bytesFrom, ← hbyte,
        ← hnext, ← ih (m.make move)]

/-- The moves of a course that execute the instruction that takes a random byte. -/
def randomIn (course : List (Machine ρ × Move)) : List (Machine ρ × Move) :=
  course.filter fun c => (c.1.executed? c.2).any Instruction.isRandom

/-- Each of these moves receives the byte in its place. -/
theorem map_received_randomIn (course : List (Machine ρ × Move)) :
    (randomIn course).map (fun c => c.1.received c.2) = (receivedIn course).map some := by
  have hreceives : (fun c : Machine ρ × Move => (c.1.executed? c.2).any Instruction.isRandom)
      = Option.isSome ∘ fun c => c.1.received c.2 := by
    funext c
    exact (isSome_received c.1 c.2).symm
  rw [randomIn, receivedIn, List.map_filterMap_some_eq_filter_map_isSome, List.filter_map,
    hreceives]

/-- The moves of a course receive these bytes in turn: each of the moves that take a random byte
gets the byte in its place, under its mask. -/
structure ReceivesInTurn (course : List (Machine ρ × Move)) (bytes : List UInt8) : Prop where
  received : receivedIn course = bytes
  masked : ∀ (j : Nat) (c : Machine ρ × Move), (randomIn course)[j]? = some c →
    ∃ x nn byte, c.1.executed? c.2 = some (.random x nn) ∧ bytes[j]? = some byte ∧
      (c.1.make c.2).reg x = byte &&& nn

theorem receivesInTurn_receivedIn (course : List (Machine ρ × Move)) :
    ReceivesInTurn course (receivedIn course) where
  received := rfl
  masked := by
    intro j c hplace
    have hbyte : (receivedIn course)[j]?.map some = some (c.1.received c.2) := by
      rw [← List.getElem?_map, ← map_received_randomIn, List.getElem?_map, hplace, Option.map_some]
    obtain ⟨byte, hj, hreceived⟩ := Option.map_eq_some_iff.1 hbyte
    obtain ⟨-, x, nn, hexec, hreg⟩ := executed?_of_received hreceived.symm
    exact ⟨x, nn, byte, hexec, hj, hreg⟩

/-- A row of moves receives the first bytes of the generator that the host draws from, one for each
of the moves that take a random byte. -/
theorem received_in_turn (r : RandomSource ρ γ) (m : Machine ρ) (moves : List Move) :
    ReceivesInTurn (m.along moves)
      (bytesFrom r.draw (r.source m.host) (randomIn (m.along moves)).length) := by
  have hlength : (receivedIn (m.along moves)).length = (randomIn (m.along moves)).length := by
    rw [← List.length_map, ← map_received_randomIn, List.length_map]
  have hbytes := received_eq_bytesFrom r m moves
  rw [hlength] at hbytes
  rw [← hbytes]
  exact receivesInTurn_receivedIn (m.along moves)

/-! ## Any history -/

theorem executed?_rehost {σ : Type} [Host σ] (f : HostMap σ ρ) (m : Machine σ) (move : Move) :
    (m.rehost f).executed? move = m.executed? move := by
  cases move with
  | step =>
    have hfetch : (m.rehost f).fetch = m.fetch := rfl
    rw [executed?, executed?, step_rehost, hfetch]
  | _ => rfl

theorem handed_rehost {σ : Type} [Host σ] (f : HostMap σ ρ) (m : Machine σ)
    (instr : Instruction) : (m.rehost f).handed instr = m.handed instr := by
  cases instr with
  | random x nn => exact congrArg (fun drawn => some drawn.1) (f.nextByte m.host)
  | _ => rfl

/-- **Every step keeps to its footprint, and random bytes go in order.** Whatever happened to a
machine in any host, a record of the bytes that the host handed out changes nothing else. A step
that executes an instruction changes what the instruction may change and nothing else, and the host
hands out one byte for the instruction that takes a random byte, none for any other. Up to then it
has handed out the bytes that such instructions received, whatever was refused, failed or waited in
between. If the host draws its bytes from a generator, whichever that is, they received the first
bytes of the generator: the first of them got the first byte under its mask, and so on. So it is in
the seeded host. -/
theorem footprint_and_random_bytes (variant : Variant) (host : ρ) (ops : List Operation) :
    let m := reached variant host ops
    let t := reached variant (⟨host, []⟩ : Tape ρ) ops
    t.rehost Tape.forget = m ∧
    (∀ instr, m.executed? .step = some instr →
      m.Footprint instr m.step.2 ∧
        t.step.2.host.bytes = t.host.bytes ++ (m.handed instr).toList) ∧
    t.host.bytes = receivedIn ((initial variant (⟨host, []⟩ : Tape ρ)).course ops) ∧
    (∀ (γ : Type) (r : RandomSource ρ γ),
      let course := (initial variant host).course ops
      ReceivesInTurn course (bytesFrom r.draw (r.source host) (randomIn course).length)) ∧
    ∀ seed,
      let course := (initial variant (SeededHost.ofSeed seed)).course ops
      ReceivesInTurn course
        (bytesFrom Generator.next (Generator.ofSeed seed) (randomIn course).length) := by
  intro m t
  have htape : t.rehost Tape.forget = m := (reached_rehost Tape.forget variant _ ops).symm
  refine ⟨htape, ?_, ?_, ?_, ?_⟩
  · intro instr hexec
    refine ⟨footprint_step (wellFormed_reached variant host ops) hexec, ?_⟩
    have hexec' : t.executed? .step = some instr := by
      rw [← executed?_rehost Tape.forget, htape, hexec]
    have hbytes : t.step.2.host.bytes = t.host.bytes ++ (t.received .step).toList :=
      (taken_make Tape.supply t .step).trans (foldl_snoc _ _)
    rw [hbytes, received, hexec', Option.bind_some, ← handed_rehost Tape.forget, htape]
  · have htaken := taken_makeAll Tape.supply (initial variant (⟨host, []⟩ : Tape ρ))
      ((initial variant (⟨host, []⟩ : Tape ρ)).moves ops)
    rw [makeAll_moves] at htaken
    exact htaken.trans ((foldl_snoc _ _).trans (List.nil_append _))
  · intro γ r
    exact received_in_turn r (initial variant host) _
  · intro seed
    exact received_in_turn SeededHost.randomSource (initial variant (SeededHost.ofSeed seed)) _

/-- A byte is received, a key is awaited, a load is refused, a byte is received under a mask that
leaves nothing of it. The next step takes the third byte. -/
theorem footprint_and_random_bytes_waiting :
    let ops : List Operation :=
      [.load 8 [0xC0, 0xFF, 0xF1, 0x0A, 0xC2, 0x00, 0xC3, 0x0F], .step, .step, .step, .load 0 [],
        .key (.press 4), .step]
    let host := SeededHost.ofSeed 7
    let m := reached {} host ops
    let t := reached {} (⟨host, []⟩ : Tape SeededHost) ops
    let course := (initial {} host).course ops
    let bytes := bytesFrom Generator.next (Generator.ofSeed 7) 2
    m.executed? .step = some (.random 3 0x0F) ∧ m.Footprint (.random 3 0x0F) m.step.2 ∧
      t.step.2.host.bytes = t.host.bytes ++ [(Host.nextByte m.host).1] ∧
      (randomIn course).length = 2 ∧ receivedIn course = bytes ∧
      ∃ c x nn byte, (randomIn course)[1]? = some c ∧ c.1.executed? c.2 = some (.random x nn) ∧
        bytes[1]? = some byte ∧ (c.1.make c.2).reg x = byte &&& nn := by
  intro ops host m t course bytes
  have hexec : m.executed? .step = some (.random 3 0x0F) := by decide +kernel
  have hlength : (randomIn course).length = 2 := by decide +kernel
  obtain ⟨-, hstep, -, -, hseed⟩ := footprint_and_random_bytes {} host ops
  obtain ⟨hfootprint, hbytes⟩ := hstep _ hexec
  obtain ⟨hturn, hplaces⟩ := hseed 7
  have htwo : 1 < (randomIn course).length := by omega
  obtain ⟨c, hsecond⟩ : ∃ c, (randomIn course)[1]? = some c := ⟨_, List.getElem?_eq_getElem htwo⟩
  obtain ⟨x, nn, byte, hrandom, hbyte, hreg⟩ := hplaces 1 c hsecond
  rw [hlength] at hturn hbyte
  exact ⟨hexec, hfootprint, hbytes, hlength, hturn, c, x, nn, byte, hsecond, hrandom, hbyte, hreg⟩

end Machine

end Chip8
