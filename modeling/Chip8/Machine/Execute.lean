import Chip8.Machine
import Chip8.Timer

/-!
# Chip8 — one instruction

What each instruction does to a machine whose program counter already points past it. Only a call
and a return can be refused; their fault names the address of the instruction, which lies two before
the program counter.

A flag is written before the result, so in the flag register the result wins. Offsets from the
index register wrap with its sixteen bits, addresses with the memory's twelve.
-/

namespace Chip8

/-- The address of the instruction after the one at an address. -/
def nextAddress (address : UInt16) : UInt16 :=
  UInt16.ofNat ((address.toNat + 2) % 4096)

/-- The address of the instruction before the one at an address. -/
def previousAddress (address : UInt16) : UInt16 :=
  UInt16.ofNat ((address - 2).toNat % 4096)

/-- The hundreds, tens and ones of a byte. -/
def decimalDigits (b : UInt8) : List UInt8 :=
  [b / 100, b % 100 / 10, b % 10]

/-- How the execution of an instruction went, with the machine that it left. -/
inductive Executed (ρ : Type) where
  -- the instruction took effect
  | done (after : Machine ρ)
  -- the instruction is not possible here
  | refused (fault : Fault) (after : Machine ρ)

namespace Machine

variable {ρ : Type}

/-! ## Parts of instructions -/

/-- The value of a register. -/
def reg (m : Machine ρ) (x : UInt8) : UInt8 :=
  m.v.value x

/-- A register takes a value. -/
def setReg (m : Machine ρ) (x value : UInt8) : Machine ρ :=
  { m with v := m.v.assign x value }

/-- The flag and then a register take their values. -/
def setFlagged (m : Machine ρ) (x value : UInt8) (raised : Bool) : Machine ρ :=
  { m with v := m.v.assignFlagged x value raised }

/-- Skips one instruction under a condition. -/
def skipIf (m : Machine ρ) (condition : Bool) : Machine ρ :=
  if condition then { m with pc := nextAddress m.pc } else m

/-- The key that a register names by its lower four bits is down. -/
def keyInReg (m : Machine ρ) (x : UInt8) : Bool :=
  m.keys.isDown (m.reg x &&& 0xF)

/-- Draws the rows at the index register with their corner at the position in two registers. -/
def drawing (m : Machine ρ) (x y n : UInt8) : Drawing :=
  Drawing.rows ⟨m.frame, false⟩ (m.reg x).toNat (m.reg y).toNat (m.memory.load m.i n.toNat)

/-- The sound timer takes a value; the host is told when that starts or stops the sound. -/
def setSound [Host ρ] (m : Machine ρ) (value : UInt8) : Machine ρ :=
  let host := match Timer.isRunning m.sound, Timer.isRunning value with
    | false, true => Host.soundOn m.host
    | true, false => Host.soundOff m.host
    -- a sound that goes on is not told again
    | _, _ => m.host
  { m with sound := value, host }

/-- The registers up to one of them take the bytes from the index register on. -/
def loadedRegisters (m : Machine ρ) (x : UInt8) : Registers :=
  Vector.ofFn fun k : Fin 16 =>
    if k.val ≤ x.toNat then m.memory.read (m.i + UInt16.ofNat k.val) else m.v.get k

theorem get_loadedRegisters (m : Machine ρ) (x : UInt8) (k : Fin 16) :
    (m.loadedRegisters x).get k
      = if k.val ≤ x.toNat then m.memory.read (m.i + UInt16.ofNat k.val) else m.v.get k :=
  Vector.getElem_ofFn k.isLt

/-! ## The instructions -/

/-- Executes the instruction before the program counter. -/
def execute [Host ρ] (instr : Instruction) (m : Machine ρ) : Executed ρ :=
  match instr with
  | .clear => .done { m with frame := .dark }
  | .ret =>
    match m.stack with
    | [] => .refused (.stackUnderflow (previousAddress m.pc)) m
    | address :: rest => .done { m with stack := rest, pc := address }
  | .jump nnn => .done { m with pc := nnn }
  | .call nnn =>
    -- the counter points past the call already, so it is the address to come back to
    if m.stack.length < stackLimit then .done { m with stack := m.pc :: m.stack, pc := nnn }
    else .refused (.stackOverflow (previousAddress m.pc)) m
  | .skipIfByte x nn => .done (m.skipIf (m.reg x == nn))
  | .skipUnlessByte x nn => .done (m.skipIf (m.reg x != nn))
  | .skipIfSame x y => .done (m.skipIf (m.reg x == m.reg y))
  | .setByte x nn => .done (m.setReg x nn)
  | .addByte x nn => .done (m.setReg x (m.reg x + nn))
  | .copy x y => .done (m.setReg x (m.reg y))
  | .bitOr x y => .done (m.setReg x (m.reg x ||| m.reg y))
  | .bitAnd x y => .done (m.setReg x (m.reg x &&& m.reg y))
  | .bitXor x y => .done (m.setReg x (m.reg x ^^^ m.reg y))
  -- flag and result are both worked out from the registers as they were
  | .add x y =>
    .done (m.setFlagged x (m.reg x + m.reg y) (decide (255 < (m.reg x).toNat + (m.reg y).toNat)))
  | .sub x y => .done (m.setFlagged x (m.reg x - m.reg y) (decide (m.reg y ≤ m.reg x)))
  | .shiftRight x _ => .done (m.setFlagged x (m.reg x >>> 1) (m.reg x &&& 1 == 1))
  | .subFrom x y => .done (m.setFlagged x (m.reg y - m.reg x) (decide (m.reg x ≤ m.reg y)))
  | .shiftLeft x _ => .done (m.setFlagged x (m.reg x <<< 1) (m.reg x >>> 7 == 1))
  | .skipIfDiffer x y => .done (m.skipIf (m.reg x != m.reg y))
  | .setIndex nnn => .done { m with i := nnn }
  | .jumpOffset nnn => .done { m with pc := UInt16.ofNat ((nnn.toNat + (m.reg 0).toNat) % 4096) }
  | .random x nn =>
    -- a byte is taken even if the mask leaves nothing of it
    let (byte, host) := Host.nextByte m.host
    .done { m with host, v := m.v.assign x (byte &&& nn) }
  | .draw x y n =>
    -- the corner is read before the flag is written, which may be one of its registers
    let drawn := m.drawing x y n
    .done { m with
      frame := drawn.frame
      v := m.v.assign Registers.flag (if drawn.hit then 1 else 0) }
  | .skipIfKey x => .done (m.skipIf (m.keyInReg x))
  | .skipByKey x => .done (m.skipIf (m.keyInReg x == m.variant.skipsOnKeyDown))
  | .readDelay x => .done (m.setReg x m.delay)
  | .awaitKey x => .done { m with pending := some x }
  | .setDelay x => .done { m with delay := m.reg x }
  | .setSound x => .done (m.setSound (m.reg x))
  | .addIndex x => .done { m with i := m.i + (m.reg x).toUInt16 }
  | .setGlyph x => .done { m with i := glyphAddress (m.reg x) }
  | .storeDigits x => .done { m with memory := m.memory.store m.i (decimalDigits (m.reg x)) }
  | .storeRegisters x =>
    .done { m with memory := m.memory.store m.i (m.v.toList.take (x.toNat + 1)) }
  | .loadRegisters x => .done { m with v := m.loadedRegisters x }

end Machine

end Chip8
