import Chip8.Machine.Input

/-!
# Chip8 — program images

A program image is raw bytes with a name. It keeps the size that its source declared, and at most as
many bytes as fit into program memory. A source that ends early is no error; one that breaks is,
unless all the bytes that are wanted came before.
-/

namespace Chip8

/-- A program image. -/
structure Rom where
  name : String
  -- the declared size in bytes
  size : Nat
  -- what was read of it
  data : List UInt8
  deriving DecidableEq

/-- A source of bytes that come in chunks; after them it is at its end, or it breaks. -/
structure ByteSource where
  chunks : List (List UInt8)
  breaks : Bool := false
  deriving DecidableEq

namespace ByteSource

/-- Reads bytes up to a limit. Nothing is asked of the source once the limit is reached. -/
def readChunks? (breaks : Bool) (limit : Nat) : List (List UInt8) → Option (List UInt8)
  -- at its end a source tells whether it breaks, but only if it is asked for more
  | [] => if limit = 0 ∨ breaks = false then some [] else none
  | chunk :: rest =>
    if limit = 0 then some []
    else (readChunks? breaks (limit - chunk.length) rest).map (chunk.take limit ++ ·)

/-- Reads bytes up to a limit. -/
def read? (source : ByteSource) (limit : Nat) : Option (List UInt8) :=
  readChunks? source.breaks limit source.chunks

end ByteSource

namespace Rom

/-- An image whose declared size is its length. -/
def ofBytes (name : String) (data : List UInt8) : Rom :=
  ⟨name, data.length, data⟩

/-- The image that a source with a declared size yields, unless the source breaks. -/
def read? (name : String) (size : Nat) (source : ByteSource) : Option Rom :=
  (source.read? (min size programSpace)).map fun data => ⟨name, size, data⟩

/-- The image of a file with this content. -/
def ofFile (name : String) (content : List UInt8) : Rom :=
  ⟨name, content.length, content.take programSpace⟩

end Rom

namespace Machine

variable {ρ : Type}

/-- Loads a program image. -/
def loadRom (m : Machine ρ) (rom : Rom) : Except Fault (Machine ρ) :=
  m.loadDeclared rom.size rom.data

/-- What the load of a program image tells. -/
def loadRomEvents (m : Machine ρ) (rom : Rom) : List Event :=
  match m.loadRom rom with
  | .ok _ => m.loadEvents rom.size rom.data ++ [.romLoaded rom.name]
  | .error _ => []

end Machine

end Chip8
