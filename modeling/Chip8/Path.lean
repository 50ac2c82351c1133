/-!
# Chip8 — paths

A path is a row of parts between slashes; empty parts and single dots go nowhere.
-/

namespace Chip8.Path

/-- The parts of a path that go somewhere. -/
def parts (path : String) : List String :=
  (path.splitOn "/").filter fun part => part != "" && part != "."

/-- The name of the file at a path, empty when the path ends by leaving a directory. -/
def name (path : String) : String :=
  match (parts path).getLast? with
  | some ".." => ""
  | some part => part
  | none => ""

/-- The path means a directory by its form. -/
def endsInDirectory (path : String) : Bool :=
  path.endsWith "/" || path.endsWith "/."

/-- Two paths from the same directory lead to the same file by the same way. -/
def sameFile (a b : String) : Bool :=
  parts a == parts b && a.startsWith "/" == b.startsWith "/" &&
    !endsInDirectory a && !endsInDirectory b

end Chip8.Path
