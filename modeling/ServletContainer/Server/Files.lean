import ServletContainer.Failure
import ServletContainer.Text.Split

namespace ServletContainer

/-!
# Files

* `Files` — what reading each path gives.
* `Files.bare` — a machine that holds no files of its own.
-/

/-- The files that can be read, by path. -/
abbrev Files := (path : String) → Except IoError String

namespace Files

/-- The greatest length of a path in bytes. -/
def greatestPath : Nat := 4095

/-- The greatest length in bytes of one name in a path. -/
def greatestName : Nat := 255

/-- The first name in a path that has to be looked up: the root, and the steps to a directory itself or to the one
above it, are always there. -/
def firstName? (path : String) : Option String :=
  (Text.pieces '/' path).find? fun name => !(["", ".", ".."].contains name)

/-- The files of a machine that has only its null device, which is empty. Any other path is refused for its form,
leads to a directory that is always there, or leads to nothing. -/
def bare : Files := fun path =>
  if Text.has '\x00' path then .error .zeroInFileName
  else if path = "/dev/null" then .ok ""
  else if greatestPath < path.utf8ByteSize then .error .fileNameTooLong
  else if path.isEmpty then .error .noSuchFile
  else
    match firstName? path with
    | none => .error .isDirectory
    | some name => .error (if greatestName < name.utf8ByteSize then .fileNameTooLong else .noSuchFile)

end Files

end ServletContainer
