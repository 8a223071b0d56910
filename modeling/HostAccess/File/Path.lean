import HostAccess.Bytes
import HostAccess.Errno
import HostAccess.Text.Utf8

/-!
# Paths

A path is a byte string without zero bytes. Slashes separate the names in it, and several
slashes count as one. A slash at the front makes the path start at the root directory
instead of the working directory; one at the end demands that the path leads to a
directory.

* `HostAccess.FilePath`: the parts of a path;
* `HostAccess.FilePath.ofBytes`: the parts of a byte string.
-/

namespace HostAccess

/-- A path or a link target as messages show it. -/
def shownPath (path : Bytes) : String :=
  Utf8.decodeLossy path

/-- Whether a byte string holds a zero byte, so that no system call can be given it. -/
def holdsZero (path : Bytes) : Bool :=
  path.contains 0

/-- The parts of a path. -/
structure FilePath where
  /-- Whether the path starts at the root directory. -/
  absolute : Bool
  /-- The names, without empty ones. -/
  names : List Bytes
  /-- Whether a slash stands at the end. -/
  trailing : Bool
  deriving DecidableEq, Repr

namespace FilePath

/-- The byte that separates names. -/
def slash : UInt8 := 0x2F

/-- The name that every directory has for itself. -/
def dot : Bytes := [0x2E]

/-- The name that every directory has for the one it lies in. -/
def dotDot : Bytes := [0x2E, 0x2E]

/-- The most bytes that a path or a link target may have. -/
def maxLength : Nat := 4095

/-- The most bytes that a name may have. -/
def maxNameLength : Nat := 255

/-- The parts of a byte string of any length. -/
def split (path : Bytes) : FilePath where
  absolute := path.head? == some slash
  names := (path.splitOn slash).filter fun name => !name.isEmpty
  trailing := path.getLast? == some slash

/-- Refuses byte strings that are too short or too long to be passed to the system. -/
def checkLength (path : Bytes) : Except Int32 Unit :=
  if path.isEmpty then .error Errno.noEntry
  else if maxLength < path.length then .error Errno.nameTooLong
  else .ok ()

/-- The parts of a path that is passed to the system. -/
def ofBytes (path : Bytes) : Except Int32 FilePath := do
  checkLength path
  return split path

/-- The names to be walked through, one after the other. A slash at the end has an empty
name behind it: like every step that starts from a directory, so it fails behind anything
else, but it leads nowhere. -/
def steps (p : FilePath) : List Bytes :=
  if p.trailing then p.names ++ [[]] else p.names

end FilePath

end HostAccess
