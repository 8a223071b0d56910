/-!
# Platforms

The operating-system family that the library runs on and the width of its words. Together
they decide how a kernel lays out what it returns.
-/

namespace HostAccess

/-- A family of operating systems. -/
inductive Platform where
  | linux
  | macOs
  | solaris
  /-- Any other system of the Unix kind. -/
  | otherUnix
  | windows
  deriving DecidableEq, Repr

namespace Platform

/-- The family this library is built for. -/
def current : Platform := .linux

/-- Whether the family is of the Unix kind. -/
def isUnix : Platform → Bool
  | windows => false
  | _ => true

/-- The name shown to users. -/
def name : Platform → String
  | linux => "linux"
  | macOs => "macos"
  | solaris => "solaris"
  | otherUnix => "unix"
  | windows => "windows"

end Platform

/-- The width of a machine word. -/
inductive WordWidth where
  | bits32
  | bits64
  deriving DecidableEq, Repr

namespace WordWidth

/-- The width this library is built for. -/
def current : WordWidth := .bits64

/-- The number of bits in a word. -/
def bits : WordWidth → Nat
  | bits32 => 32
  | bits64 => 64

end WordWidth

/-- The platform and its width, as status lines show them. -/
def Platform.describe (p : Platform) (w : WordWidth) : String :=
  s!"{p.name} ({w.bits}-bit)"

end HostAccess
