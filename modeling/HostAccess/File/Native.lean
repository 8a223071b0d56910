import HostAccess.File.Host
import HostAccess.Query.Growing

/-!
# The two file bindings

One binding is always linked. It refuses a path with a zero byte before asking the system to
change anything. Where a link is read, though, every answer that an argument makes no sense is
taken to mean that there is no link, and such a path gets that answer.

The other binding has entry points, which are looked up when the first of them is needed. How
that ended is remembered: the look-up is not repeated, and where it failed every operation fails
alike. A path with a zero byte is refused before the system is asked. The target of a link is
read with a buffer that grows, because the system does not say how long it is.

* `HostAccess.FileBinding.portable`: the binding that is always linked;
* `HostAccess.NativeFiles`: where the entry points come from, and the sizes of the buffers;
* `HostAccess.NativeFiles.resolved`: the look-up, once;
* `HostAccess.NativeFiles.binding`: the binding that may not be linked.
-/

namespace HostAccess

variable {F W : Type}

/-! ### The portable binding -/

/-- What the answer to the reading of a link means: something that is no link, or something
else that makes no sense, has no target. -/
def linkTarget (answer : Except Int32 Bytes) : Except HostError (Option Bytes) :=
  match answer with
  | .ok target => .ok (some target)
  | .error code =>
    if code = Errno.invalid then .ok none else .error (.ofCode "readlink" code)

/-- The binding that is always linked. -/
def FileBinding.portable (system : FileSystemCalls F) : FileBinding (FileHost F W) where
  name := "posix"
  chmod path mode :=
    if holdsZero path then pure (.error (zeroInPath "chmod"))
    else FileHost.update "chmod" (system.chmod path mode)
  symlink target link :=
    if holdsZero target || holdsZero link then pure (.error (zeroInPath "symlink"))
    else FileHost.update "symlink" (system.symlink target link)
  readlink link :=
    Session.look fun host =>
      linkTarget (if holdsZero link then .error Errno.invalid else system.target link host.files)

/-! ### The linked binding -/

/-- How the linked binding is set up. -/
structure NativeFiles (F W : Type) where
  /-- The calls that the entry points make. -/
  system : FileSystemCalls F
  /-- Looks up the entry points. -/
  resolve : Session W (Except HostError Unit)
  /-- The first buffer for a link target. -/
  linkMinBuffer : Nat
  /-- The largest buffer for a link target. -/
  linkMaxBuffer : Nat
  log : Logger

namespace NativeFiles

/-- How the look-up ended, looking up now if that was not done before. -/
def resolution (b : NativeFiles F W) : Session (FileHost F W) Resolution := do
  match ← Session.look FileHost.resolution with
  | some known => return known
  | none =>
    let answer ← b.resolve.within FileHost.linker fun linker host => { host with linker }
    let found : Resolution := match answer with
      | .ok () => .ok ()
      | .error (.linkage symbol reason) => .error (symbol, reason)
      | .error e => .error ("libc", e.message)
    if let .error (.linkage symbol reason) := answer then
      Session.log b.log .debug s!"libc file symbols unavailable: {symbol}: {reason}"
    Session.change fun host => { host with resolution := some found }
    return found

/-- Runs an operation with the entry points. -/
def resolved {α : Type} (b : NativeFiles F W)
    (operation : Session (FileHost F W) (Except HostError α)) :
    Session (FileHost F W) (Except HostError α) := do
  match ← b.resolution with
  | .ok () => operation
  | .error (symbol, reason) => return .error (.linkage symbol reason)

/-- Refuses a path that the entry points cannot be given. -/
def unlessZero {α : Type} (path : Bytes) (x : Session (FileHost F W) (Except HostError α)) :
    Session (FileHost F W) (Except HostError α) :=
  if holdsZero path then
    pure (.error (.invalidInput s!"path contains NUL: {shownPath path}"))
  else x

/-- Reads the target of a link into a buffer. -/
def readInto (b : NativeFiles F W) (link : Bytes) (size : Nat) :
    Session (FileHost F W) (Except HostError GrowingRead) :=
  Session.look fun host =>
    match b.system.readlink link size host.files with
    | .ok (reported, written) => .ok (.filled reported written)
    | .error code =>
      if code = Errno.invalid then .ok .absent else .error (.ofCode "readlink" code)

/-- The binding whose entry points are linked at first use. -/
def binding (b : NativeFiles F W) : FileBinding (FileHost F W) where
  name := "libc"
  chmod path mode := b.resolved <| unlessZero path <|
    FileHost.update "chmod" (b.system.chmod path mode)
  symlink target link := b.resolved <| unlessZero target <| unlessZero link <|
    FileHost.update "symlink" (b.system.symlink target link)
  readlink link := b.resolved <| unlessZero link <|
    readGrowing (shownPath link) b.linkMinBuffer b.linkMaxBuffer (b.readInto link)

end NativeFiles

end HostAccess
