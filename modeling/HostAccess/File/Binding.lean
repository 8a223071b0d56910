import HostAccess.Error
import HostAccess.File.Path
import HostAccess.Session

/-!
# File bindings

A few operations on files have two bindings: one whose entry points are linked when they
are first needed, which may fail, and a portable one, which is always linked. A chain
tries the first and turns to the second only if the first could not be linked. Whatever
else the first answers stands, a refusal too: the second would be refused alike.

* `HostAccess.FileBinding`: the operations;
* `HostAccess.FileBinding.orElse`: the chain of two bindings.
-/

namespace HostAccess

/-- One implementation of the operations that have two. -/
structure FileBinding (W : Type) where
  /-- The name that messages give it. -/
  name : String
  /-- Sets the permission bits of a file. -/
  chmod : (path : Bytes) → (mode : UInt32) → Session W (Except HostError Unit)
  /-- Makes a link to a target. -/
  symlink : (target link : Bytes) → Session W (Except HostError Unit)
  /-- The target of a link; `none` for anything that is no link. -/
  readlink : (link : Bytes) → Session W (Except HostError (Option Bytes))

namespace FileBinding

/-- Answers with a first session, or with a second if something could not be linked. -/
def route {W α : Type} (log : Logger) (operation primary secondary : String)
    (onPrimary onSecondary : Session W (Except HostError α)) :
    Session W (Except HostError α) := do
  match ← onPrimary with
  | .ok a => return .ok a
  | .error e =>
    if e.isLinkage then
      Session.log log .info
        s!"{operation} via {primary} unavailable ({e.message}); trying {secondary}"
      onSecondary
    else
      return .error e

/-- The chain of two bindings. It goes by the name of the first. -/
def orElse {W : Type} (primary secondary : FileBinding W) (log : Logger) : FileBinding W where
  name := primary.name
  chmod path mode := route log "chmod" primary.name secondary.name
    (primary.chmod path mode) (secondary.chmod path mode)
  symlink target link := route log "symlink" primary.name secondary.name
    (primary.symlink target link) (secondary.symlink target link)
  readlink link := route log "readlink" primary.name secondary.name
    (primary.readlink link) (secondary.readlink link)

end FileBinding

end HostAccess
