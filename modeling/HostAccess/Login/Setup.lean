import HostAccess.File.Operations

/-!
# Whether logins can work

PAM reads the passwords of users from the shadow file. A program that may not read it can
check nobody's password but, at best, its own user's. What would help depends on whether
the group of the file may read it.

* `HostAccess.PamSetup`: ready, or who should be given which right;
* `HostAccess.PamSetup.check`: the state of a host.
-/

namespace HostAccess

/-- Whether a program can use PAM with the shadow file. -/
inductive PamSetup where
  | ready
  /-- The shadow file is there, but the program may not read it. The names are those of the
  program's user, of the group of the file and of its owner. -/
  | shadowUnreadable (user : Option String) (group : String) (owner : Option String)
    (groupReadable : Bool)
  deriving DecidableEq, Repr

namespace PamSetup

/-- Where the shadow file is. -/
def shadowPath : String := "/etc/shadow"

/-- Whether nothing has to be done. -/
def isReady : PamSetup → Bool
  | ready => true
  | shadowUnreadable .. => false

/-- What a reader is told to do. -/
def message : PamSetup → String
  | ready => "PAM setup ok"
  | shadowUnreadable user group owner groupReadable =>
    let user := user.getD "the current user"
    if groupReadable then s!"{user} needs to belong to group {group} to read {shadowPath}"
    else
      let owner := owner.getD "its owner"
      let change := s!"add {user} to group {group} and run 'chmod g+r {shadowPath}'"
      s!"either run as {owner}, or {change}"

/-- The permission bit with which the group of a file may read it. -/
def groupReadBit : UInt32 := 0x20

/-- The state of a host whose shadow file is at a path. A host without one is ready. -/
def check (accounts : Accounts) (fs : FileSystem) (path : Bytes) : PamSetup :=
  match if holdsZero path then .error Errno.invalid else fs.stat path with
  | .error _ => ready
  | .ok n =>
    if n.grants fs.caller .read then ready
    else
      shadowUnreadable (accounts.userName? fs.caller.uid) (accounts.groupLabel n.group)
        (accounts.userName? n.owner) (n.mode &&& groupReadBit != 0)

end PamSetup

end HostAccess
