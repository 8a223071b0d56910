/-!
# Capabilities

A capability names one group of operations that a host may or may not offer. Callers ask
first; an operation whose capability is absent is refused before it touches anything.

* `HostAccess.Capability`: the capabilities;
* `HostAccess.Capability.all`: all of them, in the order of their values.
-/

namespace HostAccess

/-- A group of operations whose availability depends on the host. -/
inductive Capability where
  /-- List processes with their arguments and environments. -/
  | processList
  | chmod
  | chown
  /-- Read the mode of a file. -/
  | fileMode
  /-- Let the owner of a file write it. -/
  | fileWritable
  /-- Create symbolic links. -/
  | symlink
  /-- Read the targets of symbolic links. -/
  | resolveLink
  | systemMemory
  /-- The effective user. -/
  | euid
  /-- The effective group. -/
  | egid
  /-- Look up users. -/
  | unixUser
  /-- Look up groups. -/
  | unixGroup
  /-- Authenticate through PAM. -/
  | pamAuth
  /-- Look up ZFS datasets. -/
  | zfs
  /-- Move a file over another the way one family of systems needs. -/
  | windowsFileMove
  /-- The message of the last operating-system error. -/
  | errorReporting
  /-- Start the running program afresh in place. -/
  | processRestart
  deriving DecidableEq, Repr

namespace Capability

/-- Every capability, in the order of the values. -/
def all : List Capability :=
  [processList, chmod, chown, fileMode, fileWritable, symlink, resolveLink, systemMemory, euid,
    egid, unixUser, unixGroup, pamAuth, zfs, windowsFileMove, errorReporting, processRestart]

theorem mem_all (c : Capability) : c ∈ all := by
  cases c <;> decide

/-- The number of a capability, from 0 on without gaps. -/
def value : Capability → Nat
  | processList => 0
  | chmod => 1
  | chown => 2
  | fileMode => 3
  | fileWritable => 4
  | symlink => 5
  | resolveLink => 6
  | systemMemory => 7
  | euid => 8
  | egid => 9
  | unixUser => 10
  | unixGroup => 11
  | pamAuth => 12
  | zfs => 13
  | windowsFileMove => 14
  | errorReporting => 15
  | processRestart => 16

theorem value_lt (c : Capability) : c.value < 32 := by
  cases c <;> decide

theorem value_inj {c d : Capability} : c.value = d.value ↔ c = d := by
  cases c <;> cases d <;> decide

/-- The name shown in messages and tables. -/
def name : Capability → String
  | processList => "PROCESS_LIST"
  | chmod => "CHMOD"
  | chown => "CHOWN"
  | fileMode => "FILE_MODE"
  | fileWritable => "FILE_WRITABLE"
  | symlink => "SYMLINK"
  | resolveLink => "RESOLVE_LINK"
  | systemMemory => "SYSTEM_MEMORY"
  | euid => "EUID"
  | egid => "EGID"
  | unixUser => "UNIX_USER"
  | unixGroup => "UNIX_GROUP"
  | pamAuth => "PAM_AUTH"
  | zfs => "ZFS"
  | windowsFileMove => "WINDOWS_FILE_MOVE"
  | errorReporting => "ERROR_REPORTING"
  | processRestart => "PROCESS_RESTART"

/-- The short label used where a set of capabilities is written out. -/
def label : Capability → String
  | processList => "ProcessList"
  | chmod => "Chmod"
  | chown => "Chown"
  | fileMode => "FileMode"
  | fileWritable => "FileWritable"
  | symlink => "Symlink"
  | resolveLink => "ResolveLink"
  | systemMemory => "SystemMemory"
  | euid => "Euid"
  | egid => "Egid"
  | unixUser => "UnixUser"
  | unixGroup => "UnixGroup"
  | pamAuth => "PamAuth"
  | zfs => "Zfs"
  | windowsFileMove => "WindowsFileMove"
  | errorReporting => "ErrorReporting"
  | processRestart => "ProcessRestart"

end Capability

end HostAccess
