import HostAccess.Account
import HostAccess.Capability.Set
import HostAccess.Dataset
import HostAccess.File.Native
import HostAccess.Login
import HostAccess.Login.Setup
import HostAccess.Memory
import HostAccess.Process.ProcTree
import HostAccess.Restart

/-!
# Hosts

A host is opened with settings. Opening it finds out once and for all which capabilities
it offers: most are always there, logins need a PAM library and datasets a ZFS library.
From then on every operation asks for its capability first, and one whose capability is
absent is refused before it touches anything.

* `HostAccess.Surroundings`: the parts of the outside that never change;
* `HostAccess.HostWorld`: the parts that operations read and change;
* `HostAccess.Host`: an opened host;
* `HostAccess.Host.ofSettings`: opening it;
* the operations, from `HostAccess.Host.processes` on.
-/

namespace HostAccess

/-! ### The outside -/

/-- What operations find in place. `L` is the world of the optional libraries. -/
structure Surroundings (L : Type) where
  linker : Linker
  pam : PamLibrary L
  zfs : ZfsLibrary L
  accounts : Accounts
  /-- The user and the group that the program acts as. -/
  identity : Identity
  /-- The system's answer to being asked to run something in the place of the program. -/
  run : RestartPlan → Except Int32 Unit

/-- What operations read and change. -/
structure HostWorld (L : Type) where
  files : FileHost FileSystem Unit
  libraries : L
  image : ProcessImage
  processes : ProcTree
  /-- What reading the memory figures answers. -/
  memory : Except Int32 String
  /-- The code of the last refusal. -/
  lastError : Int32

/-- An opened host. -/
structure Host (L : Type) where
  surroundings : Surroundings L
  settings : Settings
  capabilities : CapabilitySet
  files : FileBinding (FileHost FileSystem Unit)
  /-- The PAM library, if it could be loaded. -/
  pam : Option (PamLogin L)
  /-- The ZFS library, if it is wanted and could be loaded. -/
  datasets : Option (Datasets L)
  log : Logger

namespace Host

variable {F L : Type}

/-! ### Opening -/

/-- The capabilities that need no library. -/
def baseCapabilities : CapabilitySet :=
  .ofList [.chmod, .chown, .fileMode, .fileWritable, .symlink, .resolveLink, .euid, .egid,
    .unixUser, .unixGroup, .errorReporting, .processRestart, .processList, .systemMemory]

/-- The linked file binding of a program. -/
def nativeFiles (system : FileSystemCalls F) (linker : Linker) (library : Option String)
    (settings : Settings) : NativeFiles F Unit where
  system := system
  resolve := pure (linker.resolve library ["chmod", "symlink", "readlink"])
  linkMinBuffer := settings.linkMinBuffer.toNat
  linkMaxBuffer := settings.linkMaxBuffer.toNat
  log := settings.log

/-- The chain of file bindings, the first of them linked to a library or to the program. -/
def fileChain (system : FileSystemCalls F) (linker : Linker) (library : Option String)
    (settings : Settings) : FileBinding (FileHost F Unit) :=
  (nativeFiles system linker library settings).binding.orElse (.portable system) settings.log

/-- What was loaded, or nothing and a line that says why. -/
def optional {α : Type} (log : Logger) (what : String)
    (loading : Session L (Except HostError α)) : Session L (Option α) := do
  match ← loading with
  | .ok a => return some a
  | .error e =>
    Session.log log .debug s!"{what} unavailable: {e.message}"
    return none

/-- Opens a host. -/
def ofSettings (s : Surroundings L) (settings : Settings) : Session L (Host L) := do
  let log := settings.log.named "unix"
  let groupsOf (user : String) : Session L (Except HostError (List String)) :=
    pure (s.accounts.groupsOf user)
  let pam ← optional log "PAM" (PamLogin.load settings s.linker s.pam groupsOf)
  let found := baseCapabilities.insertIf .pamAuth pam.isSome
  Session.log log .debug s!"unix binding: {found.describe}"
  let datasets ←
    if settings.enableZfs then
      optional settings.log "ZFS" (Datasets.load settings s.linker s.zfs)
    else pure none
  let capabilities := found.insertIf .zfs datasets.isSome
  Session.log settings.log .info <|
    s!"{Platform.current.describe WordWidth.current}: {capabilities.size} capabilities"
  return { surroundings := s, settings, capabilities,
           files := fileChain FileSystem.calls s.linker none settings, pam, datasets, log }

/-- Closes what opening opened. -/
def close (h : Host L) : Session L Unit :=
  match h.datasets with
  | some d => d.close
  | none => pure ()

/-! ### Worlds of parts -/

/-- Runs a session of the files. -/
def withFiles {α : Type} (x : Session (FileHost FileSystem Unit) α) :
    Session (HostWorld L) α :=
  x.within HostWorld.files fun files w => { w with files }

/-- Runs a session of the libraries. -/
def withLibraries {α : Type} (x : Session L α) : Session (HostWorld L) α :=
  x.within HostWorld.libraries fun libraries w => { w with libraries }

/-- Runs a session of the program. -/
def withImage {α : Type} (x : Session ProcessImage α) : Session (HostWorld L) α :=
  x.within HostWorld.image fun image w => { w with image }

/-- Runs a session of the directory of processes. -/
def withProcesses {α : Type} (x : Session ProcTree α) : Session (HostWorld L) α :=
  x.within HostWorld.processes fun processes w => { w with processes }

/-! ### Processes, memory and the program itself -/

/-- The processes of the host. -/
def processes (h : Host L) : Session (HostWorld L) (Except HostError (List ProcessDescriptor)) :=
  h.capabilities.guard .processList <| withProcesses <|
    .ok <$> ProcTree.enumerate "/proc" (h.settings.log.named "procfs")

/-- Where the arguments of the processes come from. -/
def processSource : ArgumentSource (HostWorld L) := fun pid =>
  withProcesses (ProcTree.source pid)

/-- The memory of the host. -/
def systemMemory (h : Host L) : Session (HostWorld L) (Except HostError SystemMemory) :=
  h.capabilities.guard .systemMemory <| Session.look fun w =>
    match w.memory with
    | .error code => .error (.ofCode "read /proc/meminfo" code)
    | .ok text => SystemMemory.ofText text

/-- The message of the last refusal. -/
def lastError (h : Host L) : Session (HostWorld L) (Except HostError String) :=
  h.capabilities.guard .errorReporting <| Session.look fun w => .ok (Errno.message w.lastError)

/-- Whether it is known what a restart runs. -/
def canRestart (h : Host L) : Session (HostWorld L) (Except HostError Bool) :=
  h.capabilities.guard .processRestart <| Session.look fun w => .ok w.image.plan.isSome

/-- Restarts the program with entries added to its environment. -/
def restart (h : Host L) (extra : List (String × String)) :
    Session (HostWorld L) (Except HostError RestartPlan) :=
  h.capabilities.guard .processRestart <|
    withImage (HostAccess.restart h.log h.surroundings.run extra)

/-! ### Files -/

/-- Sets the permission bits of a file. -/
def chmod (h : Host L) (path : Bytes) (mode : UInt32) :
    Session (HostWorld L) (Except HostError Unit) :=
  h.capabilities.guard .chmod <| withFiles (h.files.chmod path mode)

/-- Sets the owners of a file. -/
def chown (h : Host L) (path : Bytes) (owner group : UInt32) :
    Session (HostWorld L) (Except HostError Unit) :=
  h.capabilities.guard .chown <| withFiles (FileHost.chown path owner group)

/-- The whole mode of a file. -/
def mode (h : Host L) (path : Bytes) : Session (HostWorld L) (Except HostError UInt32) :=
  h.capabilities.guard .fileMode <| withFiles (FileHost.mode path)

/-- Lets the owner of a file write it. -/
def makeWritable (h : Host L) (path : Bytes) : Session (HostWorld L) (Except HostError Unit) :=
  h.capabilities.guard .fileWritable <| withFiles (h.files.makeWritable path)

/-- Makes a symbolic link. -/
def symlink (h : Host L) (target link : Bytes) : Session (HostWorld L) (Except HostError Unit) :=
  h.capabilities.guard .symlink do
    Session.log h.log .debug s!"symlink {shownPath link} -> {shownPath target}"
    withFiles (h.files.symlink target link)

/-- The target of a link; `none` for anything that is no link. -/
def resolveLink (h : Host L) (link : Bytes) :
    Session (HostWorld L) (Except HostError (Option Bytes)) :=
  h.capabilities.guard .resolveLink <| withFiles (h.files.readlink link)

/-- Moves a file over another. -/
def moveFile (h : Host L) (path path' : Bytes) : Session (HostWorld L) (Except HostError Unit) :=
  h.capabilities.guard .windowsFileMove <| withFiles (FileHost.move path path')

/-! ### Users and logins -/

/-- The user that the program acts as. -/
def euid (h : Host L) : Session (HostWorld L) (Except HostError UInt32) :=
  h.capabilities.guard .euid <| pure (.ok h.surroundings.identity.uid)

/-- The group that the program acts as. -/
def egid (h : Host L) : Session (HostWorld L) (Except HostError UInt32) :=
  h.capabilities.guard .egid <| pure (.ok h.surroundings.identity.gid)

/-- The name of the user that the program acts as. -/
def processUser (h : Host L) : Session (HostWorld L) (Except HostError String) :=
  h.capabilities.guard .euid <| pure (h.surroundings.accounts.nameOf h.surroundings.identity)

/-- Whether a user exists. -/
def isUser (h : Host L) (name : String) : Session (HostWorld L) (Except HostError Bool) :=
  h.capabilities.guard .unixUser <| pure (.ok (h.surroundings.accounts.user? name).isSome)

/-- Whether a group exists. -/
def isGroup (h : Host L) (name : String) : Session (HostWorld L) (Except HostError Bool) :=
  h.capabilities.guard .unixGroup <| pure (.ok (h.surroundings.accounts.group? name).isSome)

/-- Logs a user in through PAM: the groups of the user. -/
def authenticate (h : Host L) (service : Option String) (user password : String) :
    Session (HostWorld L) (Except HostError (List String)) :=
  h.capabilities.guard .pamAuth <|
    match h.pam with
    | some pam => withLibraries (pam.authenticate service user password)
    | none => pure (.error (.unsupported .pamAuth))

/-- Whether logins can work. -/
def checkPamSetup (h : Host L) : Session (HostWorld L) (Except HostError PamSetup) :=
  h.capabilities.guard .pamAuth <| Session.look fun w =>
    .ok (.check h.surroundings.accounts w.files.files (Utf8.encode PamSetup.shadowPath))

/-- Whether a ZFS dataset exists. -/
def datasetExists (h : Host L) (name : String) : Session (HostWorld L) (Except HostError Bool) :=
  h.capabilities.guard .zfs <|
    match h.datasets with
    | some d => withLibraries (d.exists? name)
    | none => pure (.error (.unsupported .zfs))

end Host

end HostAccess
