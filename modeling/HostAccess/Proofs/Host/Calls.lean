import HostAccess.Host
import HostAccess.Proofs.Session

/-!
# Calls of a host

A host has some twenty operations. A call is one of them with its arguments
(`HostAccess.HostCall`), and every operation but the questions about the host itself needs one
capability (`HostAccess.HostCall.needs`). A program makes calls until it ends or a restart
replaces it: `HostAccess.Host.steps`.

Whether a call reached the optional libraries does not show in their world, which they may
leave as it was. So what is called of them is kept beside it:
`HostAccess.Surroundings.traced`.
-/

namespace HostAccess

/-! ### Calls of the optional libraries -/

/-- A call of a PAM library, with its answer. -/
inductive PamEvent where
  | start (service user : String) (code : Int32)
  | authenticate (flags code : Int32)
  | checkAccount (flags code : Int32)
  | finish (code : Int32)
  | describe (hasTransaction : Bool) (code : Int32) (text : Option Bytes)
  deriving DecidableEq, Repr

/-- A call of a ZFS library, with its answer. -/
inductive ZfsEvent where
  | init (opened : Bool)
  | datasetExists (name : String) (type answer : Int32)
  | finish
  deriving DecidableEq, Repr

/-- A call of one of the optional libraries. -/
inductive LibraryEvent where
  | pam (event : PamEvent)
  | zfs (event : ZfsEvent)
  deriving DecidableEq, Repr

variable {W L κ : Type}

/-- The same library, with a note of every call kept beside its world. -/
def PamLibrary.noting (library : PamLibrary W) (note : PamEvent → κ) :
    PamLibrary (W × List κ) where
  start service user converse :=
    (library.start service user converse).noting fun code => note (.start service user code)
  authenticate flags :=
    (library.authenticate flags).noting fun code => note (.authenticate flags code)
  checkAccount flags :=
    (library.checkAccount flags).noting fun code => note (.checkAccount flags code)
  finish code := (library.finish code).noting fun _ => note (.finish code)
  describe hasTransaction code :=
    (library.describe hasTransaction code).noting fun text =>
      note (.describe hasTransaction code text)

/-- The same library, with a note of every call kept beside its world. -/
def ZfsLibrary.noting (library : ZfsLibrary W) (note : ZfsEvent → κ) :
    ZfsLibrary (W × List κ) where
  init := library.init.noting fun opened => note (.init opened)
  datasetExists name type :=
    (library.datasetExists name type).noting fun answer => note (.datasetExists name type answer)
  finish := library.finish.noting fun _ => note .finish

/-- **The same surroundings, with the calls of the optional libraries** kept beside the world
of the libraries, in order. -/
def Surroundings.traced (s : Surroundings L) : Surroundings (L × List LibraryEvent) where
  linker := s.linker
  pam := s.pam.noting .pam
  zfs := s.zfs.noting .zfs
  accounts := s.accounts
  identity := s.identity
  run := s.run

/-! ### Calls of a host -/

/-- A call of a host. -/
inductive HostCall where
  | capabilities
  | supports (capability : Capability)
  | settings
  | processes
  | systemMemory
  | lastError
  | canRestart
  | restart (extra : List (String × String))
  | chmod (path : Bytes) (mode : UInt32)
  | chown (path : Bytes) (owner group : UInt32)
  | mode (path : Bytes)
  | makeWritable (path : Bytes)
  | symlink (target link : Bytes)
  | resolveLink (link : Bytes)
  | moveFile (path path' : Bytes)
  | euid
  | egid
  | processUser
  | isUser (name : String)
  | isGroup (name : String)
  | authenticate (service : Option String) (user password : String)
  | checkPamSetup
  | datasetExists (name : String)
  deriving DecidableEq, Repr

/-- The capability that a call needs; none for a question about the host itself. -/
def HostCall.needs : HostCall → Option Capability
  | capabilities | supports _ | settings => none
  | processes => some .processList
  | systemMemory => some .systemMemory
  | lastError => some .errorReporting
  | canRestart | restart _ => some .processRestart
  | chmod .. => some .chmod
  | chown .. => some .chown
  | mode _ => some .fileMode
  | makeWritable _ => some .fileWritable
  | symlink .. => some .symlink
  | resolveLink _ => some .resolveLink
  | moveFile .. => some .windowsFileMove
  | euid | processUser => some .euid
  | egid => some .egid
  | isUser _ => some .unixUser
  | isGroup _ => some .unixGroup
  | authenticate .. | checkPamSetup => some .pamAuth
  | datasetExists _ => some .zfs

/-- What a call that succeeds yields. -/
inductive HostValue where
  | done
  | capabilities (capabilities : CapabilitySet)
  | settings (settings : Settings)
  | processes (processes : List ProcessDescriptor)
  | memory (memory : SystemMemory)
  /-- A restart: what runs in the place of the program. -/
  | plan (plan : RestartPlan)
  | flag (flag : Bool)
  | number (number : UInt32)
  | text (text : String)
  | texts (texts : List String)
  | target (found : Option Bytes)
  | setup (setup : PamSetup)

/-- What a call is answered. -/
abbrev HostAnswer := Except HostError HostValue

namespace Host

/-- Puts a call to a host. -/
def perform (h : Host L) : HostCall → Session (HostWorld L) HostAnswer
  | .capabilities => pure (.ok (.capabilities h.capabilities))
  | .supports capability => pure (.ok (.flag (h.capabilities.contains capability)))
  | .settings => pure (.ok (.settings h.settings))
  | .processes => Except.map .processes <$> h.processes
  | .systemMemory => Except.map .memory <$> h.systemMemory
  | .lastError => Except.map .text <$> h.lastError
  | .canRestart => Except.map .flag <$> h.canRestart
  | .restart extra => Except.map .plan <$> h.restart extra
  | .chmod path mode => Except.map (fun _ => .done) <$> h.chmod path mode
  | .chown path owner group => Except.map (fun _ => .done) <$> h.chown path owner group
  | .mode path => Except.map .number <$> h.mode path
  | .makeWritable path => Except.map (fun _ => .done) <$> h.makeWritable path
  | .symlink target link => Except.map (fun _ => .done) <$> h.symlink target link
  | .resolveLink link => Except.map .target <$> h.resolveLink link
  | .moveFile path path' => Except.map (fun _ => .done) <$> h.moveFile path path'
  | .euid => Except.map .number <$> h.euid
  | .egid => Except.map .number <$> h.egid
  | .processUser => Except.map .text <$> h.processUser
  | .isUser name => Except.map .flag <$> h.isUser name
  | .isGroup name => Except.map .flag <$> h.isGroup name
  | .authenticate service user password =>
      Except.map .texts <$> h.authenticate service user password
  | .checkPamSetup => Except.map .setup <$> h.checkPamSetup
  | .datasetExists name => Except.map .flag <$> h.datasetExists name

/-- Whether an answer means that the program has been replaced, so that nobody reads it. -/
def hasReplaced : HostAnswer → Bool
  | .ok (.plan _) => true
  | _ => false

end Host

/-- A call in the course of a program: the world before it, and what it did. -/
structure HostStep (L : Type) where
  call : HostCall
  before : HostWorld L
  outcome : Outcome (HostWorld L) HostAnswer

/-- **The course of a program** that makes calls of a host, one after the other. It ends early
if a restart replaces the program. -/
def Host.steps (h : Host L) : List HostCall → HostWorld L → List (HostStep L)
  | [], _ => []
  | call :: calls, w =>
    let outcome := (h.perform call).run w
    ⟨call, w, outcome⟩ ::
      if hasReplaced outcome.value then [] else h.steps calls outcome.world

/-- Every step of a course is what its call does in the world before it. -/
theorem Host.outcome_of_mem_steps {h : Host L} {calls : List HostCall} {w : HostWorld L}
    {step : HostStep L} (hstep : step ∈ h.steps calls w) :
    step.outcome = (h.perform step.call).run step.before := by
  induction calls generalizing w with
  | nil => cases hstep
  | cons call calls ih =>
    rcases List.mem_cons.1 hstep with rfl | hrest
    · rfl
    · split at hrest
      · cases hrest
      · exact ih hrest

end HostAccess
