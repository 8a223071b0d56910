import HostAccess.Error
import HostAccess.Process.Environment
import HostAccess.Process.Layout
import HostAccess.Session

/-!
# Process descriptors

A listing yields a descriptor for each process. The process and its parent are fixed from
the start; what it was started with is fetched from the listing's source when it is first
asked for, and kept. A fetch that fails is kept too, as empty arguments: it mostly means
that the process may not be inspected, which is nothing exceptional.

* `HostAccess.ArgumentSource`: whatever loads the arguments of a process;
* `HostAccess.ProcessDescriptor`: a descriptor;
* `HostAccess.ProcessDescriptor.demand`: its arguments, fetched if they are not yet kept;
* `HostAccess.ProcessDescriptor.read`: the answer to any of the questions one may ask.
-/

namespace HostAccess

/-- Loads what a process was started with. -/
abbrev ArgumentSource (W : Type) :=
  Pid → Session W (Except HostError ProcessArguments)

/-- The source of a host that cannot report arguments. -/
def ArgumentSource.empty {W : Type} : ArgumentSource W :=
  fun _ => pure (.ok {})

/-- A process in a listing. -/
structure ProcessDescriptor where
  pid : Pid
  /-- The parent, where the host reports one. -/
  ppid : Option Pid
  log : Logger
  /-- The arguments, once they were asked for. -/
  kept : Option ProcessArguments := none

/-- A question about a process. -/
inductive Accessor where
  | pid
  | ppid
  | arguments
  | environment
  | commandLine
  | execPath
  | isDecoded
  | description
  deriving DecidableEq, Repr

/-- The answer to a question about a process. -/
inductive Datum where
  | pid (pid : Pid)
  | ppid (ppid : Option Pid)
  | arguments (arguments : List String)
  | environment (environment : Environment)
  | commandLine (line : String)
  | execPath (path : Option String)
  | isDecoded (decoded : Bool)
  | description (text : String)
  deriving DecidableEq, Repr

namespace ProcessDescriptor

/-- Whether the arguments were fetched. -/
def isDecoded (d : ProcessDescriptor) : Bool :=
  d.kept.isSome

/-- The descriptor written out. -/
def describe (d : ProcessDescriptor) : String :=
  let parent := match d.ppid with
    | none => "None"
    | some p => s!"Some({p.toInt})"
  "ProcessDescriptor \x7b " ++
    s!"pid: {d.pid.toInt}, ppid: {parent}, decoded: {d.isDecoded}" ++ " \x7d"

/-- The arguments of a process, and the descriptor that keeps them. -/
def demand {W : Type} (source : ArgumentSource W) (d : ProcessDescriptor) :
    Session W (ProcessArguments × ProcessDescriptor) := do
  match d.kept with
  | some arguments => return (arguments, d)
  | none =>
    match ← source d.pid with
    | .ok arguments => return (arguments, { d with kept := some arguments })
    | .error e =>
      Session.log d.log .debug s!"pid {d.pid.toInt}: arguments unavailable: {e.message}"
      return ({}, { d with kept := some {} })

/-- Answers a question. Only the four about the arguments may fetch them. -/
def read {W : Type} (source : ArgumentSource W) (accessor : Accessor) (d : ProcessDescriptor) :
    Session W (Datum × ProcessDescriptor) :=
  let fetched (view : ProcessArguments → Datum) : Session W (Datum × ProcessDescriptor) := do
    let (arguments, d') ← d.demand source
    return (view arguments, d')
  match accessor with
  | .pid => pure (.pid d.pid, d)
  | .ppid => pure (.ppid d.ppid, d)
  | .arguments => fetched fun a => .arguments a.arguments
  | .environment => fetched fun a => .environment a.environment
  | .commandLine => fetched fun a => .commandLine a.commandLine
  | .execPath => fetched fun a => .execPath a.execPath
  | .isDecoded => pure (.isDecoded d.isDecoded, d)
  | .description => pure (.description d.describe, d)

/-- Answers a question about the process at an index of a list; `none` past its end. -/
def readAt {W : Type} (source : ArgumentSource W) (index : Nat) (accessor : Accessor)
    (ds : List ProcessDescriptor) : Session W (Option Datum × List ProcessDescriptor) :=
  match ds[index]? with
  | none => pure (none, ds)
  | some d => do
    let (datum, d') ← d.read source accessor
    return (some datum, ds.set index d')

end ProcessDescriptor

end HostAccess
