import HostAccess.Host
import HostAccess.Process.Listing

/-!
# Reports

The command line tells what a host offers and which processes run on it. Its arguments
choose one of three views; the environment of one process is shown without the
capabilities.

* `HostAccess.View`: the views, read from arguments by `HostAccess.View.ofArguments`;
* `HostAccess.Report`: what is written, and the code that the program ends with;
* `HostAccess.Host.report`: the report of a host.
-/

namespace HostAccess

/-! ### Views -/

/-- What is shown. -/
inductive View where
  /-- The forest of processes. -/
  | tree
  /-- A line for each process. -/
  | flat
  /-- The environment of one process. -/
  | environment (pid : Pid)
  deriving DecidableEq, Repr

/-- What is wrong with arguments. -/
inductive UsageError where
  | missingPid
  | unknownArgument (argument : String)
  deriving DecidableEq, Repr

/-- What a reader sees. -/
def UsageError.message : UsageError → String
  | missingPid => "--env needs a numeric PID"
  | unknownArgument argument => s!"unknown argument {argument}"

/-- The view that arguments ask for. Arguments that are not needed are not looked at. -/
def View.ofArguments : List String → Except UsageError View
  | [] => .ok .tree
  | "--flat" :: _ => .ok .flat
  | "--env" :: rest =>
    match rest.head?.bind Decimal.int32? with
    | some pid => .ok (.environment pid)
    | none => .error .missingPid
  | argument :: _ => .error (.unknownArgument argument)

/-! ### Reports -/

/-- What is written to the output and to the error output, and the code that the program
ends with. -/
structure Report where
  code : UInt8 := 0
  output : String := ""
  errors : String := ""
  deriving DecidableEq, Repr

namespace Report

/-- A line of complaint. -/
def complaint (text : String) : String :=
  s!"ptree: {text}\n"

/-- The report on arguments that ask for no view. -/
def ofUsageError (e : UsageError) : Report where
  code := 2
  errors := complaint e.message ++ "usage: ptree [--flat | --env PID]\n"

/-- The report of a failure. -/
def failure (text : String) : Report where
  code := 1
  errors := complaint text

end Report

/-- A listing in a view: its text, or why there is none. -/
def Listing.text {W : Type} (l : Listing W) : View → Session W (Except String String)
  | .tree => do return .ok ((← l.treeText).getD "")
  | .flat => .ok <$> l.flatText
  | .environment pid => do
    match ← l.environmentText pid with
    | some text => return .ok text
    | none => return .error (Listing.noProcess pid)

namespace Host

variable {L : Type}

/-- The line of a capability: whether the host offers it. -/
def capabilityLine (h : Host L) (c : Capability) : String :=
  "  " ++ Text.alignLeft 18 c.name ++ " " ++ if h.capabilities.contains c then "yes" else "-"

/-- The platform and all capabilities, with an empty line at the end. -/
def capabilityTable (h : Host L) : String :=
  Listing.lines <|
    s!"platform: {Platform.current.describe WordWidth.current}" :: "capabilities:" ::
      Capability.all.map h.capabilityLine ++ [""]

/-- The report of a host in a view. -/
def report (h : Host L) (view : View) : Session (HostWorld L) Report := do
  let table := match view with
    | .environment _ => ""
    | _ => h.capabilityTable
  match ← h.processes with
  | .error e => return { Report.failure e.message with output := table }
  | .ok processes =>
    let listing : Listing (HostWorld L) := { processes, source := fun _ => processSource }
    match ← listing.text view with
    | .ok text => return { output := table ++ text }
    | .error text => return { Report.failure text with output := table }

/-- Opens a host and reports on it, with the lines of the log before the complaints. -/
def reportOn (s : Surroundings L) (settings : Settings) (w : HostWorld L)
    (arguments : List String) : Report :=
  match View.ofArguments arguments with
  | .error e => .ofUsageError e
  | .ok view =>
    let outcome := (do (← withLibraries (Host.ofSettings s settings)).report view).run w
    let report := outcome.value
    { report with errors := LogRecord.renderAll outcome.log ++ report.errors }

end Host

end HostAccess
