import HostAccess.Process.Descriptor
import HostAccess.Process.Forest
import HostAccess.Text.Blank

/-!
# Listings as text

A listing is shown in one of three ways: a line for each process in the listing's order,
the forest of processes with children indented below their parents, or the environment of
one process. A process is labelled with its command line, which is fetched when its line
is written.

* `HostAccess.Listing`: the processes and where their arguments come from;
* `HostAccess.Listing.flatText`, `HostAccess.Listing.treeText`,
  `HostAccess.Listing.environmentText`: the three texts.
-/

namespace HostAccess

/-- Processes to be shown. -/
structure Listing (W : Type) where
  processes : List ProcessDescriptor
  /-- Where the arguments of the process at each place come from. -/
  source : Nat → ArgumentSource W

namespace Listing

variable {W : Type}

/-! ### Labels -/

/-- What stands for a command line; one that is empty could not be read. -/
def labelOf (commandLine : String) : String :=
  if commandLine.isEmpty then "[unreadable]" else commandLine

/-- The label of the process at a place, and the listing that keeps its arguments. -/
def label (l : Listing W) (place : Nat) : Session W (String × Listing W) := do
  match l.processes[place]? with
  | none => return (labelOf "", l)
  | some d =>
    let (arguments, d') ← d.demand (l.source place)
    return (labelOf arguments.commandLine, { l with processes := l.processes.set place d' })

/-- The labels of the processes at some places, fetched in their order. -/
def labels (l : Listing W) : List Nat → Session W (List String)
  | [] => pure []
  | place :: rest => do
    let (label, l') ← l.label place
    let others ← l'.labels rest
    return label :: others

/-! ### Texts -/

/-- A number in a column. -/
def column (text : String) : String :=
  Text.alignRight 7 text

/-- The parent as a column shows it. -/
def parentText (ppid : Option Pid) : String :=
  match ppid with
  | some p => toString p.toInt
  | none => "?"

/-- Lines, each with its end. -/
def lines (texts : List String) : String :=
  String.join (texts.map (· ++ "\n"))

/-- A line of the flat listing. -/
def row (pid ppid label : String) : String :=
  column pid ++ " " ++ column ppid ++ "  " ++ label

/-- The line of a process in the flat listing. -/
def flatLine (d : ProcessDescriptor) (label : String) : String :=
  row (toString d.pid.toInt) (parentText d.ppid) label

/-- A heading, and a line for each process in the listing's order. -/
def flatText (l : Listing W) : Session W String := do
  let labels ← l.labels (List.range l.processes.length)
  return lines (row "PID" "PPID" "COMMAND" :: l.processes.zipWith flatLine labels)

/-- The forest of the processes. -/
def forest (l : Listing W) : ProcessForest :=
  .ofParents (l.processes.map fun d => (d.pid, d.ppid))

/-- The line of a process in the forest. -/
def treeLine (b : Branch) (label : String) : String :=
  let indent := String.join (List.replicate b.depth "  ")
  column (toString b.node.pid.toInt) ++ "  " ++ indent ++ label

/-- A line for each branch of the forest in the order of the walk, indented by its depth;
`none` if the walk never ends. -/
def treeText (l : Listing W) : Session W (Option String) := do
  match l.forest.branches with
  | none => return none
  | some branches =>
    let labels ← l.labels (branches.map fun b => b.node.place)
    return some (lines (branches.zipWith treeLine labels))

/-- The label of a process and its environment in the order of the keys; `none` if no
process has the number. Of several, the first is shown. -/
def environmentText (l : Listing W) (pid : Pid) : Session W (Option String) := do
  match l.processes.zipIdx.find? fun (d, _) => d.pid == pid with
  | none => return none
  | some (d, place) =>
    let (arguments, _) ← d.demand (l.source place)
    let entries := arguments.environment.toSortedList.map fun (key, value) => s!"  {key}={value}"
    let shown := if entries.isEmpty then ["  (environment not readable)"] else entries
    return some (lines (s!"pid {pid.toInt}: {labelOf arguments.commandLine}" :: shown))

/-- What is said of a number that no process has. -/
def noProcess (pid : Pid) : String :=
  s!"no process {pid.toInt}"

end Listing

end HostAccess
