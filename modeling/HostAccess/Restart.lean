import HostAccess.Error
import HostAccess.Process.Environment
import HostAccess.Session
import HostAccess.Text.Quoted
import HostAccess.Text.Utf8

/-!
# Restarting in place

A program can replace itself by a fresh start of the same program with the same arguments.
The new start inherits the environment, with some entries added, but of the descriptors
only the first three: all others are marked to be closed on the way. Entries that an
environment cannot hold are refused before anything is changed, and so are a program and
arguments that cannot be run.

What a restart asks of the program that it replaces is a record of operations, so that it can
be asked of the program with something else beside it as well.

* `HostAccess.DescriptorTable.markCloseOnExec`: the marking of descriptors;
* `HostAccess.checkEntries`: the check of entries;
* `HostAccess.ProcessImage`: the running program;
* `HostAccess.RestartSteps.restart`, `HostAccess.restart`: the restart.
-/

namespace HostAccess

/-! ### Descriptors -/

/-- An open descriptor. -/
structure Descriptor where
  number : Int32
  /-- Whether a restart closes it. -/
  closeOnExec : Bool
  deriving DecidableEq, Repr

/-- The open descriptors of a process. -/
abbrev DescriptorTable := List Descriptor

namespace DescriptorTable

/-- The numbers from `first` on and below `limit`, in order. -/
def numbers (first limit : Int32) : List Int32 :=
  (List.range (limit.toInt - first.toInt).toNat).map fun i => first + Int32.ofNat i

/-- Whether the descriptor of a number is open. -/
def isOpen (table : DescriptorTable) (number : Int32) : Bool :=
  table.any fun d => d.number == number

/-- Has the descriptor of a number closed by a restart. -/
def setCloseOnExec (table : DescriptorTable) (number : Int32) : DescriptorTable :=
  table.map fun d => if d.number = number then { d with closeOnExec := true } else d

/-- Marking opens and closes nothing. -/
@[simp]
theorem isOpen_setCloseOnExec (table : DescriptorTable) (number number' : Int32) :
    (table.setCloseOnExec number).isOpen number' = table.isOpen number' := by
  unfold isOpen setCloseOnExec
  rw [List.any_map]
  congr 1
  funext d
  by_cases h : d.number = number <;> simp [h]

/-- Marks the descriptors of some numbers, passing over those that are not open: how many
were marked, and the table with the marks. -/
def markNumbers : List Int32 → DescriptorTable → Nat × DescriptorTable
  | [], table => (0, table)
  | number :: rest, table =>
    if table.isOpen number then
      let (marked, table') := markNumbers rest (table.setCloseOnExec number)
      (marked + 1, table')
    else markNumbers rest table

/-- Marks the open descriptors from `first` on and below `limit`. -/
def markCloseOnExec (table : DescriptorTable) (first limit : Int32) : Nat × DescriptorTable :=
  markNumbers (numbers first limit) table

end DescriptorTable

/-! ### Entries -/

/-- Whether an environment cannot hold an entry. -/
def isMalformedEntry (key value : String) : Bool :=
  key.isEmpty || key.toList.contains '=' || key.toList.contains '\x00' ||
    value.toList.contains '\x00'

/-- Refuses entries of which an environment cannot hold one, naming the first. -/
def checkEntries (entries : List (String × String)) : Except HostError Unit :=
  match entries.find? fun entry => isMalformedEntry entry.1 entry.2 with
  | some entry => .error (.invalidInput s!"environment entry {Text.quote entry.1}")
  | none => .ok ()

/-! ### Programs -/

/-- What a restart runs. -/
structure RestartPlan where
  executable : Bytes
  arguments : List Bytes
  deriving DecidableEq, Repr

/-- Refuses a plan of which a text cannot be passed to the system, for which a zero byte ends a
text. -/
def RestartPlan.check (plan : RestartPlan) : Except HostError Unit :=
  match (plan.executable :: plan.arguments).find? fun text => text.contains 0 with
  | some text => .error (.invalidInput s!"interior NUL at {text.idxOf 0}")
  | none => .ok ()

/-- The running program. -/
structure ProcessImage where
  /-- What a restart runs, where that is known. -/
  plan : Option RestartPlan
  environment : Environment
  descriptors : DescriptorTable
  /-- How many descriptors the system lets a program have, where it says so. -/
  openMax : Option Int64
  deriving DecidableEq, Repr

namespace ProcessImage

/-- The first descriptor that a restart closes. -/
def firstClosedDescriptor : Int32 := 3

/-- The number below which descriptors are closed: the system's, or one for where it has none. -/
def descriptorLimit (image : ProcessImage) : Int32 :=
  match image.openMax with
  | some n => if n ≤ 0 then 1024 else if n ≤ 2147483647 then n.toInt32 else 2147483647
  | none => 1024

/-- Sets an entry of the environment. -/
def setEntry (key value : String) : Session ProcessImage Unit :=
  Session.change fun image => { image with environment := image.environment.insert key value }

/-- Marks the descriptors that a restart closes, and counts them. -/
def markDescriptors : Session ProcessImage Nat :=
  Session.consult fun image =>
    let (marked, descriptors) :=
      image.descriptors.markCloseOnExec firstClosedDescriptor image.descriptorLimit
    (marked, { image with descriptors })

end ProcessImage

/-! ### Restarting -/

/-- What a restart asks of the program that it replaces. -/
structure RestartSteps (W : Type) where
  plan : W → Option RestartPlan
  setEntry : String → String → Session W Unit
  markDescriptors : Session W Nat

/-- The steps of a restart of the running program. -/
def ProcessImage.restartSteps : RestartSteps ProcessImage where
  plan := ProcessImage.plan
  setEntry := ProcessImage.setEntry
  markDescriptors := ProcessImage.markDescriptors

/-- Restarts a program by its steps. Whatever may be refused is looked at before the first of
them that changes something. -/
def RestartSteps.restart {W : Type} (steps : RestartSteps W) (log : Logger)
    (run : RestartPlan → Except Int32 Unit) (extra : List (String × String)) :
    Session W (Except HostError RestartPlan) := do
  match ← Session.look steps.plan with
  | none => return .error (.invalidInput "executable or arguments of this process unknown")
  | some plan =>
    match checkEntries extra *> plan.check with
    | .error e => return .error e
    | .ok () =>
      extra.forM fun (key, value) => steps.setEntry key value
      let marked ← steps.markDescriptors
      Session.log log .info <|
        s!"restarting {Text.quote (Utf8.decodeLossy plan.executable)} with " ++
          s!"{plan.arguments.length} arguments, {marked} descriptors close on exec"
      match run plan with
      | .error code => return .error (.ofCode "execv" code)
      | .ok () => return .ok plan

/-- Restarts the program, and tells what runs now. `run` is the system's answer to being
asked to run something: if it is no refusal, the program has been replaced. -/
def restart (log : Logger) (run : RestartPlan → Except Int32 Unit)
    (extra : List (String × String)) : Session ProcessImage (Except HostError RestartPlan) :=
  ProcessImage.restartSteps.restart log run extra

end HostAccess
