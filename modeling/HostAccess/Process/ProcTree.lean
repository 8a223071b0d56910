import HostAccess.Process.Descriptor
import HostAccess.Text.Blank
import HostAccess.Text.Decimal
import HostAccess.Text.Utf8

/-!
# Listings from a directory of processes

Some kernels show their processes as a directory. Every process has a directory of its
own there, named by its number, with the files

* `stat`: `number (name) state parent …`. The process chooses its name, which may hold
  anything, closing parentheses included, so the fields are read after the last one;
* `cmdline` and `environ`: the arguments and the entries of the environment, each with a
  zero byte after it;
* `exe`: a link to the executable.

A process may end between the listing of the directory and the reading of its files, and
many files of other users cannot be read at all. Neither stops a listing.

* `HostAccess.ProcTree`: such a directory, as what reading each of its files answers;
* `HostAccess.ProcTree.enumerate`: the descriptors of its processes;
* `HostAccess.ProcTree.load`: what a process was started with.
-/

namespace HostAccess

/-! ### The contents of the files -/

/-- The texts of data in which each has a zero byte after it. The last zero byte may be
missing, and data of no bytes but one zero has no texts. -/
def zeroFields (data : Bytes) : List String :=
  let body := if data.getLast? = some 0 then data.dropLast else data
  if body.isEmpty then [] else (body.splitOn 0).map Utf8.decodeLossy

/-- What a process was started with, from the contents of its files. -/
def ProcessArguments.ofFiles (execPath : Option String) (cmdline environ : Bytes) :
    ProcessArguments where
  execPath := execPath
  arguments := zeroFields cmdline
  environment := Environment.ofEntries (zeroFields environ)

/-- What follows the last closing parenthesis. -/
def afterName? : List Char → Option (List Char)
  | [] => none
  | c :: cs =>
    match afterName? cs with
    | some rest => some rest
    | none => if c = ')' then some cs else none

/-- The parent that a `stat` file tells: the second word after the name. -/
def statParent? (stat : String) : Option Pid :=
  (afterName? stat.toList).bind fun rest =>
    match Text.wordsOf rest with
    | _state :: parent :: _ => Decimal.int32? (String.ofList parent)
    | _ => none

/-! ### The directory -/

/-- An entry of the directory: what reading each of its files answers, bytes or the code
of a refusal. -/
structure ProcEntry where
  stat : Except Int32 Bytes := .error Errno.noEntry
  cmdline : Except Int32 Bytes := .error Errno.noEntry
  environ : Except Int32 Bytes := .error Errno.noEntry
  /-- The target of the link to the executable. -/
  exe : Except Int32 Bytes := .error Errno.noEntry

/-- An entry that is itself a file, below which nothing can be read. -/
def ProcEntry.plainFile : ProcEntry where
  stat := .error Errno.notDirectory
  cmdline := .error Errno.notDirectory
  environ := .error Errno.notDirectory
  exe := .error Errno.notDirectory

/-- Why a file has no text. -/
inductive NoText where
  | refused (code : Int32)
  | notUtf8
  deriving DecidableEq, Repr

/-- What a reader sees. -/
def NoText.message : NoText → String
  | refused code => Errno.message code
  | notUtf8 => "stream did not contain valid UTF-8"

namespace ProcEntry

/-- The text of the file `stat`. -/
def statText (entry : ProcEntry) : Except NoText String :=
  match entry.stat with
  | .error code => .error (.refused code)
  | .ok bytes =>
    match Utf8.decode? bytes with
    | some text => .ok text
    | none => .error .notUtf8

/-- What an entry tells of how its process was started. Only the arguments must be
readable: without the others the environment is empty and the executable unknown. -/
def arguments (entry : ProcEntry) : Except HostError ProcessArguments :=
  match entry.cmdline with
  | .error code => .error (.ofCode "read cmdline" code)
  | .ok cmdline =>
    let environ := entry.environ.toOption.getD []
    let execPath := entry.exe.toOption.map Utf8.decodeLossy
    .ok (.ofFiles execPath cmdline environ)

end ProcEntry

/-- A directory of processes: its entries by name, in the directory's order, or the code
of the refusal to list it. -/
structure ProcTree where
  entries : Except Int32 (List (Bytes × ProcEntry))

namespace ProcTree

/-! ### Names -/

/-- The process that an entry is named for. Several names can stand for one number. -/
def pidOfName? (name : Bytes) : Option Pid :=
  (Utf8.decode? name).bind Decimal.int32?

/-- The name under which the files of a process are looked for. -/
def nameOfPid (pid : Pid) : Bytes :=
  Utf8.encode (toString pid.toInt)

/-! ### Arguments -/

/-- What a process was started with. -/
def load (tree : ProcTree) (pid : Pid) : Except HostError ProcessArguments :=
  match tree.entries with
  | .error code => .error (.ofCode "read cmdline" code)
  | .ok entries => ((entries.lookup (nameOfPid pid)).getD {}).arguments

/-- The directory as the source of a listing's arguments. -/
def source : ArgumentSource ProcTree := fun pid =>
  Session.look fun tree => tree.load pid

/-! ### Listings -/

/-- The descriptors of those entries that are named for a process and whose `stat` file has
a text. -/
def descriptors (log : Logger) :
    List (Bytes × ProcEntry) → Session ProcTree (List ProcessDescriptor)
  | [] => pure []
  | (name, entry) :: rest =>
    match pidOfName? name with
    | none => descriptors log rest
    | some pid =>
      match entry.statText with
      | .error e => do
        Session.log log .debug s!"pid {pid.toInt} vanished: {e.message}"
        descriptors log rest
      | .ok stat => do
        let others ← descriptors log rest
        return { pid, ppid := statParent? stat, log } :: others

/-- The descriptors of the processes under `root`, in the directory's order. It is empty if
the directory cannot be listed. -/
def enumerate (root : String) (log : Logger) : Session ProcTree (List ProcessDescriptor) := do
  match ← Session.look entries with
  | .error code =>
    Session.log log .warn s!"cannot list {root}: {Errno.message code}"
    return []
  | .ok entries =>
    let ds ← descriptors log entries
    Session.log log .debug s!"{ds.length} processes under {root}"
    return ds

end ProcTree

end HostAccess
