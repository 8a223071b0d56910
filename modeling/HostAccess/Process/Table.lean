import HostAccess.Process.ArgumentArea
import HostAccess.Process.Descriptor
import HostAccess.Query
import HostAccess.Settings

/-!
# Listings from a process table

A kernel that keeps its processes in a table answers two sized queries: all records of the
table, and the argument area of one process. A listing is one reading of the table. It is
empty if the table cannot be read, and the arguments of its processes come from the same
kernel when they are asked for. The program stops while it lists if the query stops it, and if
a field of a whole record lies outside the record.

* `HostAccess.TableEnumerator`: an accepted layout and the bound on retries;
* `HostAccess.TableEnumerator.snapshot`: one reading of the table;
* `HostAccess.TableEnumerator.source`: where the arguments come from.
-/

namespace HostAccess

/-- Lists the processes of a kernel that keeps a table of records. -/
structure TableEnumerator where
  layout : RecordLayout
  maxRetries : Nat
  log : Logger
  accepted : layout.Accepted

namespace TableEnumerator

/-- The enumerator for a layout; fails if the layout is not accepted. -/
def ofSettings (layout : RecordLayout) (s : Settings) : Except HostError TableEnumerator :=
  match h : layout.validate with
  | .error e => .error e
  | .ok () => .ok {
      layout
      maxRetries := s.queryMaxRetries.toNat
      log := s.log.named "snapshot"
      accepted := h }

/-- A byte asked for beyond the size of an argument area; without it some kernels deliver
something else. -/
def argumentSlack : Nat := 1

/-- Where the arguments of the processes come from. What a descriptor makes of a query that
stopped the program is seen by nobody. -/
def source {W : Type} (t : TableEnumerator) (kernel : Kernel W) : ArgumentSource W := fun pid => do
  let query : SizedQuery :=
    { maxRetries := t.maxRetries, slack := argumentSlack, log := t.log }
  match ← query.run kernel (.processArguments pid) with
  | .error e => return .error e
  | .ok area => return ProcessArguments.decode area

/-- The listing of a table: a descriptor for each whole record, in order. -/
def list {W : Type} (t : TableEnumerator) (table : Bytes) :
    Session W (Except Halt (List ProcessDescriptor)) := do
  let trailing := table.length % t.layout.stride.toNat
  if trailing ≠ 0 then
    Session.log t.log .debug s!"process table: {trailing} trailing bytes ignored"
  match t.layout.records? table with
  | none => return .error .outsideRecord
  | some records =>
    return .ok (records.map fun (pid, ppid) => { pid, ppid := some ppid, log := t.log })

/-- Reads the table and lists it. A table that cannot be read has an empty listing. -/
def snapshot {W : Type} (t : TableEnumerator) (kernel : Kernel W) :
    Session W (Except Halt (List ProcessDescriptor)) := do
  let query : SizedQuery := { maxRetries := t.maxRetries, log := t.log }
  match ← query.run kernel .allProcesses with
  | .ok table => t.list table
  | .error e =>
    match e.halt? with
    | some why => return .error why
    | none =>
      Session.log t.log .warn s!"process table unavailable: {e.message}"
      return .ok []

end TableEnumerator

end HostAccess
