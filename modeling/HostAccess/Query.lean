import HostAccess.Bytes
import HostAccess.Error
import HostAccess.Process.Layout
import HostAccess.Session

/-!
# Sized queries

Many kernel interfaces work in two calls: one asks how large the answer is, the next
fetches it into a buffer of the caller. The data may change between the two, because
processes start and exit. So

* a fetch into a buffer that turned out too small is followed by a new probe and a new
  fetch, as often as a bound allows;
* a fetch that delivers less than the buffer holds is final, and the answer is cut to it;
* a probe that asks for more than a buffer can hold stops the program.

A kernel here is whatever answers the two calls, and its answers may depend on all calls
before (`HostAccess.Kernel`). `HostAccess.SizedQuery.run` is the query, and
`HostAccess.Kernel.traced` is the same kernel keeping a record of its calls.
-/

namespace HostAccess

/-! ### Kernels -/

/-- What is asked of a kernel. -/
inductive QueryKey where
  /-- The records of every visible process. -/
  | allProcesses
  /-- The argument area of one process. -/
  | processArguments (pid : Pid)
  deriving DecidableEq, Repr

/-- The name of the operation that a key asks for. -/
def QueryKey.operation : QueryKey → String
  | allProcesses => "kern.proc.all"
  | processArguments _ => "kern.procargs2"

/-- How a single call fails. -/
inductive QueryError where
  /-- The buffer is too small for the data of the moment. -/
  | undersized
  /-- Any other refusal. -/
  | os (code : Int32)
  deriving DecidableEq, Repr

/-- How a caller is expected to react to a failed call. -/
def QueryError.errorClass : QueryError → ErrorClass
  | undersized => .transientRetryable
  | os code => if Errno.isPermission code then .permissionDenied else .fatal

/-- What a fetch did to its zeroed buffer: the bytes copied to the front, and the number
of bytes the kernel says it wrote, which need not agree. -/
structure Fetched where
  reported : Nat
  written : Bytes
  deriving DecidableEq, Repr

/-- The delivered part of a buffer of `size` bytes: as much as was reported and fits. -/
def Fetched.delivered (f : Fetched) (size : Nat) : Bytes :=
  Bytes.zeroExtend (min f.reported size) f.written

/-- A kernel that answers sized queries. -/
structure Kernel (W : Type) where
  /-- The number of bytes that a key needs now. -/
  requiredSize : QueryKey → W → Except QueryError Nat × W
  /-- Fetches into a zeroed buffer of the given size. -/
  fetch : QueryKey → Nat → W → Except QueryError Fetched × W

/-! ### The query -/

/-- The bound and the sizes of a query. -/
structure SizedQuery where
  /-- How often a fetch is repeated. -/
  maxRetries : Nat := 16
  /-- Bytes added to every probed size. -/
  slack : Nat := 0
  log : Logger

namespace SizedQuery

/-- The error of a failed probe. A probe has no buffer, so one that claims to be too small
is taken as lack of memory. -/
def probeError (key : QueryKey) : QueryError → HostError
  | .undersized => .ofCode key.operation Errno.noMemory
  | .os code => .ofCode key.operation code

/-- Probes and fetches with `left` retries left. The probed size and the slack are added as
numbers, so a sum that is no machine word is more than a buffer can hold, too. -/
def attempt {W : Type} (q : SizedQuery) (kernel : Kernel W) (key : QueryKey) (left : Nat) :
    Session W (Except HostError Bytes) := do
  let retries := q.maxRetries - left
  match ← Session.consult (kernel.requiredSize key) with
  | .error e => return .error (probeError key e)
  | .ok size =>
    let requested := size + q.slack
    if Bytes.capacity < requested then return .error (.halted .capacityOverflow)
    else
      match ← Session.consult (kernel.fetch key requested) with
      | .ok fetched =>
        let answer := fetched.delivered requested
        let state : QueryState := ⟨requested, answer.length, retries⟩
        Session.log q.log .trace s!"{key.operation}: {state.describe}"
        return .ok answer
      | .error (.os code) => return .error (.ofCode key.operation code)
      | .error .undersized =>
        match left with
        | 0 => return .error (.retriesExhausted key.operation ⟨requested, 0, retries⟩)
        | left + 1 =>
          Session.log q.log .trace
            s!"{key.operation}: undersized at {requested} bytes, retry {retries + 1}"
          attempt q kernel key left

/-- Runs the query: the bytes that the kernel delivered. -/
def run {W : Type} (q : SizedQuery) (kernel : Kernel W) (key : QueryKey) :
    Session W (Except HostError Bytes) :=
  q.attempt kernel key q.maxRetries

end SizedQuery

/-! ### Keeping a record of the calls -/

/-- A call to a kernel. -/
inductive KernelCall where
  | probe (key : QueryKey)
  | fetch (key : QueryKey) (size : Nat)
  deriving DecidableEq, Repr

/-- The same kernel, with the calls made of it kept beside its world, in order. -/
def Kernel.traced {W : Type} (kernel : Kernel W) : Kernel (W × List KernelCall) where
  requiredSize key := fun (w, calls) =>
    let (answer, w') := kernel.requiredSize key w
    (answer, w', calls ++ [.probe key])
  fetch key size := fun (w, calls) =>
    let (answer, w') := kernel.fetch key size w
    (answer, w', calls ++ [.fetch key size])

end HostAccess
