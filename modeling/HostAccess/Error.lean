import HostAccess.Capability
import HostAccess.Errno

/-!
# Why an operation failed

An error names its cause. Its class tells a caller how to react, its code is the
operating system's where the system refused, and its message is what a reader sees.

Two causes are no errors that a caller could be given: there the program stops
(`HostAccess.Halt`). An operation that reaches such a point ends in `HostError.halted`, and
everything that it is part of ends with it.

* `HostAccess.HostError`: the causes;
* `HostAccess.HostError.message`, `HostAccess.HostError.errorClass`,
  `HostAccess.HostError.code?`: the three readings of a cause;
* `HostAccess.HostError.isLinkage`: the one cause that another binding can help with;
* `HostAccess.HostError.halt?`: the two causes that are no errors.
-/

namespace HostAccess

/-! ### Sized queries

A query that first asks for a size and then fetches into a buffer of that size keeps three
numbers. They end up in logs and in the error of a query that gave up. -/

/-- How far a sized query has come. -/
structure QueryState where
  /-- The buffer size of the last fetch. -/
  requested : Nat := 0
  /-- The bytes the last fetch delivered. -/
  returned : Nat := 0
  /-- The fetches repeated so far. -/
  retries : Nat := 0
  deriving DecidableEq, Repr

/-- The state as one line of text. -/
def QueryState.describe (s : QueryState) : String :=
  s!"requested={s.requested} returned={s.returned} retries={s.retries}"

/-! ### Causes -/

/-- Where the program stops instead of answering. -/
inductive Halt where
  /-- A buffer of more bytes than a buffer can have was to be made. -/
  | capacityOverflow
  /-- A field of a record was to be read that does not lie inside the record. -/
  | outsideRecord
  deriving DecidableEq, Repr

/-- What the program says when it stops. -/
def Halt.message : Halt → String
  | capacityOverflow => "capacity overflow"
  | outsideRecord => "field outside record"

/-- How a caller is expected to react to an error. -/
inductive ErrorClass where
  /-- Ask again: the data outgrew the buffer. Only a single call of a query ends so; the
  query itself retries it. -/
  | transientRetryable
  /-- The target may not be inspected. -/
  | permissionDenied
  /-- The host does not offer the operation. -/
  | unsupported
  /-- Everything else. -/
  | fatal
  deriving DecidableEq, Repr

/-- The cause of a failure. -/
inductive HostError where
  /-- The operation's capability is absent. -/
  | unsupported (capability : Capability)
  /-- The operating system refused the operation with a code. -/
  | os (operation : String) (code : Int32) (message : String)
  /-- A library or one of its symbols could not be linked. -/
  | linkage (symbol reason : String)
  /-- A sized query found its buffer too small once more than it may retry. -/
  | retriesExhausted (operation : String) (state : QueryState)
  /-- A link target fills the largest buffer that may be tried. -/
  | pathTooLong (path : String) (limit : Nat)
  /-- Data of the kernel could not be decoded. -/
  | malformed (what : String)
  /-- A login was rejected. -/
  | authentication (service message : String)
  /-- An argument that cannot be passed to the operating system. -/
  | invalidInput (what : String)
  /-- The program stops here. No caller is given this cause. -/
  | halted (why : Halt)
  deriving DecidableEq, Repr

namespace HostError

/-- The operating system's refusal with its own message for the code. -/
def ofCode (operation : String) (code : Int32) : HostError :=
  .os operation code (Errno.message code)

/-- The operating system's code, if it was the system that refused. -/
def code? : HostError → Option Int32
  | .os _ code _ => some code
  | _ => none

/-- How a caller is expected to react. -/
def errorClass : HostError → ErrorClass
  | .unsupported _ => .unsupported
  | .os _ code _ => if Errno.isPermission code then .permissionDenied else .fatal
  | .malformed _ => .permissionDenied
  | _ => .fatal

/-- Whether something could not be linked. Only then may another binding be tried. -/
def isLinkage : HostError → Bool
  | .linkage .. => true
  | _ => false

/-- Why the program stops, if this is where it does. -/
def halt? : HostError → Option Halt
  | .halted why => some why
  | _ => none

theorem halt?_eq_some_iff {e : HostError} {why : Halt} : e.halt? = some why ↔ e = .halted why := by
  cases e <;> simp [halt?]

/-- What a reader sees. -/
def message : HostError → String
  | .unsupported capability =>
    "unsupported operation: " ++ capability.name ++ " not available on this platform"
  | .os operation code message => s!"{operation} failed: {message} (errno {code.toInt})"
  | .linkage symbol reason => s!"failed to link {symbol}: {reason}"
  | .retriesExhausted operation state =>
    s!"{operation}: buffer still undersized after {state.retries} retries " ++
      s!"(last request {state.requested} bytes)"
  | .pathTooLong path limit => s!"target path too long: {path} (limit {limit} bytes)"
  | .malformed what => s!"malformed kernel data: {what}"
  | .authentication service message => s!"PAM authentication via {service} failed: {message}"
  | .invalidInput what => s!"invalid input: {what}"
  | .halted why => why.message

end HostError

end HostAccess
