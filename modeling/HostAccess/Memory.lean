import HostAccess.Error
import HostAccess.Text.Blank
import HostAccess.Text.Decimal

/-!
# Memory figures

The kernel tells its memory in lines `name: number unit`, of which five matter. The order
of the lines does not, nor do lines without a colon or with another name. A figure that is
no number, has an unknown unit or does not fit 64 bits counts as not told.

* `HostAccess.MemoryFigures`: the five figures as told;
* `HostAccess.SystemMemory`: how much memory there is and how much of it is free;
* `HostAccess.SystemMemory.ofText`: the memory that a text tells of.
-/

namespace HostAccess

/-- The number of bytes that the value of a line stands for: a plain number, or a number of
units of 1024 bytes. -/
def memoryFigure? (value : List Char) : Option Nat :=
  match Text.words (String.ofList value) with
  | [] => none
  | number :: rest =>
    (Decimal.unsigned? 64 number).bind fun n =>
      match rest with
      | [] => some n
      | unit :: _ => if unit = "kB" ∧ 1024 * n < UInt64.size then some (1024 * n) else none

/-- The figures that a text tells, in bytes. -/
structure MemoryFigures where
  total : Option Nat := none
  available : Option Nat := none
  free : Option Nat := none
  totalSwap : Option Nat := none
  freeSwap : Option Nat := none
  deriving DecidableEq, Repr

namespace MemoryFigures

/-- Takes what a line tells; a later line of the same name replaces an earlier one. -/
def readLine (f : MemoryFigures) (line : List Char) : MemoryFigures :=
  let name := line.takeWhile (· != ':')
  match line.drop name.length with
  | [] => f
  | _colon :: value =>
    match Text.trim (String.ofList name) with
    | "MemTotal" => { f with total := memoryFigure? value }
    | "MemAvailable" => { f with available := memoryFigure? value }
    | "MemFree" => { f with free := memoryFigure? value }
    | "SwapTotal" => { f with totalSwap := memoryFigure? value }
    | "SwapFree" => { f with freeSwap := memoryFigure? value }
    | _ => f

/-- The figures that the lines of a text tell. -/
def ofText (text : String) : MemoryFigures :=
  (text.toList.splitOn '\n').foldl readLine {}

end MemoryFigures

/-- The memory of a host, in bytes. -/
structure SystemMemory where
  totalPhysical : Nat
  availablePhysical : Nat
  totalSwap : Nat
  availableSwap : Nat
  deriving DecidableEq, Repr

namespace SystemMemory

/-- The memory that figures tell of. Free memory stands in for available memory, which not
every kernel tells, and a host that tells no swap has none. -/
def ofFigures (f : MemoryFigures) : Except HostError SystemMemory :=
  match f.total, f.available <|> f.free with
  | none, _ => .error (.malformed "meminfo: MemTotal")
  | some _, none => .error (.malformed "meminfo: MemFree")
  | some totalPhysical, some availablePhysical => .ok {
      totalPhysical
      availablePhysical
      totalSwap := f.totalSwap.getD 0
      availableSwap := f.freeSwap.getD 0 }

/-- The memory that a text tells of. -/
def ofText (text : String) : Except HostError SystemMemory :=
  ofFigures (.ofText text)

end SystemMemory

end HostAccess
