/-!
# Command lines with quoting

Some systems keep the arguments of a process as one line of text. Spaces and tabs separate
arguments outside quotes, and

* a double quote opens and closes quoting, within an argument too;
* two double quotes inside quotes are a double quote of the argument;
* backslashes stand for themselves, except in a run before a double quote, where two stand
  for one and a backslash left over makes the quote part of the argument.

What a character means depends on what comes before it and on nothing after it: a run of
backslashes is counted until its end shows what it meant, and a quote inside quotes closes
them unless the next character is another quote.

* `HostAccess.LineScan`: where a scan of a line stands;
* `HostAccess.splitCommandLine`: the arguments of a line.
-/

namespace HostAccess

/-- Whether a scan stands inside quotes. -/
inductive Quoting where
  | outside
  | inside
  /-- Behind a quote that closes quoting unless another follows at once. -/
  | closing
  deriving DecidableEq, Repr

/-- What quoting is once a character other than a quote follows. -/
def Quoting.settled : Quoting → Quoting
  | closing => outside
  | q => q

/-- Where a scan of a line stands. -/
structure LineScan where
  /-- The arguments that are complete, latest first. -/
  complete : List String := []
  /-- The argument under way, last character first; `none` between arguments. -/
  current : Option (List Char) := none
  /-- The backslashes at the end of the argument under way. -/
  slashes : Nat := 0
  quoting : Quoting := .outside
  deriving DecidableEq, Repr

namespace LineScan

/-- The argument under way with the backslashes at its end. -/
def argument? (s : LineScan) : Option (List Char) :=
  s.current.map fun cs => List.replicate s.slashes '\\' ++ cs

/-- Adds a character to the argument under way. -/
def push (s : LineScan) (c : Char) (quoting : Quoting) : LineScan :=
  { s with current := some (c :: s.argument?.getD []), slashes := 0, quoting }

/-- Ends the argument under way, if there is one. -/
def endArgument (s : LineScan) : LineScan where
  complete :=
    match s.argument? with
    | some cs => String.ofList cs.reverse :: s.complete
    | none => s.complete

/-- Reads a double quote. -/
def readQuote (s : LineScan) : LineScan :=
  let halved := { s with current := some (s.current.getD []), slashes := s.slashes / 2 }
  if s.slashes % 2 = 1 then halved.push '"' s.quoting
  else
    let settled := { halved with current := halved.argument?, slashes := 0 }
    match s.quoting with
    | .outside => { settled with quoting := .inside }
    | .inside => { settled with quoting := .closing }
    | .closing => settled.push '"' .inside

/-- Reads a character. -/
def read (s : LineScan) (c : Char) : LineScan :=
  if c = '"' then s.readQuote
  else
    let quoting := s.quoting.settled
    if c = '\\' then
      { s with current := some (s.current.getD []), slashes := s.slashes + 1, quoting }
    else if (c = ' ' ∨ c = '\t') ∧ quoting = .outside then s.endArgument
    else s.push c quoting

/-- The arguments once the line has ended. -/
def arguments (s : LineScan) : List String :=
  s.endArgument.complete.reverse

end LineScan

/-- The arguments of a line. -/
def splitCommandLine (line : String) : List String :=
  (line.toList.foldl LineScan.read {}).arguments

end HostAccess
