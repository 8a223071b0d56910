import HostAccess.Text.Blank
import HostAccess.Text.Quoted

/-!
# Logging

A logger is a value: every part of the library carries the one it was given. Writing to
it yields a record if the logger's level admits the record's level, and nothing otherwise;
a record is one line of text.

* `HostAccess.LogLevel`: the levels, from silence to everything;
* `HostAccess.Logger`: a level, whether lines are flushed, and a tag;
* `HostAccess.LogRecord`: a line that was admitted;
* `HostAccess.Logger.records`: what writing a message yields.
-/

namespace HostAccess

/-! ### Levels -/

/-- How much is logged, or how important a line is. -/
inductive LogLevel where
  | off
  | error
  | warn
  | info
  | debug
  | trace
  deriving DecidableEq, Repr

namespace LogLevel

/-- The number of a level: more is logged at a higher one. -/
def value : LogLevel → Nat
  | off => 0
  | error => 1
  | warn => 2
  | info => 3
  | debug => 4
  | trace => 5

/-- The level of a number; numbers past the last level mean the last. -/
def ofNumber : Nat → LogLevel
  | 0 => off
  | 1 => error
  | 2 => warn
  | 3 => info
  | 4 => debug
  | _ => trace

/-- Reads a level from its name in any letter case, or from its number. -/
def parse? (s : String) : Option LogLevel :=
  match Text.lowerAscii (Text.trim s) with
  | "off" | "0" => some off
  | "error" | "1" => some error
  | "warn" | "warning" | "2" => some warn
  | "info" | "3" => some info
  | "debug" | "4" => some debug
  | "trace" | "5" => some trace
  | _ => none

/-- What a line of this level begins with, padded to one width. -/
def marker : LogLevel → String
  | off => ""
  | error => "[ERROR]"
  | warn => "[WARN] "
  | info => "[INFO] "
  | debug => "[DEBUG]"
  | trace => "[TRACE]"

/-- The label of a level. -/
def label : LogLevel → String
  | off => "Off"
  | error => "Error"
  | warn => "Warn"
  | info => "Info"
  | debug => "Debug"
  | trace => "Trace"

end LogLevel

/-! ### Loggers and records -/

/-- A line that a logger admitted. -/
structure LogRecord where
  level : LogLevel
  tag : String
  message : String
  deriving DecidableEq, Repr

namespace LogRecord

/-- The line as it is written. -/
def render (r : LogRecord) : String :=
  r.level.marker ++ " " ++ r.tag ++ ": " ++ r.message ++ "\n"

/-- The lines of a log, one after the other. -/
def renderAll (log : List LogRecord) : String :=
  String.join (log.map render)

end LogRecord

/-- Where log lines go, and which. -/
structure Logger where
  level : LogLevel := .info
  /-- Whether the sink is flushed after each line. -/
  flush : Bool := false
  /-- The component named in each line. -/
  tag : String := "osprobe"
  deriving DecidableEq, Repr

namespace Logger

/-- A logger that admits nothing. -/
def silent : Logger := { level := .off }

/-- Whether lines of a level are admitted. -/
def enabled (l : Logger) (level : LogLevel) : Bool :=
  level != .off && level.value ≤ l.level.value

/-- The records that writing a message yields: one, or none below the logger's level. -/
def records (l : Logger) (level : LogLevel) (message : String) : List LogRecord :=
  if l.enabled level then [⟨level, l.tag, message⟩] else []

/-- The same sink under another component name. -/
def named (l : Logger) (tag : String) : Logger :=
  { l with tag }

/-- The logger written out. -/
def describe (l : Logger) : String :=
  "Logger \x7b level: " ++ l.level.label ++ ", flush: " ++ toString l.flush ++ ", tag: " ++
    Text.quote l.tag ++ " \x7d"

end Logger

end HostAccess
