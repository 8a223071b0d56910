import HostAccess.Bytes
import HostAccess.Text.Blank
import HostAccess.Text.Decimal
import HostAccess.Text.Utf8

/-!
# Looking up variables

A variable of the process environment is a byte string, or unset. Settings read it in one
of three ways, each with its own idea of when to fall back to a default. A value that is
not UTF-8 counts as unset in all of them.

* `HostAccess.Variable.parsed?`: a value that a reader accepts once its ends are trimmed;
* `HostAccess.Variable.flag`: one of the words for yes and no;
* `HostAccess.Variable.text`: the text as it is, with the empty text as unset.
-/

namespace HostAccess

/-- The variables of a process environment. -/
abbrev Variables := String → Option Bytes

namespace Variable

/-- The text of a value. -/
def text? (raw : Option Bytes) : Option String :=
  raw.bind Utf8.decode?

/-- The value that a reader makes of the trimmed text. -/
def parsed? {α : Type} (parse : String → Option α) (raw : Option Bytes) : Option α :=
  (text? raw).bind fun s => parse (Text.trim s)

/-- The value that a reader makes of the trimmed text, or a default. -/
def parsed {α : Type} (parse : String → Option α) (fallback : α) (raw : Option Bytes) : α :=
  (parsed? parse raw).getD fallback

/-- The words for yes and no, in any letter case. -/
def flagWord? (s : String) : Option Bool :=
  match Text.lowerAscii (Text.trim s) with
  | "1" | "true" | "yes" | "on" => some true
  | "0" | "false" | "no" | "off" => some false
  | _ => none

/-- Yes or no, or a default for any other word. -/
def flag (fallback : Bool) (raw : Option Bytes) : Bool :=
  ((text? raw).bind flagWord?).getD fallback

/-- The text as it is, or a default for none and for the empty text. -/
def text (fallback : String) (raw : Option Bytes) : String :=
  match text? raw with
  | some s => if s.isEmpty then fallback else s
  | none => fallback

end Variable

end HostAccess
