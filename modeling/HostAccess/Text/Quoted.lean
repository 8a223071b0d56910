import HostAccess.Text.Unprintable

/-!
# Quoted texts

Messages quote what they were given, so that a reader sees where it begins and ends and
what it holds: the text stands between double quotes, a double quote and a backslash
follow a backslash, four controls have a letter, and any other character that does not
print is written by its code point in hexadecimal. A single quote stands for itself.

* `HostAccess.Text.quote`: the quoted text.
-/

namespace HostAccess

namespace Text

/-- The letter that stands for a character after a backslash. -/
def escapeLetter? (c : Char) : Option Char :=
  if c = '\x00' then some '0'
  else if c = '\t' then some 't'
  else if c = '\r' then some 'r'
  else if c = '\n' then some 'n'
  else if c = '"' ∨ c = '\\' then some c
  else none

/-- A character as it stands inside quotes. -/
def escapeChar (c : Char) : List Char :=
  match escapeLetter? c with
  | some letter => ['\\', letter]
  | none =>
    if isUnprintable c then
      ['\\', 'u', '\x7b'] ++ Nat.toDigits 16 c.toNat ++ ['\x7d']
    else [c]

/-- A text between double quotes. -/
def quote (s : String) : String :=
  String.ofList ('"' :: s.toList.flatMap escapeChar ++ ['"'])

end Text

end HostAccess
