/-!
# Decimal integers as text

Reading is strict: an optional sign, at least one ASCII digit, nothing else, and a value
that fits the width asked for. A minus sign is a sign only for signed widths.

* `HostAccess.Decimal.unsigned?`: a number below `2 ^ bits`;
* `HostAccess.Decimal.signed?`: a number from `-2 ^ (bits - 1)` to below `2 ^ (bits - 1)`.

Writing is core's: no sign but a minus, no leading zero.
-/

namespace HostAccess

namespace Decimal

/-- The value of a digit. -/
def digit? (c : Char) : Option Nat :=
  if c.isDigit then some (c.toNat - '0'.toNat) else none

/-- The value of a run of digits read after a value `read`. -/
def digitsFrom? (read : Nat) : List Char → Option Nat
  | [] => some read
  | c :: cs => (digit? c).bind fun d => digitsFrom? (10 * read + d) cs

/-- The value of a non-empty run of digits. -/
def digits? : List Char → Option Nat
  | [] => none
  | cs => digitsFrom? 0 cs

/-- A number below `2 ^ bits`, with an optional plus sign. -/
def unsigned? (bits : Nat) (s : String) : Option Nat :=
  let value := match s.toList with
    | '+' :: cs => digits? cs
    | cs => digits? cs
  value.filter (· < Nat.pow 2 bits)

/-- A number of the signed width `bits`, with an optional sign. -/
def signed? (bits : Nat) (s : String) : Option Int :=
  let value := match s.toList with
    | '-' :: cs => (digits? cs).map fun n => -(n : Int)
    | '+' :: cs => (digits? cs).map Int.ofNat
    | cs => (digits? cs).map Int.ofNat
  let bound : Int := Nat.pow 2 (bits - 1)
  value.filter fun n => -bound ≤ n && n < bound

/-- A number of the signed width 32. -/
def int32? (s : String) : Option Int32 :=
  (signed? 32 s).map Int32.ofInt

end Decimal

end HostAccess
