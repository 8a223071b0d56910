/-!
# UTF-16 that may be broken

Some systems keep environments in 16-bit units. A high surrogate followed by a low one is
a character outside the first plane; a surrogate without its partner is replaced.

* `HostAccess.Utf16.decodeLossy`: the text of a list of units;
* `HostAccess.Utf16.encode`: the units of a text.
-/

namespace HostAccess

namespace Utf16

/-- The first half of a pair. -/
def isHigh (u : UInt16) : Bool :=
  0xD800 ≤ u && u ≤ 0xDBFF

/-- The second half of a pair. -/
def isLow (u : UInt16) : Bool :=
  0xDC00 ≤ u && u ≤ 0xDFFF

/-- The character of a pair. -/
def pair (high low : UInt16) : Char :=
  Char.ofNat (0x10000 + (high.toNat % 0x400) * 0x400 + low.toNat % 0x400)

/-- The characters of a list of units, with a replacement character for each surrogate
that has no partner. -/
def decodeChars : List UInt16 → List Char
  | [] => []
  | u :: rest =>
    if isHigh u then
      match rest with
      | [] => ['\uFFFD']
      | v :: rest' =>
        if isLow v then pair u v :: decodeChars rest' else '\uFFFD' :: decodeChars (v :: rest')
    else if isLow u then '\uFFFD' :: decodeChars rest
    else Char.ofNat u.toNat :: decodeChars rest

/-- The text of a list of units. -/
def decodeLossy (units : List UInt16) : String :=
  String.ofList (decodeChars units)

/-- The units of a character: itself, or a pair. -/
def encodeChar (c : Char) : List UInt16 :=
  if c.toNat < 0x10000 then [UInt16.ofNat c.toNat]
  else
    let n := c.toNat - 0x10000
    [UInt16.ofNat (0xD800 + n / 0x400), UInt16.ofNat (0xDC00 + n % 0x400)]

/-- The units of a text. -/
def encode (s : String) : List UInt16 :=
  s.toList.flatMap encodeChar

end Utf16

end HostAccess
