import HostAccess.Bytes

/-!
# UTF-8 that may be broken

Text from a kernel, a file or a link target is whatever bytes another process chose. It
is read as UTF-8, and what is not UTF-8 is replaced rather than refused.

The reading is an automaton over single bytes. A lead byte fixes how many continuation
bytes follow and, for a few leads, narrows the range of the first of them, so that
overlong forms, surrogates and values past the last code point are already excluded when
the second byte arrives. A byte that cannot continue the pending sequence ends it: what
was pending is one broken piece, and the byte is read afresh. A broken piece is therefore
the longest front of a well-formed sequence, and each becomes one replacement character.

* `HostAccess.Utf8.scan`: the characters of a byte string, `none` for a broken piece;
* `HostAccess.Utf8.decodeLossy`: the text with replacement characters;
* `HostAccess.Utf8.decode?`: the text, if nothing is broken;
* `HostAccess.Utf8.encode`: the bytes of a text.
-/

namespace HostAccess

namespace Utf8

/-! ### The automaton -/

/-- A sequence under way: the bits read so far, the range the next byte must lie in, and
how many bytes follow that one. -/
structure Pending where
  bits : Nat
  low : UInt8
  high : UInt8
  more : Nat

/-- What a lead byte starts; `none` for a byte that starts nothing. -/
def lead? (b : UInt8) : Option Pending :=
  if 0xC2 ≤ b ∧ b ≤ 0xDF then some ⟨b.toNat % 32, 0x80, 0xBF, 0⟩
  else if b = 0xE0 then some ⟨0, 0xA0, 0xBF, 1⟩
  else if b = 0xED then some ⟨13, 0x80, 0x9F, 1⟩
  else if 0xE1 ≤ b ∧ b ≤ 0xEF then some ⟨b.toNat % 16, 0x80, 0xBF, 1⟩
  else if b = 0xF0 then some ⟨0, 0x90, 0xBF, 2⟩
  else if 0xF1 ≤ b ∧ b ≤ 0xF3 then some ⟨b.toNat % 8, 0x80, 0xBF, 2⟩
  else if b = 0xF4 then some ⟨4, 0x80, 0x8F, 2⟩
  else none

/-- Reads a byte with nothing pending. -/
def start (b : UInt8) : List (Option Char) × Option Pending :=
  if b < 0x80 then ([some (Char.ofNat b.toNat)], none)
  else match lead? b with
    | none => ([none], none)
    | some p => ([], some p)

/-- Reads a byte: the characters it completes, and what is pending after it. -/
def step (pending : Option Pending) (b : UInt8) : List (Option Char) × Option Pending :=
  match pending with
  | none => start b
  | some p =>
    if p.low ≤ b ∧ b ≤ p.high then
      let bits := p.bits * 64 + b.toNat % 64
      match p.more with
      | 0 => ([some (Char.ofNat bits)], none)
      | more + 1 => ([], some ⟨bits, 0x80, 0xBF, more⟩)
    else
      let (read, next) := start b
      (none :: read, next)

/-- The characters from here on, given what is pending; an unfinished sequence at the end
is a broken piece. -/
def scanFrom (pending : Option Pending) : Bytes → List (Option Char)
  | [] => if pending.isSome then [none] else []
  | b :: rest =>
    let (read, next) := step pending b
    read ++ scanFrom next rest

/-- The characters of a byte string, with `none` for each broken piece. -/
def scan (bytes : Bytes) : List (Option Char) :=
  scanFrom none bytes

/-! ### Texts -/

/-- The replacement character. -/
def replacement : Char := '\uFFFD'

/-- The text of a byte string, with one replacement character for each broken piece. -/
def decodeLossy (bytes : Bytes) : String :=
  String.ofList ((scan bytes).map fun c => c.getD replacement)

/-- The text of a byte string, if all of it is well formed. -/
def decode? (bytes : Bytes) : Option String :=
  ((scan bytes).mapM id).map String.ofList

/-- The bytes of a text. -/
def encode (s : String) : Bytes :=
  s.toList.flatMap String.utf8EncodeChar

end Utf8

end HostAccess
