import HostAccess.Bytes
import HostAccess.Error
import HostAccess.Process.Environment
import HostAccess.Text.Utf8

/-!
# The argument area of a process

Some kernels hand out the top of a process's stack as one piece of bytes:

    argument count · executable · padding · arguments · padding · environment · end

The count is a signed 32-bit field. Executable, arguments and entries end with a zero
byte; padding is any number of zero bytes. Nothing but the count says how long anything
is, and the process itself wrote all of it.

The area is read in one pass that never goes back. A field ends at a zero byte or where
the area ends, so an area that was cut yields everything up to the cut.

* `HostAccess.ArgumentArea`: the fields of an area, each with the place it was found;
* `HostAccess.ArgumentArea.scan`: the pass;
* `HostAccess.ProcessArguments.decode`: the arguments that an area describes.
-/

namespace HostAccess

/-- A field of an area: where it begins, and its bytes without the zero at the end. -/
structure Field where
  offset : Nat
  bytes : Bytes
  deriving DecidableEq, Repr

/-- The text of a field. -/
def Field.text (f : Field) : String :=
  Utf8.decodeLossy f.bytes

/-! ### The part not yet read -/

/-- The part of an area that is not yet read: how many bytes were, and those that were
not. -/
structure Unread where
  offset : Nat
  bytes : Bytes
  deriving DecidableEq, Repr

namespace Unread

/-- The bytes up to the next zero byte or the end. -/
def fieldBytes (u : Unread) : Bytes :=
  u.bytes.takeWhile (· != 0)

/-- Passes over `n` bytes. -/
def skip (u : Unread) (n : Nat) : Unread :=
  ⟨u.offset + (u.bytes.take n).length, u.bytes.drop n⟩

/-- The field that comes next. -/
def field (u : Unread) : Field :=
  ⟨u.offset, u.fieldBytes⟩

/-- Passes over the field that comes next and over the zero byte that ends it, if the area
goes so far. -/
def skipField (u : Unread) : Unread :=
  u.skip (u.fieldBytes.length + 1)

/-- Passes over zero bytes. -/
def skipZeros (u : Unread) : Unread :=
  u.skip (u.bytes.takeWhile (· == 0)).length

/-- Reads up to `count` arguments, passing over the zero bytes before each, and stops
where the area ends. -/
def readArguments : Nat → Unread → List Field × Unread
  | 0, u => ([], u)
  | count + 1, u =>
    let v := u.skipZeros
    if v.bytes.isEmpty then ([], v)
    else
      let (fields, rest) := readArguments count v.skipField
      (v.field :: fields, rest)

/-- Reads entries until one would be empty or the area ends. -/
def readEntries (u : Unread) : List Field :=
  if u.fieldBytes.isEmpty then []
  else u.field :: readEntries u.skipField
termination_by u.bytes.length
decreasing_by
  have hne : u.bytes ≠ [] := by
    intro h
    simp_all [fieldBytes]
  have := List.length_pos_iff.2 hne
  simp only [skipField, skip, List.length_drop]
  omega

end Unread

/-! ### Areas -/

/-- The fields of an argument area. -/
structure ArgumentArea where
  execPath : Field
  arguments : List Field
  entries : List Field
  deriving DecidableEq, Repr

/-- Reads an area. It fails only if the count is missing or negative; whatever comes after
is read as far as it goes. -/
def ArgumentArea.scan (area : Bytes) : Except HostError ArgumentArea :=
  match Bytes.readInt32 area with
  | none => .error (.malformed "blob shorter than argc")
  | some (count, rest) =>
    if count < 0 then .error (.malformed "negative argc")
    else
      let start : Unread := ⟨4, rest⟩
      let (arguments, afterArguments) := start.skipField.readArguments count.toInt.toNat
      .ok {
        execPath := start.field
        arguments
        entries := afterArguments.skipZeros.readEntries }

/-- What the fields of an area say. An empty executable is none. -/
def ArgumentArea.texts (area : ArgumentArea) : ProcessArguments where
  execPath := if area.execPath.bytes.isEmpty then none else some area.execPath.text
  arguments := area.arguments.map Field.text
  environment := Environment.ofEntries (area.entries.map Field.text)

/-- The arguments that an area describes. -/
def ProcessArguments.decode (area : Bytes) : Except HostError ProcessArguments :=
  (ArgumentArea.scan area).map ArgumentArea.texts

end HostAccess
