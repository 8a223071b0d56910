import HostAccess.Bytes
import HostAccess.Error
import HostAccess.Session

/-!
# Reads with a growing buffer

Some calls cannot say how much they have to deliver. A read that fills its buffer exactly
may have been cut, so the buffer is doubled and the read repeated, until a read leaves
room or the next buffer would be larger than a limit. A buffer within the limit that is larger
than a buffer can be stops the program.

* `HostAccess.GrowingRead`: what one read answers;
* `HostAccess.readGrowing`: the whole of it.
-/

namespace HostAccess

/-- What a read into a zeroed buffer answers. -/
inductive GrowingRead where
  /-- Bytes were copied to the front of the buffer and their number was reported. -/
  | filled (reported : Nat) (written : Bytes)
  /-- There is nothing of the kind that was asked for. -/
  | absent

/-- The double of a buffer size, unless it no longer fits a 64-bit word. -/
def doubled? (size : Nat) : Option Nat :=
  if 2 * size < UInt64.size then some (2 * size) else none

theorem lt_of_doubled? {size next : Nat} (pos : 0 < size) (h : doubled? size = some next) :
    size < next := by
  unfold doubled? at h
  split at h
  · cases h
    omega
  · cases h

/-- Reads with buffers of `size` bytes and its doubles. -/
def readFrom {W : Type} (what : String) (largest : Nat)
    (read : Nat → Session W (Except HostError GrowingRead)) (size : Nat) (pos : 0 < size) :
    Session W (Except HostError (Option Bytes)) :=
  if size ≤ largest then
    if Bytes.capacity < size then return .error (.halted .capacityOverflow)
    else do
      match ← read size with
      | .error e => return .error e
      | .ok .absent => return .ok none
      | .ok (.filled reported written) =>
        if reported < size then return .ok (some (Bytes.zeroExtend reported written))
        else
          match h : doubled? size with
          | none => return .error (.pathTooLong what largest)
          | some next =>
            have := lt_of_doubled? pos h
            readFrom what largest read next (by omega)
  else
    return .error (.pathTooLong what largest)
termination_by largest + 1 - size

/-- Reads `what` with buffers from `smallest` bytes, at least one, up to `largest` bytes. -/
def readGrowing {W : Type} (what : String) (smallest largest : Nat)
    (read : Nat → Session W (Except HostError GrowingRead)) :
    Session W (Except HostError (Option Bytes)) :=
  readFrom what largest read (max smallest 1) (by omega)

end HostAccess
