import HostAccess.Bytes
import Mathlib.Tactic.NormNum

/-!
# The numbers of byte strings

How large a buffer can be is a power of two (`HostAccess.Bytes.capacity_lt_iff`).

A signed field is read with machine integers. Here its value is said by itself: the number
that the first four bytes write, least significant first, in two's complement
(`HostAccess.Bytes.frontInt32`).

* `HostAccess.Bytes.readInt32_of_lt`, `HostAccess.Bytes.readInt32_of_le`: a field is read
  exactly if four bytes are there, its value is the number in front, and the reading goes
  on behind it;
* `HostAccess.Bytes.writeInt32_toInt32`: every four bytes are the bytes of a field.
-/

namespace HostAccess

namespace Bytes

/-- A buffer is too large from `2 ^ 63` bytes on. -/
theorem capacity_lt_iff {size : Nat} : capacity < size ↔ 2 ^ 63 ≤ size := by
  rw [capacity]
  omega

theorem not_capacity_lt {size : Nat} (h : size < 2 ^ 63) : ¬capacity < size :=
  fun hlarge => Nat.not_le.2 h (capacity_lt_iff.1 hlarge)

/-- The number that bytes write, least significant first. -/
def littleEndian : Bytes → Nat
  | [] => 0
  | b :: rest => b.toNat + 256 * littleEndian rest

/-- **The number in front**: the first four bytes, least significant first, in two's
complement. -/
def frontInt32 (bytes : Bytes) : Int :=
  Int.bmod (littleEndian (bytes.take 4)) (2 ^ 32)

theorem exists_cons_of_four_le {bytes : Bytes} (h : 4 ≤ bytes.length) :
    ∃ a b c d rest, bytes = a :: b :: c :: d :: rest :=
  match bytes, h with
  | a :: b :: c :: d :: rest, _ => ⟨a, b, c, d, rest, rfl⟩

theorem frontInt32_cons (a b c d : UInt8) (rest : Bytes) :
    frontInt32 (a :: b :: c :: d :: rest) = (toInt32 a b c d).toInt := by
  have hvalue : littleEndian [a, b, c, d] =
      a.toNat + 256 * b.toNat + 65536 * c.toNat + 16777216 * d.toNat := by
    simp only [littleEndian]
    omega
  have hsize : (2 : Nat) ^ 32 = Int32.size := by norm_num
  rw [toInt32, Int32.toInt_ofNat', ← hvalue, ← hsize]
  rfl

/-- Only the first four bytes count. -/
theorem frontInt32_take {bytes : Bytes} {n : Nat} (h : 4 ≤ n) :
    frontInt32 (bytes.take n) = frontInt32 bytes := by
  have htake : (bytes.take n).take 4 = bytes.take 4 := by
    rw [List.take_take, Nat.min_eq_left h]
  unfold frontInt32
  rw [htake]

theorem readInt32_of_lt {bytes : Bytes} (h : bytes.length < 4) : readInt32 bytes = none := by
  fun_cases readInt32 bytes with
  | case1 a b c d rest =>
    simp only [List.length_cons] at h
    omega
  | case2 => rfl

theorem readInt32_of_le {bytes : Bytes} (h : 4 ≤ bytes.length) :
    ∃ x, readInt32 bytes = some (x, bytes.drop 4) ∧ x.toInt = frontInt32 bytes := by
  obtain ⟨a, b, c, d, rest, rfl⟩ := exists_cons_of_four_le h
  exact ⟨toInt32 a b c d, rfl, (frontInt32_cons a b c d rest).symm⟩

theorem writeInt32_toInt32 (a b c d : UInt8) : writeInt32 (toInt32 a b c d) = [a, b, c, d] := by
  have ha := a.toNat_lt
  have hb := b.toNat_lt
  have hc := c.toNat_lt
  have hd := d.toNat_lt
  -- Four bytes stay below the size of the field, so nothing wraps around.
  have hvalue : (toInt32 a b c d).toUInt32.toNat =
      a.toNat + 256 * b.toNat + 65536 * c.toNat + 16777216 * d.toNat :=
    (BitVec.toNat_ofNat ..).trans (Nat.mod_eq_of_lt (by omega))
  simp only [writeInt32, hvalue, List.cons.injEq, and_true, ← UInt8.toNat_inj, UInt8.toNat_ofNat']
  omega

end Bytes

end HostAccess
