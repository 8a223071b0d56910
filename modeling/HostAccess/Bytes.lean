/-!
# Byte strings

Kernels and files answer in bytes. This file fixes the type, the
bound on a buffer and the two readings of bytes that are not text:

* `HostAccess.Bytes.capacity`: how large a buffer can be;
* `HostAccess.Bytes.zeroExtend`: what a zeroed buffer holds once some bytes were copied
  to its front. A buffer is described by its size and by the bytes written to it, so a
  large and mostly empty one costs nothing;
* `HostAccess.Bytes.readInt32` and `HostAccess.Bytes.writeInt32`: a signed 32-bit field,
  least significant byte first.
-/

namespace HostAccess

/-- A byte string. -/
abbrev Bytes := List UInt8

namespace Bytes

/-! ### Buffers -/

/-- The most bytes that a buffer can have: its size is a signed 64-bit number. Below this bound
memory does not run out. -/
def capacity : Nat := 0x7FFFFFFFFFFFFFFF

/-- The first `n` bytes of a zeroed buffer to whose front `written` was copied. -/
def zeroExtend (n : Nat) (written : Bytes) : Bytes :=
  written.take n ++ List.replicate (n - written.length) 0

@[simp]
theorem length_zeroExtend (n : Nat) (written : Bytes) : (zeroExtend n written).length = n := by
  simp only [zeroExtend, List.length_append, List.length_take, List.length_replicate]
  omega

/-- A shorter reading of the same buffer is the front of a longer one. -/
theorem take_zeroExtend {m n : Nat} (h : m ≤ n) (written : Bytes) :
    (zeroExtend n written).take m = zeroExtend m written := by
  simp only [zeroExtend, List.take_append, List.take_take, List.length_take,
    List.take_replicate]
  congr 2 <;> omega

/-! ### Signed 32-bit fields -/

/-- The value of four bytes, least significant first, in two's complement. -/
def toInt32 (a b c d : UInt8) : Int32 :=
  Int32.ofNat (a.toNat + 256 * b.toNat + 65536 * c.toNat + 16777216 * d.toNat)

/-- Reads a signed 32-bit field and leaves the bytes after it; `none` if fewer than four
bytes remain. -/
def readInt32 : Bytes → Option (Int32 × Bytes)
  | a :: b :: c :: d :: rest => some (toInt32 a b c d, rest)
  | _ => none

/-- The four bytes of a signed 32-bit field, least significant first. -/
def writeInt32 (x : Int32) : Bytes :=
  let n := x.toUInt32.toNat
  [UInt8.ofNat n, UInt8.ofNat (n / 256), UInt8.ofNat (n / 65536), UInt8.ofNat (n / 16777216)]

theorem readInt32_writeInt32 (x : Int32) (rest : Bytes) :
    readInt32 (writeInt32 x ++ rest) = some (x, rest) := by
  have hx : x.toUInt32.toNat < 4294967296 := x.toUInt32.toNat_lt
  have key : (UInt8.ofNat x.toUInt32.toNat).toNat +
      256 * (UInt8.ofNat (x.toUInt32.toNat / 256)).toNat +
      65536 * (UInt8.ofNat (x.toUInt32.toNat / 65536)).toNat +
      16777216 * (UInt8.ofNat (x.toUInt32.toNat / 16777216)).toNat = x.toUInt32.toNat := by
    simp only [UInt8.toNat_ofNat']
    omega
  simp only [writeInt32, List.cons_append, List.nil_append, readInt32, toInt32, key]
  congr 2
  exact Int32.toBitVec_inj.1 (by simp [Int32.ofNat])

end Bytes

end HostAccess
