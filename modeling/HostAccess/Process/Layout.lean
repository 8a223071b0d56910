import HostAccess.Bytes
import HostAccess.Error
import HostAccess.Platform

/-!
# Process tables of fixed-size records

Some kernels answer a listing with an array of records. Only two fields of a record
matter, the process and its parent, so a layout keeps the size of a record and where the
two fields lie. A wrong layout reads garbage rather than failing, which is why one is
checked before it is used. The check adds the size of a field to the two offsets as 64-bit
words, and such a sum may wrap around: among the layouts that it accepts there are some with
an offset right below `2 ^ 64`.

* `HostAccess.RecordLayout`: a layout, with the two in use;
* `HostAccess.RecordLayout.validate`: the check;
* `HostAccess.RecordLayout.Usable`: the layouts that it is meant to accept;
* `HostAccess.RecordLayout.records?`: the records of a buffer, `none` if a field lies
  outside its record.
-/

namespace HostAccess

/-- The number of a process. -/
abbrev Pid := Int32

/-- Where a record keeps the numbers of a process and of its parent. -/
structure RecordLayout where
  /-- The size of a record in bytes. -/
  stride : UInt64
  pidOffset : UInt64
  ppidOffset : UInt64
  deriving DecidableEq, Repr

namespace RecordLayout

/-- The layout of 32-bit Darwin. -/
def darwin32 : RecordLayout := ⟨492, 24, 416⟩

/-- The layout of 64-bit Darwin. -/
def darwin64 : RecordLayout := ⟨648, 40, 560⟩

/-- The layout of a platform, if its kernel answers in records. -/
def lookup : Platform → WordWidth → Option RecordLayout
  | .macOs, .bits32 => some darwin32
  | .macOs, .bits64 => some darwin64
  | _, _ => none

/-- The size of a field. -/
def fieldSize : UInt64 := 4

/-- How far two offsets are apart. -/
def distance (a b : UInt64) : UInt64 :=
  if a < b then b - a else a - b

/-- Both fields must lie inside a record and must not overlap. -/
def validate (l : RecordLayout) : Except HostError Unit :=
  if l.stride = 0 then .error (.malformed "zero record stride")
  else if l.stride < l.pidOffset + fieldSize ∨ l.stride < l.ppidOffset + fieldSize then
    .error (.malformed "field offset outside record")
  else if distance l.pidOffset l.ppidOffset < fieldSize then
    .error (.malformed "pid and ppid fields overlap")
  else .ok ()

/-! ### Reading records -/

/-- The whole records in a buffer of a given size. -/
def recordCount (l : RecordLayout) (size : Nat) : Nat :=
  size / l.stride.toNat

/-- The first `count` pieces of `stride` bytes. -/
def pieces (stride : Nat) : Nat → Bytes → List Bytes
  | 0, _ => []
  | count + 1, buffer => buffer.take stride :: pieces stride count (buffer.drop stride)

/-- The field at an offset of a record; `none` if it does not lie inside. -/
def field? (record : Bytes) (offset : Nat) : Option Pid :=
  (Bytes.readInt32 (record.drop offset)).map Prod.fst

/-- A process and its parent, as a record tells them. -/
def entry? (l : RecordLayout) (record : Bytes) : Option (Pid × Pid) :=
  (field? record l.pidOffset.toNat).bind fun pid =>
    (field? record l.ppidOffset.toNat).map fun ppid => (pid, ppid)

/-- The entries of the whole records of a buffer, in order; a trailing partial record is
ignored. It is `none` for records of size zero and where a field lies outside a record. -/
def records? (l : RecordLayout) (buffer : Bytes) : Option (List (Pid × Pid)) :=
  if l.stride = 0 then none
  else (pieces l.stride.toNat (l.recordCount buffer.length) buffer).mapM l.entry?

/-! ### Accepted and usable layouts -/

/-- A layout that passes the check. -/
def Accepted (l : RecordLayout) : Prop :=
  l.validate = .ok ()

/-- A layout whose fields lie inside a record and have no byte in common. -/
structure Usable (l : RecordLayout) : Prop where
  stride_pos : 0 < l.stride.toNat
  pid : l.pidOffset.toNat + 4 ≤ l.stride.toNat
  ppid : l.ppidOffset.toNat + 4 ≤ l.stride.toNat
  apart : l.pidOffset.toNat + 4 ≤ l.ppidOffset.toNat ∨ l.ppidOffset.toNat + 4 ≤ l.pidOffset.toNat

theorem toNat_add_fieldSize {offset : UInt64} (h : offset.toNat + 4 < UInt64.size) :
    (offset + fieldSize).toNat = offset.toNat + 4 := by
  rw [UInt64.toNat_add]
  exact Nat.mod_eq_of_lt h

theorem distance_lt_fieldSize_iff {a b : UInt64} :
    distance a b < fieldSize ↔ a.toNat < b.toNat + 4 ∧ b.toNat < a.toNat + 4 := by
  have hfield : fieldSize.toNat = 4 := rfl
  unfold distance
  split
  · next h =>
    have h : a.toNat < b.toNat := UInt64.lt_iff_toNat_lt.1 h
    have hle : a ≤ b := UInt64.le_iff_toNat_le.2 (Nat.le_of_lt h)
    rw [UInt64.lt_iff_toNat_lt, UInt64.toNat_sub_of_le _ _ hle, hfield]
    omega
  · next h =>
    have h : b.toNat ≤ a.toNat := Nat.le_of_not_lt (mt UInt64.lt_iff_toNat_lt.2 h)
    rw [UInt64.lt_iff_toNat_lt, UInt64.toNat_sub_of_le _ _ (UInt64.le_iff_toNat_le.2 h), hfield]
    omega

/-- The check, each comparison for itself. -/
theorem accepted_iff_checks {l : RecordLayout} :
    l.Accepted ↔ l.stride ≠ 0 ∧
      ¬(l.stride < l.pidOffset + fieldSize ∨ l.stride < l.ppidOffset + fieldSize) ∧
      ¬distance l.pidOffset l.ppidOffset < fieldSize := by
  unfold Accepted validate
  grind

/-- Where the ends of the fields do not wrap around, the usable layouts are accepted and no
others. -/
theorem accepted_iff {l : RecordLayout} (hpid : l.pidOffset.toNat + 4 < UInt64.size)
    (hppid : l.ppidOffset.toNat + 4 < UInt64.size) : l.Accepted ↔ l.Usable := by
  have hzero : l.stride = 0 ↔ l.stride.toNat = 0 := UInt64.toNat_inj.symm
  rw [accepted_iff_checks, Ne, hzero, distance_lt_fieldSize_iff, UInt64.lt_iff_toNat_lt,
    UInt64.lt_iff_toNat_lt, toNat_add_fieldSize hpid, toNat_add_fieldSize hppid]
  refine ⟨fun h => ⟨?_, ?_, ?_, ?_⟩, fun ⟨hstride, hp, hq, hapart⟩ => ?_⟩ <;> omega

theorem Usable.stride_ne_zero {l : RecordLayout} (h : l.Usable) : l.stride ≠ 0 := by
  intro hzero
  have hpos := h.stride_pos
  rw [hzero] at hpos
  exact Nat.lt_irrefl 0 hpos

/-! ### Reading with a usable layout -/

theorem length_of_mem_pieces {stride count : Nat} {buffer piece : Bytes}
    (h : count * stride ≤ buffer.length) (hp : piece ∈ pieces stride count buffer) :
    piece.length = stride := by
  induction count generalizing buffer with
  | zero => simp [pieces] at hp
  | succ count ih =>
    rw [Nat.add_mul, Nat.one_mul] at h
    rcases List.mem_cons.1 hp with rfl | hp
    · rw [List.length_take]
      omega
    · refine ih ?_ hp
      rw [List.length_drop]
      omega

theorem isSome_field? {record : Bytes} {offset : Nat} (h : offset + 4 ≤ record.length) :
    (field? record offset).isSome := by
  have hd : 4 ≤ (record.drop offset).length := by
    rw [List.length_drop]
    omega
  unfold field?
  match hr : record.drop offset with
  | [] | [_] | [_, _] | [_, _, _] => simp [hr] at hd
  | _ :: _ :: _ :: _ :: _ => simp [Bytes.readInt32]

/-- A usable layout never reads outside a record. -/
theorem isSome_records? {l : RecordLayout} (h : l.Usable) (buffer : Bytes) :
    (l.records? buffer).isSome := by
  have entries : ∀ pieces : List Bytes, (∀ p ∈ pieces, p.length = l.stride.toNat) →
      (pieces.mapM l.entry?).isSome := by
    intro pieces
    induction pieces with
    | nil => simp
    | cons p rest ih =>
      intro hl
      have hlen : p.length = l.stride.toNat := hl p (List.mem_cons_self ..)
      obtain ⟨a, ha⟩ := Option.isSome_iff_exists.1 (isSome_field? (hlen ▸ h.pid))
      obtain ⟨b, hb⟩ := Option.isSome_iff_exists.1 (isSome_field? (hlen ▸ h.ppid))
      obtain ⟨es, hes⟩ := Option.isSome_iff_exists.1
        (ih fun q hq => hl q (List.mem_cons_of_mem _ hq))
      simp [List.mapM_cons, entry?, ha, hb, hes]
  rw [records?, if_neg h.stride_ne_zero]
  exact entries _ fun p hp => length_of_mem_pieces (Nat.div_mul_le_self ..) hp

end RecordLayout

end HostAccess
