import HostAccess.Proofs.Process.ArgumentArea

/-!
# The cursor over an argument area

The pass over an argument area keeps the part that is not yet read, which cannot be left and gets
shorter by itself. A reader of memory keeps a number instead, the place of its cursor, and every
move can go wrong: the cursor may come to stand behind the end of the area, where no piece of it
begins, and a loop that does not move the cursor never ends. Here the pass is said once more in
this way (`HostAccess.ArgumentArea.course?`): pieces are cut out of the area by their places, and
every place of the cursor is written down. The pass has no course if it ever cuts outside the
area, or if a turn of the loop that is not counted leaves the cursor where it was.

It always has one, and reads what the pass reads:

* `HostAccess.ArgumentArea.Cursor.Placed` is what every move keeps: the cursor is in the area and
  never was behind its place;
* `HostAccess.ArgumentArea.Readings` is what every turn of a loop keeps: the field that it reads
  is filled, and ends before the place from which the next one is read;
* `HostAccess.ArgumentArea.decode_bounded` puts both together. Whatever count of arguments the
  process claims, the loops read no more fields than there are bytes behind the count.
-/

namespace HostAccess

/-! ### The pass, by places -/

/-- The bytes from one place up to another; `none` unless both are places of these bytes. -/
def Bytes.slice? (bytes : Bytes) (start stop : Nat) : Option Bytes :=
  if start ≤ stop ∧ stop ≤ bytes.length then some ((bytes.drop start).take (stop - start))
  else none

namespace ArgumentArea

/-- A cursor: its place, and every place it had so far in order, this one included. -/
structure Cursor where
  offset : Nat
  visited : List Nat

/-- A field that was read, and the place of the cursor after it. -/
structure Reading where
  field : Field
  next : Nat

namespace Cursor

/-- The cursor at the front of an area. -/
def start : Cursor := ⟨0, [0]⟩

/-- Moves the cursor over `n` bytes. -/
def advance (c : Cursor) (n : Nat) : Cursor :=
  ⟨c.offset + n, c.visited ++ [c.offset + n]⟩

/-- Reads the bytes before the next zero byte or the end, and then passes over that zero byte if
the cursor is not at the end. -/
def readField? (area : Bytes) (c : Cursor) : Option (Reading × Cursor) := do
  let rest ← Bytes.slice? area c.offset area.length
  let length := rest.findIdx (· == 0)
  let bytes ← Bytes.slice? rest 0 length
  let behind := c.advance length
  let next := if behind.offset < area.length then behind.advance 1 else behind
  return (⟨⟨c.offset, bytes⟩, next.offset⟩, next)

/-- Passes over zero bytes, one at a time. -/
def skipZeros (area : Bytes) (c : Cursor) : Cursor :=
  if area[c.offset]? = some 0 then skipZeros area (c.advance 1) else c
termination_by area.length - c.offset
decreasing_by
  have hlt := (List.getElem?_eq_some_iff.1 ‹area[c.offset]? = some 0›).1
  simp only [advance]
  omega

/-- Reads up to `count` arguments. -/
def readArguments? (area : Bytes) (count : Nat) (c : Cursor) :
    Option (List Reading × Cursor) :=
  match count with
  | 0 => some ([], c)
  | count + 1 => do
    let c := c.skipZeros area
    if c.offset < area.length then
      let (reading, c) ← c.readField? area
      let (readings, c) ← readArguments? area count c
      return (reading :: readings, c)
    else return ([], c)

/-- Reads entries while the next byte is there and is not zero. A turn that does not move the
cursor would be repeated for ever. -/
def readEntries? (area : Bytes) (c : Cursor) : Option (List Reading × Cursor) :=
  if c.offset < area.length ∧ area[c.offset]? ≠ some 0 then
    match c.readField? area with
    | none => none
    | some (reading, next) =>
      if c.offset < next.offset then do
        let (readings, last) ← readEntries? area next
        return (reading :: readings, last)
      else none
  else some ([], c)
termination_by area.length - c.offset

end Cursor

/-- The fields that are read in the course of the pass. -/
structure Course where
  path : Reading
  arguments : List Reading
  entries : List Reading

namespace Course

/-- What the loops read, in order. -/
def looped (course : Course) : List Reading :=
  course.arguments ++ course.entries

/-- All that is read, in order. -/
def readings (course : Course) : List Reading :=
  course.path :: course.looped

/-- The area with these fields. -/
def fields (course : Course) : ArgumentArea where
  execPath := course.path.field
  arguments := course.arguments.map Reading.field
  entries := course.entries.map Reading.field

end Course

/-- The course of the pass over an area, or why the pass is given up, and all places of the
cursor in order. There is none if the pass cuts outside the area or does not end. -/
def course? (area : Bytes) : Option (Except HostError Course × List Nat) :=
  match Bytes.readInt32 area with
  | none => some (.error (.malformed "blob shorter than argc"), Cursor.start.visited)
  | some (count, _) => do
    let c := Cursor.start.advance 4
    if count < 0 then some (.error (.malformed "negative argc"), c.visited)
    else
      let (path, c) ← c.readField? area
      let (arguments, c) ← c.readArguments? area count.toInt.toNat
      let c := c.skipZeros area
      let (entries, c) ← c.readEntries? area
      return (.ok ⟨path, arguments, entries⟩, c.visited)

end ArgumentArea

/-! ### Fields and unread parts -/

/-- The place behind the last byte of a field. -/
def Field.stop (f : Field) : Nat :=
  f.offset + f.bytes.length

/-- **A field is a piece of an area**, and no byte of it is zero. -/
structure Field.LiesIn (f : Field) (area : Bytes) : Prop where
  stop_le : f.stop ≤ area.length
  bytes_eq : (area.drop f.offset).take f.bytes.length = f.bytes
  zeroFree : 0 ∉ f.bytes

namespace Unread

theorem skip_skip (u : Unread) (m n : Nat) : (u.skip m).skip n = u.skip (m + n) := by
  simp only [skip, List.drop_drop, List.length_take, List.length_drop, Unread.mk.injEq, and_true]
  omega

/-- At the end there is nothing to pass over. -/
theorem skip_succ_of_length_le {u : Unread} {n : Nat} (h : u.bytes.length ≤ n) :
    u.skip (n + 1) = u.skip n := by
  have h' := Nat.le_succ_of_le h
  rw [skip, skip, List.take_of_length_le h, List.take_of_length_le h', List.drop_of_length_le h,
    List.drop_of_length_le h']

theorem skipZeros_of_head?_eq {u : Unread} (h : u.bytes.head? = some 0) :
    u.skipZeros = (u.skip 1).skipZeros := by
  obtain ⟨rest, hbytes⟩ := List.head?_eq_some_iff.1 h
  have hrest : (u.skip 1).bytes = rest := by
    rw [skip, hbytes]
    rfl
  rw [skipZeros, skipZeros, hrest, skip_skip, hbytes, List.takeWhile_cons_of_pos rfl,
    List.length_cons, Nat.add_comm]

theorem skipZeros_of_head?_ne {u : Unread} (h : u.bytes.head? ≠ some 0) : u.skipZeros = u := by
  have hzeros : u.bytes.takeWhile (· == 0) = [] := by
    cases hbytes : u.bytes with
    | nil => rfl
    | cons b rest =>
      rw [hbytes] at h
      exact List.takeWhile_cons_of_neg (by simpa using h)
  rw [skipZeros, hzeros]
  rfl

end Unread

namespace ArgumentArea

namespace Cursor

variable {area : Bytes} {c : Cursor}

/-! ### What every move of the cursor keeps -/

/-- The part of an area that a cursor has not passed. -/
def unread (area : Bytes) (c : Cursor) : Unread :=
  ⟨c.offset, area.drop c.offset⟩

/-- **A cursor in an area** that never went back. -/
structure Placed (area : Bytes) (c : Cursor) : Prop where
  within : c.offset ≤ area.length
  ordered : c.visited.Pairwise (· ≤ ·)
  visited_le : ∀ offset ∈ c.visited, offset ≤ c.offset

theorem length_unread : (c.unread area).bytes.length = area.length - c.offset :=
  List.length_drop

theorem head?_unread : (c.unread area).bytes.head? = area[c.offset]? :=
  List.head?_drop

theorem unread_advance {n : Nat} (hn : c.offset + n ≤ area.length) :
    (c.advance n).unread area = (c.unread area).skip n := by
  simp only [unread, advance, Unread.skip, List.drop_drop, List.length_take, List.length_drop,
    Unread.mk.injEq, and_true]
  omega

/-- The field in front of the cursor is filled if the next byte is there and is not zero. -/
theorem fieldBytes_unread_ne_nil :
    (c.unread area).fieldBytes ≠ [] ↔ c.offset < area.length ∧ area[c.offset]? ≠ some 0 := by
  have hmore : c.offset < area.length ↔ (c.unread area).bytes ≠ [] := by
    rw [← List.length_pos_iff, length_unread]
    omega
  rw [hmore, ← head?_unread, Unread.fieldBytes]
  cases (c.unread area).bytes with
  | nil => simp
  | cons b rest => simp [List.takeWhile_cons]

theorem placed_start (area : Bytes) : Placed area start where
  within := Nat.zero_le _
  ordered := List.pairwise_singleton ..
  visited_le _ h := Nat.le_of_eq (List.mem_singleton.1 h)

namespace Placed

theorem advance (h : Placed area c) {n : Nat} (hn : c.offset + n ≤ area.length) :
    Placed area (c.advance n) where
  within := hn
  ordered := by
    refine List.pairwise_append.2
      ⟨h.ordered, List.pairwise_singleton .., fun offset hoffset last hlast => ?_⟩
    rw [List.mem_singleton.1 hlast]
    exact Nat.le_add_right_of_le (h.visited_le offset hoffset)
  visited_le offset hoffset := by
    rcases List.mem_append.1 hoffset with hbefore | hlast
    · exact Nat.le_add_right_of_le (h.visited_le offset hbefore)
    · exact Nat.le_of_eq (List.mem_singleton.1 hlast)

/-- The field in front of the cursor. -/
theorem liesIn (h : Placed area c) : (c.unread area).field.LiesIn area where
  stop_le := by
    have hwithin := h.within
    have hlength := (List.takeWhile_sublist (l := area.drop c.offset) (· != 0)).length_le
    rw [List.length_drop] at hlength
    simp only [Field.stop, Unread.field, Unread.fieldBytes, unread]
    omega
  bytes_eq := (List.prefix_iff_eq_take.1 (List.takeWhile_prefix _)).symm
  zeroFree hzero := by simpa using List.mem_takeWhile_imp hzero

/-- The two pieces that are cut out for a field are there. -/
theorem readField?_eq (h : Placed area c) :
    c.readField? area =
      let behind := c.advance (c.unread area).fieldBytes.length
      let next := if behind.offset < area.length then behind.advance 1 else behind
      some (⟨(c.unread area).field, next.offset⟩, next) := by
  obtain ⟨n, hn⟩ : ∃ n, (c.unread area).bytes.findIdx (· == 0) = n := ⟨_, rfl⟩
  have hle : n ≤ (c.unread area).bytes.length := hn ▸ List.findIdx_le_length
  have hfield : (c.unread area).fieldBytes = (c.unread area).bytes.take n := by
    rw [Unread.fieldBytes, List.takeWhile_eq_take_findIdx_not, ← hn]
    simp [bne]
  have hlength : (c.unread area).fieldBytes.length = n := by
    rw [hfield, List.length_take_of_le hle]
  have hrest : Bytes.slice? area c.offset area.length = some (c.unread area).bytes := by
    rw [Bytes.slice?, if_pos ⟨h.within, Nat.le_refl _⟩, List.take_of_length_le (by simp)]
    rfl
  have hbytes : Bytes.slice? (c.unread area).bytes 0 n = some (c.unread area).fieldBytes := by
    rw [Bytes.slice?, if_pos ⟨Nat.zero_le _, hle⟩, List.drop_zero, Nat.sub_zero, hfield]
  simp only [readField?, hrest, hn, hbytes, hlength, Option.bind_eq_bind, Option.bind_some]
  rfl

/-- **A field is read without leaving the area.** The cursor goes to the end of its bytes, and
one step further only if there is a byte to pass over. -/
theorem readField (h : Placed area c) :
    ∃ next, c.readField? area = some (⟨(c.unread area).field, next.offset⟩, next) ∧
      Placed area next ∧ next.unread area = (c.unread area).skipField ∧
      (c.unread area).field.stop ≤ next.offset := by
  obtain ⟨n, hn⟩ : ∃ n, (c.unread area).fieldBytes.length = n := ⟨_, rfl⟩
  have hstop : (c.unread area).field.stop = c.offset + n := by
    rw [Field.stop, Unread.field, hn]
    rfl
  have hbehind : c.offset + n ≤ area.length := hstop ▸ h.liesIn.stop_le
  rw [h.readField?_eq, Unread.skipField, hstop, hn]
  by_cases hmore : c.offset + n < area.length
  · refine ⟨(c.advance n).advance 1, ?_, (h.advance hbehind).advance hmore, ?_, Nat.le_succ _⟩
    · simp only [Cursor.advance, hmore, if_true]
    · rw [unread_advance hmore, unread_advance hbehind, Unread.skip_skip]
  · have hend : (c.unread area).bytes.length ≤ n := by
      rw [length_unread]
      omega
    refine ⟨c.advance n, ?_, h.advance hbehind, ?_, Nat.le_refl _⟩
    · simp only [Cursor.advance, hmore, if_false]
    · rw [unread_advance hbehind, Unread.skip_succ_of_length_le hend]

/-- Zero bytes are passed over one at a time, and each is a byte of the area. -/
theorem skipZeros (h : Placed area c) :
    Placed area (c.skipZeros area) ∧
      (c.skipZeros area).unread area = (c.unread area).skipZeros ∧
      c.offset ≤ (c.skipZeros area).offset := by
  fun_induction c.skipZeros area with
  | case1 c hzero ih =>
    have hmove : c.offset + 1 ≤ area.length := (List.getElem?_eq_some_iff.1 hzero).1
    obtain ⟨hnext, hunread, hle⟩ := ih (h.advance hmove)
    refine ⟨hnext, ?_, Nat.le_of_succ_le hle⟩
    rw [hunread, unread_advance hmove, ← Unread.skipZeros_of_head?_eq (head?_unread.trans hzero)]
  | case2 c hzero =>
    exact ⟨h, (Unread.skipZeros_of_head?_ne (head?_unread ▸ hzero)).symm, Nat.le_refl _⟩

end Placed

end Cursor

/-! ### What every turn of a loop keeps -/

/-- **Fields that are read from one place on up to another**: each is filled and lies in the area
before the cursor moves on, and the next one is read from where the cursor is then, or later. -/
inductive Readings (area : Bytes) : Nat → List Reading → Nat → Prop where
  | nil {first last : Nat} (h : first ≤ last) : Readings area first [] last
  | cons {first last : Nat} {reading : Reading} {readings : List Reading}
      (start : first ≤ reading.field.offset) (liesIn : reading.field.LiesIn area)
      (filled : reading.field.bytes ≠ []) (stop_le : reading.field.stop ≤ reading.next)
      (rest : Readings area reading.next readings last) :
      Readings area first (reading :: readings) last

namespace Readings

variable {area : Bytes} {first middle last : Nat} {readings more : List Reading}

theorem le (h : Readings area first readings last) : first ≤ last := by
  induction h with
  | nil h => exact h
  | cons start _ _ stop_le _ ih =>
    rw [Field.stop] at stop_le
    omega

theorem of_le (h : Readings area middle readings last) (hle : first ≤ middle) :
    Readings area first readings last := by
  cases h with
  | nil h => exact .nil (hle.trans h)
  | cons start liesIn filled stop_le rest =>
    exact .cons (hle.trans start) liesIn filled stop_le rest

theorem append (h : Readings area first readings middle) (h' : Readings area middle more last) :
    Readings area first (readings ++ more) last := by
  induction h with
  | nil h => exact h'.of_le h
  | cons start liesIn filled stop_le _ ih => exact .cons start liesIn filled stop_le (ih h')

/-- Every reading moves the cursor on. -/
theorem of_mem (h : Readings area first readings last) {r : Reading} (hr : r ∈ readings) :
    first ≤ r.field.offset ∧ r.field.LiesIn area ∧ r.field.bytes ≠ [] ∧
      r.field.offset < r.next ∧ r.next ≤ last := by
  induction h with
  | nil => exact absurd hr List.not_mem_nil
  | cons start liesIn filled stop_le rest ih =>
    have hpos := List.length_pos_iff.2 filled
    rw [Field.stop] at stop_le
    rcases List.mem_cons.1 hr with rfl | hr
    · exact ⟨start, liesIn, filled, by omega, rest.le⟩
    · obtain ⟨hfirst, hrest⟩ := ih hr
      exact ⟨by omega, hrest⟩

/-- No two readings share a byte. -/
theorem pairwise (h : Readings area first readings last) :
    readings.Pairwise fun r s => r.field.stop ≤ r.next ∧ r.next ≤ s.field.offset := by
  induction h with
  | nil => exact List.Pairwise.nil
  | cons _ _ _ stop_le rest ih =>
    exact List.pairwise_cons.2 ⟨fun s hs => ⟨stop_le, (rest.of_mem hs).1⟩, ih⟩

/-- Each reading takes up one place at least. -/
theorem add_length_le (h : Readings area first readings last) :
    first + readings.length ≤ last := by
  induction h with
  | nil h => exact h
  | cons start _ filled stop_le _ ih =>
    have hpos := List.length_pos_iff.2 filled
    rw [Field.stop] at stop_le
    rw [List.length_cons]
    omega

theorem add_sum_le (h : Readings area first readings last) :
    first + (readings.map fun r => r.field.bytes.length).sum ≤ last := by
  induction h with
  | nil h => exact h
  | cons start _ _ stop_le _ ih =>
    rw [Field.stop] at stop_le
    rw [List.map_cons, List.sum_cons]
    omega

end Readings

namespace Cursor.Placed

variable {area : Bytes} {c : Cursor}

/-- The loop over the arguments reads what the pass reads, and stops where it does. -/
theorem readArguments (h : Placed area c) (count : Nat) :
    ∃ readings next, c.readArguments? area count = some (readings, next) ∧ Placed area next ∧
      (readings.map Reading.field, next.unread area) = (c.unread area).readArguments count ∧
      Readings area c.offset readings next.offset := by
  induction count generalizing c with
  | zero => exact ⟨[], c, rfl, h, rfl, .nil (Nat.le_refl _)⟩
  | succ count ih =>
    obtain ⟨hbehind, hzeros, hle⟩ := h.skipZeros
    by_cases hmore : (c.skipZeros area).offset < area.length
    · obtain ⟨after, hread, hafter, hfield, hstop⟩ := hbehind.readField
      obtain ⟨readings, next, hrest, hnext, hsame, hreadings⟩ := ih hafter
      have hne : (c.unread area).skipZeros.bytes ≠ [] := by
        rw [← hzeros, ← List.length_pos_iff, length_unread]
        omega
      have hfilled : ((c.skipZeros area).unread area).fieldBytes ≠ [] :=
        hzeros ▸ Unread.fieldBytes_skipZeros_ne_nil hne
      refine ⟨⟨((c.skipZeros area).unread area).field, after.offset⟩ :: readings, next, ?_, hnext,
        ?_, .cons hle hbehind.liesIn hfilled hstop hreadings⟩
      · simp only [readArguments?, hread, hrest, hmore, if_true, Option.bind_eq_bind,
          Option.bind_some]
        rfl
      · rw [Unread.readArguments_succ_of_ne hne, ← hzeros, ← hfield, ← hsame]
        rfl
    · have hnil : (c.unread area).skipZeros.bytes = [] := by
        rw [← hzeros, ← List.length_eq_zero_iff, length_unread]
        omega
      refine ⟨[], c.skipZeros area, ?_, hbehind, ?_, .nil hle⟩
      · simp only [readArguments?, hmore, if_false]
        rfl
      · rw [Unread.readArguments_succ_of_empty hnil, hzeros]
        rfl

/-- The loop over the entries reads what the pass reads. It ends, as the fields are filled. -/
theorem readEntries (h : Placed area c) :
    ∃ readings next, c.readEntries? area = some (readings, next) ∧ Placed area next ∧
      readings.map Reading.field = (c.unread area).readEntries ∧
      Readings area c.offset readings next.offset := by
  induction hu : c.unread area using Unread.readEntries.induct generalizing c with
  | case1 u hempty =>
    subst hu
    have hstop : ¬(c.offset < area.length ∧ area[c.offset]? ≠ some 0) :=
      fun hmore => fieldBytes_unread_ne_nil.2 hmore (List.isEmpty_iff.1 hempty)
    refine ⟨[], c, ?_, h, ?_, .nil (Nat.le_refl _)⟩
    · rw [readEntries?, if_neg hstop]
    · rw [Unread.readEntries, if_pos hempty]
      rfl
  | case2 u hfilled ih =>
    subst hu
    obtain ⟨after, hread, hafter, hfield, hstop⟩ := h.readField
    obtain ⟨readings, next, hrest, hnext, hsame, hreadings⟩ := ih hafter hfield
    have hne : (c.unread area).fieldBytes ≠ [] := by simpa using hfilled
    have hmove : c.offset < after.offset := by
      have hpos := List.length_pos_iff.2 hne
      simp only [Field.stop, Unread.field, unread] at hstop hpos
      omega
    refine ⟨⟨(c.unread area).field, after.offset⟩ :: readings, next, ?_, hnext, ?_,
      .cons (Nat.le_refl _) h.liesIn hne hstop hreadings⟩
    · rw [readEntries?, if_pos (fieldBytes_unread_ne_nil.1 hne)]
      simp only [hread, hrest, hmove, if_true, Option.bind_eq_bind, Option.bind_some]
      rfl
    · rw [Unread.readEntries, if_neg hfilled, List.map_cons, hsame]

end Cursor.Placed

/-! ### Bounds on a course -/

/-- **What a course does not exceed**, whatever the area claims. -/
structure Course.Bounded (course : Course) (area : Bytes) : Prop where
  /-- Every field that is read is a piece of the area. -/
  liesIn : ∀ r ∈ course.readings, r.field.LiesIn area
  /-- In the loops every field is filled, and the cursor moves on over it, but not out of the
  area. -/
  advances : ∀ r ∈ course.looped,
    r.field.bytes ≠ [] ∧ r.field.offset < r.next ∧ r.next ≤ area.length
  /-- A field ends before the cursor moves on, and later fields are read from there. -/
  apart : course.readings.Pairwise fun r s => r.field.stop ≤ r.next ∧ r.next ≤ s.field.offset
  /-- The loops read no more fields than there are bytes behind the count. -/
  length_le : course.arguments.length + course.entries.length ≤ area.length - 4
  /-- All fields have no more bytes together. -/
  sum_le : (course.readings.map fun r => r.field.bytes.length).sum ≤ area.length - 4

theorem Course.bounded {course : Course} {area : Bytes} {last : Nat}
    (hstart : 4 ≤ course.path.field.offset) (hpath : course.path.field.LiesIn area)
    (hstop : course.path.field.stop ≤ course.path.next)
    (hlooped : Readings area course.path.next course.looped last) (hlast : last ≤ area.length) :
    course.Bounded area where
  liesIn := List.forall_mem_cons.2 ⟨hpath, fun _ hr => (hlooped.of_mem hr).2.1⟩
  advances r hr := by
    obtain ⟨-, -, hfilled, hnext, hle⟩ := hlooped.of_mem hr
    exact ⟨hfilled, hnext, hle.trans hlast⟩
  apart := List.pairwise_cons.2 ⟨fun _ hr => ⟨hstop, (hlooped.of_mem hr).1⟩, hlooped.pairwise⟩
  length_le := by
    have hlength := hlooped.add_length_le
    rw [looped, List.length_append] at hlength
    rw [Field.stop] at hstop
    omega
  sum_le := by
    have hsum := hlooped.add_sum_le
    rw [Field.stop] at hstop
    rw [readings, List.map_cons, List.sum_cons]
    omega

open Cursor

theorem placed_behind_count {area : Bytes} (h : 4 ≤ area.length) :
    Placed area (start.advance 4) :=
  (placed_start area).advance ((Nat.zero_add 4).trans_le h)

/-- Behind a count that is not negative, the pass goes on to its end. -/
theorem exists_course {area : Bytes} {count : Int32}
    (h : Bytes.readInt32 area = some (count, area.drop 4)) (hlength : 4 ≤ area.length)
    (hcount : ¬count < 0) :
    ∃ course last, course? area = some (.ok course, last.visited) ∧ Placed area last ∧
      scan area = .ok course.fields ∧ course.Bounded area := by
  have h₀ := placed_behind_count hlength
  obtain ⟨c₁, hpath, h₁, hunread₁, hstop⟩ := h₀.readField
  obtain ⟨arguments, c₂, harguments, h₂, hread₂, hlooped₂⟩ := h₁.readArguments count.toInt.toNat
  obtain ⟨h₃, hunread₃, hle⟩ := h₂.skipZeros
  obtain ⟨entries, c₄, hentries, h₄, hread₄, hlooped₄⟩ := h₃.readEntries
  refine ⟨⟨⟨((start.advance 4).unread area).field, c₁.offset⟩, arguments, entries⟩, c₄, ?_, h₄, ?_,
    Course.bounded (Nat.le_refl _) h₀.liesIn hstop (hlooped₂.append (hlooped₄.of_le hle))
      h₄.within⟩
  · simp only [course?, h, if_neg hcount, hpath, harguments, hentries, Option.bind_eq_bind,
      Option.bind_some]
    rfl
  · have hsame : (start.advance 4).unread area = ⟨4, area.drop 4⟩ := rfl
    rw [scan, h]
    simp only [if_neg hcount, ← hsame, ← hunread₁, ← hread₂, ← hunread₃, ← hread₄]
    rfl

/-- The pass has a course for every area. It is given up only at the count, with the cursor still
in front of it or just behind. -/
theorem exists_outcome (area : Bytes) :
    ∃ outcome last, course? area = some (outcome, last.visited) ∧ Placed area last ∧
      scan area = outcome.map Course.fields ∧
      ∀ course, outcome = .ok course → course.Bounded area := by
  rcases Nat.lt_or_ge area.length 4 with hshort | hlength
  · have hread := Bytes.readInt32_of_lt hshort
    refine ⟨.error (.malformed "blob shorter than argc"), start, ?_, placed_start area, ?_, ?_⟩
    · rw [course?, hread]
    · rw [scan, hread]
      rfl
    · rintro _ ⟨⟩
  obtain ⟨count, hread, -⟩ := Bytes.readInt32_of_le hlength
  by_cases hcount : count < 0
  · refine ⟨.error (.malformed "negative argc"), start.advance 4, ?_, placed_behind_count hlength,
      ?_, ?_⟩
    · simp only [course?, hread, if_pos hcount]
    · simp only [scan, hread, if_pos hcount, Except.map]
    · rintro _ ⟨⟩
  · obtain ⟨course, last, hcourse, hlast, hscan, hbounded⟩ :=
      exists_course hread hlength hcount
    refine ⟨.ok course, last, hcourse, hlast, hscan, ?_⟩
    rintro _ ⟨⟩
    exact hbounded

/-- **The cursor stays in the area, and the pass does no more than the area has room for.** The
pass by places has a course for every area, and reads what the pass reads. Its cursor never
leaves the area and never goes back. In the loops every field is filled, has a piece of the area
to itself and moves the cursor on, and so there are no more fields, and no more bytes in all of
them, than bytes behind the count, whatever count of arguments the area claims. -/
theorem decode_bounded (area : Bytes) :
    ∃ outcome visited, course? area = some (outcome, visited) ∧
      scan area = outcome.map Course.fields ∧
      ProcessArguments.decode area = outcome.map (fun course => course.fields.texts) ∧
      visited.Pairwise (· ≤ ·) ∧ (∀ offset ∈ visited, offset ≤ area.length) ∧
      ∀ course, outcome = .ok course → course.Bounded area := by
  obtain ⟨outcome, last, hcourse, hlast, hscan, hbounded⟩ := exists_outcome area
  refine ⟨outcome, last.visited, hcourse, hscan, ?_, hlast.ordered,
    fun offset hoffset => (hlast.visited_le offset hoffset).trans hlast.within, hbounded⟩
  rw [ProcessArguments.decode, hscan]
  cases outcome <;> rfl

/-- Five bytes behind a count that is as great as a count can be. -/
theorem decode_bounded_greatest_count :
    let area : Bytes := [255, 255, 255, 127, 47, 0, 97, 0, 98]
    area.frontInt32 = 2 ^ 31 - 1 ∧
      ∃ course visited, course? area = some (.ok course, visited) ∧ course.Bounded area ∧
        course.arguments.length + course.entries.length ≤ 5 := by
  intro area
  have hfront : area.frontInt32 = 2 ^ 31 - 1 := by decide
  have hnonneg : 0 ≤ area.frontInt32 := by
    rw [hfront]
    decide
  have hdecode := ProcessArguments.decode_of_frontInt32_nonneg (by decide) hnonneg
  obtain ⟨outcome, visited, hcourse, -, houtcome, -, -, hbounded⟩ := decode_bounded area
  rw [hdecode] at houtcome
  cases outcome with
  | error e => cases houtcome
  | ok course =>
    have hcourse' := hbounded course rfl
    exact ⟨hfront, course, visited, hcourse, hcourse', hcourse'.length_le⟩

end ArgumentArea

end HostAccess
