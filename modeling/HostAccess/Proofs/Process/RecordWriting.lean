import HostAccess.Proofs.Process.RecordTable

/-!
# Which layouts can be written with and read again

A layout is of use if what is written with it can be read again: a row of records, each with
the numbers of a process and of its parent put over whatever was there before. The check of
`HostAccess.RecordLayout.validate` is a comparison of three numbers. Among the layouts whose
fields do not end beyond `2 ^ 64`, where the comparison wraps around, it accepts just those that
are of use in this sense.

* If both fields lie inside a record and have no byte in common, then neither writing spoils
  the other, and the four bytes of a field are those of the number that was put there
  (`HostAccess.RecordLayout.exists_writeTable?`).
* For the converse one process is enough. The bytes of `-1` all differ from those of `0`, so a
  record that tells both has two fields without a common byte
  (`HostAccess.RecordLayout.usable_of_tells`), and it cannot tell a number whose field leaves it.

A usable layout reads every buffer, and what it reads is in the bytes of the fields of whole
records alone: `HostAccess.RecordLayout.records?_congr`.
-/

namespace HostAccess

namespace RecordLayout

/-! ### Putting a number into a record -/

/-- A number put over the bytes of a record at an offset; `none` if it does not fit inside. -/
def putField? (record : Bytes) (offset : Nat) (x : Pid) : Option Bytes :=
  if offset + 4 ≤ record.length then
    some (record.take offset ++ (Bytes.writeInt32 x ++ record.drop (offset + 4)))
  else none

section PutField

variable {record written : Bytes} {offset place : Nat} {x : Pid}

theorem exists_putField? (h : offset + 4 ≤ record.length) (x : Pid) :
    ∃ written, putField? record offset x = some written :=
  ⟨_, if_pos h⟩

theorem putField?_eq_some (h : putField? record offset x = some written) :
    offset + 4 ≤ record.length ∧
      written = record.take offset ++ (Bytes.writeInt32 x ++ record.drop (offset + 4)) := by
  unfold putField? at h
  split at h
  · next hfits => exact ⟨hfits, (Option.some.inj h).symm⟩
  · cases h

theorem length_of_putField? (h : putField? record offset x = some written) :
    written.length = record.length := by
  obtain ⟨hfits, rfl⟩ := putField?_eq_some h
  have hfield : (Bytes.writeInt32 x).length = 4 := rfl
  simp only [List.length_append, List.length_take, List.length_drop, hfield]
  omega

/-- The number stands where it was put. -/
theorem field_of_putField? (h : putField? record offset x = some written) :
    (written.drop offset).take 4 = Bytes.writeInt32 x := by
  obtain ⟨hfits, rfl⟩ := putField?_eq_some h
  have hfront : (record.take offset).length = offset := List.length_take_of_le (by omega)
  rw [List.drop_left' hfront]
  exact List.take_left' rfl

/-- **A field apart from it is left alone.** -/
theorem field_of_putField?_of_apart (h : putField? record offset x = some written)
    (hapart : place + 4 ≤ offset ∨ offset + 4 ≤ place) :
    (written.drop place).take 4 = (record.drop place).take 4 := by
  obtain ⟨hfits, rfl⟩ := putField?_eq_some h
  have hfront : (record.take offset).length = offset := List.length_take_of_le (by omega)
  rcases hapart with hbefore | hbehind
  · have hlong : 4 ≤ ((record.take offset).drop place).length := by
      rw [List.length_drop, hfront]
      omega
    rw [List.drop_append_of_le_length (by omega), List.take_append_of_le_length hlong,
      List.drop_take, List.take_take, Nat.min_eq_left (by omega)]
  · -- Behind the number the record goes on as before.
    have hnumber : (record.take offset ++ Bytes.writeInt32 x).length = offset + 4 := by
      rw [List.length_append, hfront]
      rfl
    obtain ⟨k, rfl⟩ := Nat.exists_eq_add_of_le hbehind
    rw [← List.append_assoc, ← List.drop_drop, List.drop_left' hnumber, List.drop_drop]

end PutField

/-! ### Writing a table -/

variable (l : RecordLayout)

/-- **The record of a process**, written over other bytes: first its own number, then that of
its parent. It is `none` if one of them does not lie inside. -/
def writeRecord? (fill : Bytes) (process : Pid × Pid) : Option Bytes :=
  (putField? fill l.pidOffset.toNat process.1).bind fun record =>
    putField? record l.ppidOffset.toNat process.2

/-- **The table of some rows**, each the bytes to write over and the process to write. -/
def writeTable? (rows : List (Bytes × (Pid × Pid))) : Option Bytes :=
  (rows.mapM fun row => l.writeRecord? row.1 row.2).map List.flatten

variable {l}

/-- For a usable layout both numbers can be written, and the record tells them. -/
theorem exists_writeRecord? (h : l.Usable) {fill : Bytes} (hfill : fill.length = l.stride.toNat)
    (process : Pid × Pid) :
    ∃ record, l.writeRecord? fill process = some record ∧ l.Tells record process := by
  obtain ⟨first, hfirst⟩ := exists_putField? (hfill ▸ h.pid) process.1
  have hlength : first.length = l.stride.toNat := (length_of_putField? hfirst).trans hfill
  obtain ⟨record, hrecord⟩ := exists_putField? (hlength ▸ h.ppid) process.2
  refine ⟨record, ?_, (length_of_putField? hrecord).trans hlength, ?_, field_of_putField? hrecord⟩
  · rw [writeRecord?, hfirst, Option.bind_some, hrecord]
  · rw [field_of_putField?_of_apart hrecord h.apart, field_of_putField? hfirst]

/-- **For a usable layout every table can be written**, and it says what was written. -/
theorem exists_writeTable? (h : l.Usable) {rows : List (Bytes × (Pid × Pid))}
    (hrows : ∀ row ∈ rows, row.1.length = l.stride.toNat) :
    ∃ table, l.writeTable? rows = some table ∧ l.IsTable (rows.map Prod.snd) table := by
  induction rows with
  | nil => exact ⟨[], rfl, isTable_nil⟩
  | cons row rows ih =>
    obtain ⟨hrow, hrows⟩ := List.forall_mem_cons.1 hrows
    obtain ⟨record, hrecord, htells⟩ := exists_writeRecord? h hrow row.2
    obtain ⟨table, htable, hsays⟩ := ih hrows
    obtain ⟨records, hrecords, rfl⟩ := Option.map_eq_some_iff.1 htable
    refine ⟨record ++ records.flatten, ?_, hsays.cons htells⟩
    rw [writeTable?, List.mapM_cons, hrecord, hrecords]
    rfl

/-! ### What a record that was read tells -/

variable {record buffer other : Bytes} {process : Pid × Pid}

theorem field_of_field? {offset : Nat} {x : Pid} (h : field? record offset = some x) :
    offset + 4 ≤ record.length ∧ (record.drop offset).take 4 = Bytes.writeInt32 x := by
  obtain ⟨⟨y, rest⟩, hread, rfl⟩ := Option.map_eq_some_iff.1 h
  have hlength : 4 ≤ (record.drop offset).length := by
    by_contra hshort
    rw [Bytes.readInt32_of_lt (Nat.lt_of_not_le hshort)] at hread
    cases hread
  rw [List.length_drop] at hlength
  have hfits : offset + 4 ≤ record.length := by omega
  obtain ⟨x, hx⟩ := exists_writeInt32 hfits
  have hagain : some y = some x := h.symm.trans (field?_of_take hx)
  exact ⟨hfits, by rw [hx, Option.some.inj hagain]⟩

/-- Reading a record yields what it tells. -/
theorem entry?_eq_some_iff (hlength : record.length = l.stride.toNat) :
    l.entry? record = some process ↔ l.Tells record process := by
  refine ⟨fun h => ?_, Tells.entry?⟩
  obtain ⟨pid, hpid, hrest⟩ := Option.bind_eq_some_iff.1 h
  obtain ⟨ppid, hppid, rfl⟩ := Option.map_eq_some_iff.1 hrest
  exact ⟨hlength, (field_of_field? hpid).2, (field_of_field? hppid).2⟩

/-- The bytes of a field lie inside its record. -/
theorem Tells.fits (h : l.Tells record process) :
    l.pidOffset.toNat + 4 ≤ l.stride.toNat ∧ l.ppidOffset.toNat + 4 ≤ l.stride.toNat := by
  have inside : ∀ {offset : Nat} {x : Pid}, (record.drop offset).take 4 = Bytes.writeInt32 x →
      offset + 4 ≤ record.length := fun hfield => (field_of_field? (field?_of_take hfield)).1
  exact ⟨h.length ▸ inside h.pid, h.length ▸ inside h.ppid⟩

/-- A byte of a field whose four bytes are alike. -/
theorem getElem?_of_field {offset i : Nat} {b : UInt8} (hi : i < 4)
    (h : (record.drop offset).take 4 = List.replicate 4 b) : record[offset + i]? = some b := by
  rw [← List.getElem?_drop, ← List.getElem?_take_of_lt hi, h, List.getElem?_replicate_of_lt hi]

/-- **A layout by which some record tells `-1` and `0` is usable**: a byte of both fields would
have to be a byte of either number. -/
theorem usable_of_tells (hstride : 0 < l.stride.toNat) (h : l.Tells record (-1, 0)) : l.Usable := by
  obtain ⟨hpid, hppid⟩ := h.fits
  refine ⟨hstride, hpid, hppid, ?_⟩
  by_contra hoverlap
  -- The common byte stands where the later of the two fields begins.
  have hi : l.ppidOffset.toNat - l.pidOffset.toNat < 4 := by omega
  have hj : l.pidOffset.toNat - l.ppidOffset.toNat < 4 := by omega
  have hsame : l.pidOffset.toNat + (l.ppidOffset.toNat - l.pidOffset.toNat) =
      l.ppidOffset.toNat + (l.pidOffset.toNat - l.ppidOffset.toNat) := by omega
  have hone : record[l.pidOffset.toNat + (l.ppidOffset.toNat - l.pidOffset.toNat)]? = some 0xFF :=
    getElem?_of_field hi h.pid
  have hzero : record[l.ppidOffset.toNat + (l.pidOffset.toNat - l.ppidOffset.toNat)]? = some 0 :=
    getElem?_of_field hj h.ppid
  rw [hsame, hzero] at hone
  exact absurd hone (by decide)

/-! ### What a buffer tells -/

/-- The record of a buffer at a place in the row. -/
def recordAt (l : RecordLayout) (buffer : Bytes) (place : Nat) : Bytes :=
  (buffer.drop (place * l.stride.toNat)).take l.stride.toNat

theorem pieces_eq_map_recordAt (count : Nat) (buffer : Bytes) :
    pieces l.stride.toNat count buffer = (List.range count).map (l.recordAt buffer) := by
  induction count generalizing buffer with
  | zero => rfl
  | succ count ih =>
    have hnext : l.recordAt (buffer.drop l.stride.toNat) = l.recordAt buffer ∘ Nat.succ := by
      funext place
      simp only [recordAt, Function.comp_apply, List.drop_drop, Nat.succ_mul, Nat.add_comm]
    rw [pieces, ih, List.range_succ_eq_map, List.map_cons, List.map_map, hnext, recordAt,
      Nat.zero_mul, List.drop_zero]

/-- **Two buffers with the same fields**: as many whole records, and in each of them the same
four bytes for either number. -/
structure SameFields (l : RecordLayout) (buffer other : Bytes) : Prop where
  count : l.recordCount buffer.length = l.recordCount other.length
  pid : ∀ i < l.recordCount buffer.length,
    (buffer.drop (i * l.stride.toNat + l.pidOffset.toNat)).take 4 =
      (other.drop (i * l.stride.toNat + l.pidOffset.toNat)).take 4
  ppid : ∀ i < l.recordCount buffer.length,
    (buffer.drop (i * l.stride.toNat + l.ppidOffset.toNat)).take 4 =
      (other.drop (i * l.stride.toNat + l.ppidOffset.toNat)).take 4

/-- The bytes of a field of a record, by their place in the buffer. -/
theorem field_recordAt {offset : Nat} (h : offset + 4 ≤ l.stride.toNat) (buffer : Bytes) (i : Nat) :
    ((l.recordAt buffer i).drop offset).take 4 =
      (buffer.drop (i * l.stride.toNat + offset)).take 4 := by
  rw [recordAt, List.drop_take, List.drop_drop, List.take_take, Nat.min_eq_left (by omega)]

theorem length_recordAt {i : Nat} (h : i < l.recordCount buffer.length) :
    (l.recordAt buffer i).length = l.stride.toNat := by
  refine length_of_mem_pieces (Nat.div_mul_le_self buffer.length l.stride.toNat) ?_
  rw [pieces_eq_map_recordAt]
  exact List.mem_map_of_mem (List.mem_range.2 h)

/-- **What is read depends on the fields of whole records alone.** -/
theorem records?_congr (h : l.Usable) (hsame : l.SameFields buffer other) :
    l.records? buffer = l.records? other := by
  have hentries : (List.range (l.recordCount buffer.length)).map (l.entry? ∘ l.recordAt buffer) =
      (List.range (l.recordCount buffer.length)).map (l.entry? ∘ l.recordAt other) := by
    refine List.map_congr_left fun i hi => ?_
    have hi : i < l.recordCount buffer.length := List.mem_range.1 hi
    obtain ⟨process, hprocess⟩ := exists_tells h (length_recordAt hi)
    have hother : l.Tells (l.recordAt other i) process := by
      refine ⟨length_recordAt (hsame.count ▸ hi), ?_, ?_⟩
      · rw [field_recordAt h.pid, ← hsame.pid i hi, ← field_recordAt h.pid, hprocess.pid]
      · rw [field_recordAt h.ppid, ← hsame.ppid i hi, ← field_recordAt h.ppid, hprocess.ppid]
    rw [Function.comp_apply, Function.comp_apply, hprocess.entry?, hother.entry?]
  have hread : ∀ buffer : Bytes, l.records? buffer =
      ((List.range (l.recordCount buffer.length)).map (l.entry? ∘ l.recordAt buffer)).mapM id := by
    intro buffer
    rw [records?, if_neg h.stride_ne_zero, pieces_eq_map_recordAt, List.mapM_map, List.mapM_map]
    rfl
  rw [hread buffer, hread other, hentries, hsame.count]

/-! ### The check -/

/-- **What is written can be read again**: the rows can be written without leaving a record,
and reading the table with `rest` behind it leaves no record either and yields the processes
that were written, one for each record. -/
def ReadsBack (l : RecordLayout) (rows : List (Bytes × (Pid × Pid))) (rest : Bytes) : Prop :=
  ∃ table, l.writeTable? rows = some table ∧
    l.records? (table ++ rest) = some (rows.map Prod.snd) ∧
    l.recordCount (table ++ rest).length = rows.length

theorem readsBack_of_usable (h : l.Usable) {rows : List (Bytes × (Pid × Pid))} {rest : Bytes}
    (hrows : ∀ row ∈ rows, row.1.length = l.stride.toNat) (hrest : rest.length < l.stride.toNat) :
    l.ReadsBack rows rest := by
  obtain ⟨table, htable, hsays⟩ := exists_writeTable? h hrows
  refine ⟨table, htable, records?_append h hsays hrest, ?_⟩
  rw [recordCount_append h.stride_pos hsays.length hrest, List.length_map]

/-- Reading back one process is enough. -/
theorem usable_of_readsBack (hstride : 0 < l.stride.toNat) {fill rest : Bytes}
    (h : l.ReadsBack [(fill, (-1, 0))] rest) : l.Usable := by
  obtain ⟨table, -, hread, hcount⟩ := h
  have hne : l.stride ≠ 0 := fun hzero => Nat.ne_of_gt hstride (congrArg UInt64.toNat hzero)
  have hlength : (l.recordAt (table ++ rest) 0).length = l.stride.toNat :=
    length_recordAt (hcount ▸ Nat.zero_lt_one)
  rw [records?, if_neg hne, hcount, pieces_eq_map_recordAt] at hread
  obtain ⟨process, hprocess, hentries⟩ := Option.bind_eq_some_iff.1 hread
  cases hentries
  exact usable_of_tells hstride ((entry?_eq_some_iff hlength).1 hprocess)

/-- **The check accepts exactly the layouts that read back what is written with them**, whatever
stood in the records before and whatever follows that is less than a record, if no field ends
beyond `2 ^ 64`. A layout that is accepted then reads every buffer, with one entry for each whole
record, and it reads two buffers alike if they have the same fields. -/
theorem validate_eq_ok_iff (l : RecordLayout) (hpid : l.pidOffset.toNat + 4 < 2 ^ 64)
    (hppid : l.ppidOffset.toNat + 4 < 2 ^ 64) :
    (l.validate = .ok () ↔ 0 < l.stride.toNat ∧ ∀ rows rest,
      (∀ row ∈ rows, row.1.length = l.stride.toNat) → rest.length < l.stride.toNat →
        l.ReadsBack rows rest) ∧
    (l.validate = .ok () →
      (∀ buffer, ∃ entries, l.records? buffer = some entries ∧
        entries.length = l.recordCount buffer.length) ∧
      ∀ buffer other, l.SameFields buffer other → l.records? buffer = l.records? other) := by
  have haccepted : l.validate = .ok () ↔ l.Usable := accepted_iff hpid hppid
  rw [haccepted]
  refine ⟨⟨fun h => ?_, fun ⟨hstride, hback⟩ => ?_⟩, fun h => ⟨fun buffer => ?_, ?_⟩⟩
  · exact ⟨h.stride_pos, fun rows rest => readsBack_of_usable h⟩
  · refine usable_of_readsBack hstride
      (hback [(List.replicate l.stride.toNat 0, (-1, 0))] [] ?_ hstride)
    simp
  · obtain ⟨processes, table, rest, rfl, hrest, htable⟩ := exists_isTable h buffer
    exact ⟨processes, records?_append h htable hrest,
      (recordCount_append h.stride_pos htable.length hrest).symm⟩
  · exact fun buffer other => records?_congr h

/-- Records in which the parent stands in front, at odd places, over bytes of another table and
with a piece of a record behind them. -/
theorem validate_eq_ok_iff_parent_first :
    let l : RecordLayout := ⟨13, 7, 1⟩
    let rows := [(List.replicate 13 0xAA, (512, 1)), (List.replicate 13 0x55, (-7, 512))]
    let rest := [1, 2, 3]
    l.pidOffset.toNat + 4 < 2 ^ 64 ∧ l.ppidOffset.toNat + 4 < 2 ^ 64 ∧
      l.validate = .ok () ∧ 0 < l.stride.toNat ∧ (∀ row ∈ rows, row.1.length = l.stride.toNat) ∧
      rest.length < l.stride.toNat ∧ l.ReadsBack rows rest ∧
      ∀ buffer, ∃ entries, l.records? buffer = some entries ∧
        entries.length = l.recordCount buffer.length := by
  intro l rows rest
  have hpid : l.pidOffset.toNat + 4 < 2 ^ 64 := by decide
  have hppid : l.ppidOffset.toNat + 4 < 2 ^ 64 := by decide
  have h : l.validate = .ok () := by decide
  have hrows : ∀ row ∈ rows, row.1.length = l.stride.toNat := by decide
  obtain ⟨⟨haccepted, -⟩, htotal⟩ := validate_eq_ok_iff l hpid hppid
  obtain ⟨hstride, hback⟩ := haccepted h
  exact ⟨hpid, hppid, h, hstride, hrows, by decide, hback rows rest hrows (by decide),
    (htotal h).1⟩

end RecordLayout

end HostAccess
