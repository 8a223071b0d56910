import HostAccess.Process.Layout
import HostAccess.Proofs.Bytes
import Mathlib.Data.List.Forall2

/-!
# What a process table says

A table of processes is a row of records of one size, each with the bytes of two numbers
where the layout has its fields (`HostAccess.RecordLayout.IsTable`). Only the four bytes of
either field are spoken of; the rest of a record is free.

* `HostAccess.RecordLayout.exists_isTable`: for a usable layout every buffer is a table
  followed by less than a record;
* `HostAccess.RecordLayout.records?_append`: reading such a buffer yields what the table says.

Between them the entries of a buffer are fixed by its whole records alone.
-/

namespace HostAccess

namespace RecordLayout

variable (l : RecordLayout)

/-- **A record that tells a process and its parent**: it is of the size of the layout, and
the bytes of the two numbers stand where the layout has its fields. -/
structure Tells (record : Bytes) (process : Pid × Pid) : Prop where
  length : record.length = l.stride.toNat
  pid : (record.drop l.pidOffset.toNat).take 4 = Bytes.writeInt32 process.1
  ppid : (record.drop l.ppidOffset.toNat).take 4 = Bytes.writeInt32 process.2

/-- **A table of processes**: a record for each of them, in order. -/
def IsTable (processes : List (Pid × Pid)) (table : Bytes) : Prop :=
  ∃ records : List Bytes, table = records.flatten ∧ List.Forall₂ l.Tells records processes

variable {l} {table rest : Bytes} {processes : List (Pid × Pid)}

/-! ### Records -/

theorem field?_of_take {record : Bytes} {offset : Nat} {pid : Pid}
    (h : (record.drop offset).take 4 = Bytes.writeInt32 pid) : field? record offset = some pid := by
  rw [field?, ← List.take_append_drop 4 (record.drop offset), h, Bytes.readInt32_writeInt32]
  rfl

theorem Tells.entry? {record : Bytes} {process : Pid × Pid} (h : l.Tells record process) :
    l.entry? record = some process := by
  rw [RecordLayout.entry?, field?_of_take h.pid, field?_of_take h.ppid]
  rfl

/-- Where a field fits, its bytes are those of some number. -/
theorem exists_writeInt32 {record : Bytes} {offset : Nat} (h : offset + 4 ≤ record.length) :
    ∃ pid, (record.drop offset).take 4 = Bytes.writeInt32 pid := by
  have hlength : 4 ≤ (record.drop offset).length := by
    rw [List.length_drop]
    omega
  obtain ⟨a, b, c, d, tail, hrecord⟩ := Bytes.exists_cons_of_four_le hlength
  exact ⟨Bytes.toInt32 a b c d, by rw [hrecord, Bytes.writeInt32_toInt32]; rfl⟩

/-- For a usable layout every record tells something. -/
theorem exists_tells (h : l.Usable) {record : Bytes} (hlength : record.length = l.stride.toNat) :
    ∃ process, l.Tells record process := by
  obtain ⟨pid, hp⟩ := exists_writeInt32 (hlength ▸ h.pid)
  obtain ⟨ppid, hq⟩ := exists_writeInt32 (hlength ▸ h.ppid)
  exact ⟨(pid, ppid), hlength, hp, hq⟩

/-! ### Tables -/

theorem isTable_nil : l.IsTable [] [] :=
  ⟨[], rfl, .nil⟩

theorem IsTable.cons {record : Bytes} {process : Pid × Pid} (hrecord : l.Tells record process)
    (htable : l.IsTable processes table) :
    l.IsTable (process :: processes) (record ++ table) := by
  obtain ⟨records, rfl, hrecords⟩ := htable
  exact ⟨record :: records, rfl, .cons hrecord hrecords⟩

/-- **Every buffer is a table followed by less than a record.** -/
theorem exists_isTable (h : l.Usable) (buffer : Bytes) :
    ∃ processes table rest, buffer = table ++ rest ∧ rest.length < l.stride.toNat ∧
      l.IsTable processes table := by
  have hstride := h.stride_pos
  induction hn : buffer.length using Nat.strong_induction_on generalizing buffer with
  | _ n ih =>
    by_cases hshort : buffer.length < l.stride.toNat
    · exact ⟨[], [], buffer, rfl, hshort, isTable_nil⟩
    · -- The first record, and then the same for what follows it.
      have htake : (buffer.take l.stride.toNat).length = l.stride.toNat := by
        rw [List.length_take]
        omega
      have hdrop : (buffer.drop l.stride.toNat).length < n := by
        rw [List.length_drop]
        omega
      obtain ⟨process, hprocess⟩ := exists_tells h htake
      obtain ⟨processes, table, rest, hbuffer, hrest, htable⟩ := ih _ hdrop _ rfl
      refine ⟨process :: processes, buffer.take l.stride.toNat ++ table, rest, ?_, hrest,
        htable.cons hprocess⟩
      rw [List.append_assoc, ← hbuffer, List.take_append_drop]

/-! ### Reading a table -/

theorem pieces_append {records : List Bytes} (h : List.Forall₂ l.Tells records processes)
    (rest : Bytes) :
    pieces l.stride.toNat processes.length (records.flatten ++ rest) = records := by
  induction h with
  | nil => rfl
  | @cons record process records processes hrecord hrecords ih =>
    rw [List.length_cons, pieces, List.flatten_cons, List.append_assoc, ← hrecord.length,
      List.take_left, List.drop_left, hrecord.length, ih]

theorem mapM_entry? {records : List Bytes} (h : List.Forall₂ l.Tells records processes) :
    records.mapM l.entry? = some processes := by
  induction h with
  | nil => rfl
  | cons hrecord hrecords ih =>
    rw [List.mapM_cons, hrecord.entry?, ih]
    rfl

theorem IsTable.length (h : l.IsTable processes table) :
    table.length = processes.length * l.stride.toNat := by
  obtain ⟨records, rfl, hrecords⟩ := h
  induction hrecords with
  | nil => simp
  | cons hrecord hrecords ih =>
    rw [List.flatten_cons, List.length_append, ih, hrecord.length, List.length_cons,
      Nat.add_one_mul, Nat.add_comm]

/-- What is less than a record does not count. -/
theorem recordCount_append (hstride : 0 < l.stride.toNat) {n : Nat}
    (htable : table.length = n * l.stride.toNat) (hrest : rest.length < l.stride.toNat) :
    l.recordCount (table ++ rest).length = n := by
  rw [recordCount, List.length_append, htable, Nat.add_comm, Nat.add_mul_div_right _ _ hstride,
    Nat.div_eq_of_lt hrest, Nat.zero_add]

/-- **Reading a buffer yields what its table says**, whatever follows it that is less than
a record. No field is looked for outside its record. -/
theorem records?_append (h : l.Usable) (htable : l.IsTable processes table)
    (hrest : rest.length < l.stride.toNat) : l.records? (table ++ rest) = some processes := by
  have hcount : l.recordCount (table ++ rest).length = processes.length :=
    recordCount_append h.stride_pos htable.length hrest
  obtain ⟨records, rfl, hrecords⟩ := htable
  rw [records?, if_neg h.stride_ne_zero, hcount, pieces_append hrecords, mapM_entry? hrecords]

/-! ### Records without anything else -/

/-- The layout of records that hold nothing but the two numbers. -/
def bare : RecordLayout := ⟨8, 0, 4⟩

/-- The table of such records. -/
def bareTable (processes : List (Pid × Pid)) : Bytes :=
  processes.flatMap fun process => Bytes.writeInt32 process.1 ++ Bytes.writeInt32 process.2

theorem isTable_bareTable (processes : List (Pid × Pid)) :
    bare.IsTable processes (bareTable processes) := by
  induction processes with
  | nil => exact isTable_nil
  | cons process processes ih =>
    rw [bareTable, List.flatMap_cons]
    exact .cons ⟨rfl, rfl, rfl⟩ ih

end RecordLayout

end HostAccess
