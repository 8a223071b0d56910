import HostAccess.Process.ArgumentArea
import HostAccess.Proofs.Bytes
import HostAccess.Proofs.Process.Environment

/-!
# An argument area as a list of fields

The pass over an argument area moves a cursor, and where it stands decides what a byte
means. Here the same area is read without a cursor: what follows the count is cut at every
zero byte, and the *fields* so obtained say everything. A field is filled or empty, padding
is a run of empty ones, and then

* the first field is the executable;
* the first filled fields after it, as many as the count says, are the arguments;
* the first run of filled fields after those is the environment.

`HostAccess.ProcessArguments.Describes` states this of the arguments of a process, and
`HostAccess.ProcessArguments.decode_describes` is the agreement with the pass.

The one place where fields and cursor disagree is the end of the area: after a last zero
byte there is an empty field still to come, but nothing left to read, and after a last field
without a zero byte it is the other way round
(`HostAccess.Unread.fields_cases`). An empty field at the end changes neither
which fields are filled nor any run of them, so this never shows.
-/

namespace HostAccess

/-! ### Lists of fields -/

/-- Whether a field holds anything. -/
def filled (f : Bytes) : Bool :=
  !f.isEmpty

/-- The first run of filled fields. -/
def leadingRun (fs : List Bytes) : List Bytes :=
  (fs.dropWhile List.isEmpty).takeWhile filled

/-- What comes after the first `count` filled fields; nothing, if there are fewer. -/
def afterFilled : Nat → List Bytes → List Bytes
  | 0, fs => fs
  | _ + 1, [] => []
  | count + 1, f :: fs => if filled f then afterFilled count fs else afterFilled (count + 1) fs

@[simp]
theorem afterFilled_zero (fs : List Bytes) : afterFilled 0 fs = fs := by
  cases fs <;> rfl

theorem leadingRun_afterFilled_append {count : Nat} {before : List Bytes} (after : List Bytes)
    (h : (before.filter filled).length = count) :
    leadingRun (afterFilled count (before ++ after)) = leadingRun after := by
  induction before generalizing count with
  | nil =>
    obtain rfl : count = 0 := h.symm
    rw [afterFilled_zero, List.nil_append]
  | cons f before ih =>
    cases f with
    | nil =>
      have hb : (before.filter filled).length = count := h
      cases count with
      | zero =>
        have hrun := ih hb
        rw [afterFilled_zero] at hrun ⊢
        exact hrun
      | succ count => exact ih hb
    | cons b f =>
      subst h
      exact ih rfl

theorem afterFilled_eq_nil {count : Nat} {fs : List Bytes}
    (h : (fs.filter filled).length < count) : afterFilled count fs = [] := by
  induction fs generalizing count with
  | nil =>
    cases count with
    | zero => simp at h
    | succ count => rfl
  | cons f fs ih =>
    cases count with
    | zero => simp at h
    | succ count =>
      cases f with
      | nil => exact ih h
      | cons b f => exact ih (Nat.lt_of_succ_lt_succ h)

theorem afterFilled_succ_dropWhile (count : Nat) (fs : List Bytes) :
    afterFilled (count + 1) (fs.dropWhile List.isEmpty) = afterFilled (count + 1) fs := by
  induction fs with
  | nil => rfl
  | cons f fs ih =>
    cases f with
    | nil => exact ih
    | cons b f => rfl

theorem filter_filled_dropWhile (fs : List Bytes) :
    (fs.dropWhile List.isEmpty).filter filled = fs.filter filled := by
  induction fs with
  | nil => rfl
  | cons f fs ih =>
    cases f with
    | nil => exact ih
    | cons b f => rfl

theorem leadingRun_afterFilled_nil (count : Nat) : leadingRun (afterFilled count []) = [] := by
  cases count <;> rfl

theorem leadingRun_afterFilled_singleton_nil (count : Nat) :
    leadingRun (afterFilled count [[]]) = [] := by
  cases count <;> rfl

/-! ### The cursor and the fields in front of it -/

namespace Unread

/-- The fields that a zero byte ends, and the one at the end. -/
def fields (u : Unread) : List Bytes :=
  u.bytes.splitOn 0

theorem bytes_skipField (u : Unread) :
    u.skipField.bytes = (u.bytes.dropWhile (· != 0)).tail := by
  rw [skipField, skip, fieldBytes, ← List.drop_drop, drop_length_takeWhile, List.drop_one]

theorem bytes_skipZeros (u : Unread) : u.skipZeros.bytes = u.bytes.dropWhile (· == 0) :=
  drop_length_takeWhile ..

/-- **Passing over a field**: what is left has the fields after it. At the end of the area the
field has no zero byte, and what is left is empty rather than an empty field. -/
theorem fields_cases (u : Unread) :
    u.fields = u.fieldBytes :: u.skipField.fields ∨
      u.fields = [u.fieldBytes] ∧ u.skipField.fields = [[]] := by
  have hzero : 0 ∉ u.fieldBytes := fun h => by simpa using List.mem_takeWhile_imp h
  have hall : u.fieldBytes ++ u.bytes.dropWhile (· != 0) = u.bytes :=
    List.takeWhile_append_dropWhile
  have hhead := List.head?_dropWhile_not (· != 0) u.bytes
  rw [fields, fields, bytes_skipField]
  -- The bytes that are left are none or begin with the zero byte that ends the field.
  cases hrest : u.bytes.dropWhile (· != 0) with
  | nil =>
    rw [hrest, List.append_nil] at hall
    refine Or.inr ⟨?_, rfl⟩
    rw [← hall]
    exact List.splitOn_eq_singleton hzero
  | cons b rest =>
    rw [hrest] at hall hhead
    obtain rfl : b = 0 := by simpa using hhead
    refine Or.inl ?_
    rw [← hall, List.splitOn_append_cons_self_of_not_mem hzero, List.tail_cons]

/-- **Passing over zero bytes** passes over the empty fields in front. -/
theorem dropWhile_fields (u : Unread) :
    u.fields.dropWhile List.isEmpty =
      if u.skipZeros.bytes.isEmpty then [] else u.skipZeros.fields := by
  rw [fields, fields, bytes_skipZeros]
  induction u.bytes with
  | nil => rfl
  | cons b rest ih =>
    rw [List.splitOn_cons_eq_if_modifyHead]
    by_cases hb : b = 0
    · subst hb
      exact ih
    · -- The first field holds `b`, so nothing is passed over on either side.
      have hne : (b == 0) = false := beq_eq_false_iff_ne.2 hb
      obtain ⟨f, fs, hf⟩ := List.exists_cons_of_ne_nil (List.splitOn_ne_nil 0 rest)
      rw [List.dropWhile_cons_of_neg (by simp [hne])]
      simp [hne, hf, List.splitOn_cons_eq_if_modifyHead]

theorem fieldBytes_skipZeros_ne_nil {u : Unread} (h : u.skipZeros.bytes ≠ []) :
    u.skipZeros.fieldBytes ≠ [] := by
  have hhead := List.head?_dropWhile_not (· == 0) u.bytes
  rw [← bytes_skipZeros] at hhead
  obtain ⟨b, rest, hb⟩ := List.exists_cons_of_ne_nil h
  rw [hb] at hhead
  have hne : (b != 0) = true := by simpa [bne] using hhead
  rw [fieldBytes, hb, List.takeWhile_cons, if_pos hne]
  exact List.cons_ne_nil _ _

/-! ### What the two loops read -/

/-- The entries read are the filled fields up to the first empty one. -/
theorem map_bytes_readEntries (u : Unread) :
    u.readEntries.map Field.bytes = u.fields.takeWhile filled := by
  fun_induction readEntries u with
  | case1 u h =>
    rcases fields_cases u with hf | ⟨hf, -⟩ <;>
      rw [hf, List.takeWhile_cons_of_neg (by simp [filled, h]), List.map_nil]
  | case2 u h ih =>
    have hfill : filled u.fieldBytes = true := by simp [filled, h]
    rw [List.map_cons, ih]
    rcases fields_cases u with hf | ⟨hf, hrest⟩
    · rw [hf, List.takeWhile_cons_of_pos hfill]
      rfl
    · rw [hf, hrest, List.takeWhile_cons_of_pos hfill]
      rfl

theorem map_bytes_readEntries_skipZeros (u : Unread) :
    u.skipZeros.readEntries.map Field.bytes = leadingRun u.fields := by
  rw [leadingRun, dropWhile_fields, map_bytes_readEntries]
  split
  · rename_i h
    rw [fields, List.isEmpty_iff.1 h]
    rfl
  · rfl

theorem readArguments_succ_of_empty {count : Nat} {u : Unread} (h : u.skipZeros.bytes = []) :
    u.readArguments (count + 1) = ([], u.skipZeros) := by
  rw [readArguments]
  simp [h]

theorem readArguments_succ_of_ne {count : Nat} {u : Unread} (h : u.skipZeros.bytes ≠ []) :
    u.readArguments (count + 1) =
      (u.skipZeros.field :: (u.skipZeros.skipField.readArguments count).1,
        (u.skipZeros.skipField.readArguments count).2) := by
  rw [readArguments]
  simp [h]

/-- The arguments read are the first filled fields. -/
theorem map_bytes_readArguments (count : Nat) (u : Unread) :
    (u.readArguments count).1.map Field.bytes = (u.fields.filter filled).take count := by
  induction count generalizing u with
  | zero => rfl
  | succ count ih =>
    -- The empty fields that the loop passes over first are no filled ones.
    rw [← filter_filled_dropWhile, dropWhile_fields]
    by_cases h : u.skipZeros.bytes = []
    · rw [readArguments_succ_of_empty h, if_pos (by simp [h])]
      rfl
    · have hfill : filled u.skipZeros.fieldBytes = true := by
        simpa [filled] using fieldBytes_skipZeros_ne_nil h
      rw [readArguments_succ_of_ne h, if_neg (by simpa using h), List.map_cons, ih]
      rcases fields_cases u.skipZeros with hf | ⟨hf, hrest⟩
      · rw [hf, List.filter_cons_of_pos hfill, List.take_succ_cons]
        rfl
      · rw [hf, hrest, List.filter_cons_of_pos hfill, List.take_succ_cons]
        rfl

/-- The entries that follow the arguments are the first run of filled fields after them. -/
theorem map_bytes_readEntries_readArguments (count : Nat) (u : Unread) :
    (u.readArguments count).2.skipZeros.readEntries.map Field.bytes =
      leadingRun (afterFilled count u.fields) := by
  induction count generalizing u with
  | zero =>
    rw [afterFilled_zero]
    exact map_bytes_readEntries_skipZeros u
  | succ count ih =>
    rw [← afterFilled_succ_dropWhile, dropWhile_fields]
    by_cases h : u.skipZeros.bytes = []
    · rw [readArguments_succ_of_empty h, if_pos (by simp [h]), map_bytes_readEntries_skipZeros,
        fields, h]
      rfl
    · have hfill : filled u.skipZeros.fieldBytes = true := by
        simpa [filled] using fieldBytes_skipZeros_ne_nil h
      rw [readArguments_succ_of_ne h, if_neg (by simpa using h), ih]
      rcases fields_cases u.skipZeros with hf | ⟨hf, hrest⟩
      · rw [hf, afterFilled, if_pos hfill]
      · -- At the end there is one empty field too many, which begins no run.
        rw [hf, hrest, afterFilled, if_pos hfill, leadingRun_afterFilled_nil,
          leadingRun_afterFilled_singleton_nil]

end Unread

/-! ### What an area describes -/

namespace ProcessArguments

/-- The arguments that the fields of an area tell, `count` of them being arguments. -/
def ofFields (count : Nat) (fields : List Bytes) : ProcessArguments where
  execPath := (fields.head?.filter filled).map Utf8.decodeLossy
  arguments := ((fields.tail.filter filled).take count).map Utf8.decodeLossy
  environment :=
    .ofEntries ((leadingRun (afterFilled count fields.tail)).map Utf8.decodeLossy)

/-- The fields up to a place with as many filled ones as arguments are the arguments, and the
environment begins behind it. -/
theorem ofFields_of_cut {count : Nat} {path : Bytes} {before : List Bytes} (after : List Bytes)
    (h : (before.filter filled).length = count) :
    ofFields count (path :: (before ++ after)) = {
      execPath := ((some path).filter filled).map Utf8.decodeLossy
      arguments := (before.filter filled).map Utf8.decodeLossy
      environment := .ofEntries ((leadingRun after).map Utf8.decodeLossy) } := by
  rw [ofFields, List.head?_cons, List.tail_cons, List.filter_append, List.take_left' h,
    leadingRun_afterFilled_append after h]

/-- With too few filled fields all of them are arguments. -/
theorem ofFields_of_short {count : Nat} {path : Bytes} {fs : List Bytes}
    (h : (fs.filter filled).length < count) :
    ofFields count (path :: fs) = {
      execPath := ((some path).filter filled).map Utf8.decodeLossy
      arguments := (fs.filter filled).map Utf8.decodeLossy
      environment := .empty } := by
  rw [ofFields, List.head?_cons, List.tail_cons, List.take_of_length_le (Nat.le_of_lt h),
    afterFilled_eq_nil h]
  rfl

/-- **What the fields of an area say**, `count` being the number of arguments. The fields
after the executable are cut in two where the arguments end, in whichever place between the
last argument and the next filled field. -/
structure Describes (count : Nat) (fields : List Bytes) (a : ProcessArguments) : Prop where
  /-- The first field is the executable, unless it is empty. -/
  execPath : a.execPath = (fields.head?.filter filled).map Utf8.decodeLossy
  /-- The first filled fields after it are the arguments. -/
  arguments : a.arguments = ((fields.tail.filter filled).take count).map Utf8.decodeLossy
  /-- The first run of filled fields after the arguments is inserted from left to right. -/
  environment : ∀ before after, fields.tail = before ++ after →
    (before.filter filled).length = count →
      a.environment = .ofEntries ((leadingRun after).map Utf8.decodeLossy)
  /-- So the last entry of the run for a key holds. -/
  value : ∀ before after, fields.tail = before ++ after →
    (before.filter filled).length = count → ∀ key value,
      a.environment.get? key = some value ↔
        LastGives ((leadingRun after).map Utf8.decodeLossy) key value
  /-- With fewer arguments than the count says there is no environment. -/
  noEnvironment : (fields.tail.filter filled).length < count → a.environment = .empty

theorem describes_ofFields (count : Nat) (fields : List Bytes) :
    Describes count fields (ofFields count fields) where
  execPath := rfl
  arguments := rfl
  environment before after h hcount := by
    rw [ofFields, h, leadingRun_afterFilled_append after hcount]
  value before after h hcount key value := by
    rw [ofFields, h, leadingRun_afterFilled_append after hcount,
      Environment.get?_ofEntries_eq_some]
  noEnvironment h := by
    rw [ofFields, afterFilled_eq_nil h]
    rfl

theorem exists_append_of_le {count : Nat} {fs : List Bytes}
    (h : count ≤ (fs.filter filled).length) :
    ∃ before after, fs = before ++ after ∧ (before.filter filled).length = count := by
  induction fs generalizing count with
  | nil => exact ⟨[], [], rfl, (Nat.le_zero.1 h).symm⟩
  | cons f fs ih =>
    cases count with
    | zero => exact ⟨[], f :: fs, rfl, rfl⟩
    | succ count =>
      cases f with
      | nil =>
        obtain ⟨before, after, rfl, hb⟩ := ih h
        exact ⟨[] :: before, after, rfl, hb⟩
      | cons b f =>
        obtain ⟨before, after, rfl, hb⟩ := ih (Nat.le_of_succ_le_succ h)
        exact ⟨(b :: f) :: before, after, rfl, congrArg Nat.succ hb⟩

/-- The fields of an area say one thing only. -/
theorem Describes.unique {count : Nat} {fields : List Bytes} {a b : ProcessArguments}
    (ha : Describes count fields a) (hb : Describes count fields b) : a = b := by
  -- Only the environment is told by cases: there are too few arguments or a place to cut.
  have henv : a.environment = b.environment := by
    rcases Nat.lt_or_ge (fields.tail.filter filled).length count with h | h
    · rw [ha.noEnvironment h, hb.noEnvironment h]
    · obtain ⟨before, after, hfields, hcount⟩ := exists_append_of_le h
      rw [ha.environment before after hfields hcount, hb.environment before after hfields hcount]
  cases a
  cases b
  simp only [ProcessArguments.mk.injEq]
  exact ⟨ha.execPath.trans hb.execPath.symm, ha.arguments.trans hb.arguments.symm, henv⟩

theorem map_text (fs : List Field) :
    fs.map Field.text = (fs.map Field.bytes).map Utf8.decodeLossy := by
  rw [List.map_map]
  rfl

theorem ofFields_fields (count : Nat) (u : Unread) :
    ofFields count u.fields = {
      execPath := if u.fieldBytes.isEmpty then none else some (Utf8.decodeLossy u.fieldBytes)
      arguments := ((u.skipField.fields.filter filled).take count).map Utf8.decodeLossy
      environment := .ofEntries
        ((leadingRun (afterFilled count u.skipField.fields)).map Utf8.decodeLossy) } := by
  have hpath : ((some u.fieldBytes).filter filled).map Utf8.decodeLossy =
      if u.fieldBytes.isEmpty then none else some (Utf8.decodeLossy u.fieldBytes) := by
    cases u.fieldBytes <;> rfl
  rcases Unread.fields_cases u with hf | ⟨hf, hrest⟩
  · rw [hf, ofFields, List.head?_cons, List.tail_cons, hpath]
  · rw [hf, hrest, ofFields, List.head?_cons, List.tail_cons, hpath, leadingRun_afterFilled_nil,
      leadingRun_afterFilled_singleton_nil]
    rfl

/-- **The pass reads the fields**, whatever count of them it is told to take for arguments. -/
theorem decode_of_readInt32 {area rest : Bytes} {count : Int32}
    (h : Bytes.readInt32 area = some (count, rest)) (hcount : 0 ≤ count) :
    decode area = .ok (ofFields count.toInt.toNat (rest.splitOn 0)) := by
  have hneg : ¬count < 0 := Int32.not_lt.2 hcount
  have hfields := ofFields_fields count.toInt.toNat ⟨4, rest⟩
  rw [Unread.fields] at hfields
  rw [decode, ArgumentArea.scan, h]
  simp only [if_neg hneg, Except.map, ArgumentArea.texts, map_text,
    Unread.map_bytes_readArguments, Unread.map_bytes_readEntries_readArguments]
  rw [hfields]
  rfl

theorem decode_of_length_lt {area : Bytes} (h : area.length < 4) :
    decode area = .error (.malformed "blob shorter than argc") := by
  rw [decode, ArgumentArea.scan, Bytes.readInt32_of_lt h]
  rfl

theorem decode_of_frontInt32_neg {area : Bytes} (h : 4 ≤ area.length)
    (hneg : area.frontInt32 < 0) : decode area = .error (.malformed "negative argc") := by
  obtain ⟨count, hread, hvalue⟩ := Bytes.readInt32_of_le h
  have hcount : count < 0 := Int32.lt_iff_toInt_lt.2 (hvalue ▸ hneg)
  rw [decode, ArgumentArea.scan, hread]
  simp only [if_pos hcount]
  rfl

theorem decode_of_frontInt32_nonneg {area : Bytes} (h : 4 ≤ area.length)
    (hnonneg : 0 ≤ area.frontInt32) :
    decode area = .ok (ofFields area.frontInt32.toNat ((area.drop 4).splitOn 0)) := by
  obtain ⟨count, hread, hvalue⟩ := Bytes.readInt32_of_le h
  have hcount : 0 ≤ count := Int32.le_iff_toInt_le.2 (hvalue ▸ hnonneg)
  rw [decode_of_readInt32 hread hcount, hvalue]

/-- **An area is read as its fields say.** The two errors have one cause each, and every
other area describes something, and one thing only. -/
theorem decode_describes (area : Bytes) :
    (decode area = .error (.malformed "blob shorter than argc") ↔ area.length < 4) ∧
      (decode area = .error (.malformed "negative argc") ↔
        4 ≤ area.length ∧ area.frontInt32 < 0) ∧
      (4 ≤ area.length → 0 ≤ area.frontInt32 →
        ∃ a, decode area = .ok a ∧
          ∀ b, Describes area.frontInt32.toNat ((area.drop 4).splitOn 0) b ↔ b = a) := by
  rcases Nat.lt_or_ge area.length 4 with h | h
  · have hread := decode_of_length_lt h
    refine ⟨⟨fun _ => h, fun _ => hread⟩, ?_, fun h4 => absurd h (Nat.not_lt.2 h4)⟩
    simp [hread, h]
  rcases lt_or_ge area.frontInt32 0 with hneg | hnonneg
  · have hread := decode_of_frontInt32_neg h hneg
    refine ⟨?_, ⟨fun _ => ⟨h, hneg⟩, fun _ => hread⟩, fun _ h0 => absurd hneg (Int.not_lt.2 h0)⟩
    simp [hread, h]
  · have hread := decode_of_frontInt32_nonneg h hnonneg
    refine ⟨by simp [hread, h], by simp [hread, hnonneg], fun _ _ => ⟨_, hread, fun b => ?_⟩⟩
    constructor
    · exact fun hb => hb.unique (describes_ofFields ..)
    · rintro rfl
      exact describes_ofFields ..

/-- Two arguments after doubled padding, and an entry that is cut. -/
theorem decode_describes_two_arguments :
    let area : Bytes := [2, 0, 0, 0, 47, 0, 0, 97, 0, 0, 98, 0, 75, 61, 86]
    4 ≤ area.length ∧ 0 ≤ area.frontInt32 ∧
      ∃ a, decode area = .ok a ∧
        ∀ b, Describes area.frontInt32.toNat ((area.drop 4).splitOn 0) b ↔ b = a :=
  ⟨by decide, by decide, (decode_describes _).2.2 (by decide) (by decide)⟩

end ProcessArguments

end HostAccess
