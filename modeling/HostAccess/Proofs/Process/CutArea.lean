import HostAccess.Proofs.Process.ArgumentArea
import HostAccess.Proofs.Text.Utf8
import Mathlib.Data.List.Infix

/-!
# What is read of an argument area that was cut

A buffer may be too short for an argument area, and then its end is missing. A field that was
cut ends where the buffer does, so the fields of the front are the first fields of the area, and
only the last of them may be shorter (`HostAccess.Torn`). What is read of them is found again in
what is read of the whole: of a list the first items, the last one perhaps cut short
(`HostAccess.CutOff`). As a field that was cut is the last one there is, a list that lacks
something is also the last one that has anything: where an argument is missing or shorter, no
entry is read.

A shorter entry is harmless as well. If the cut is in its key it has no equals sign and says
nothing, and behind the sign only its value is shorter. But if the area gives a key twice, the
cut may take away the later value and leave the earlier one.

* `HostAccess.torn_splitOn_take`: the fields of a front;
* `HostAccess.cutOff_filter`, `HostAccess.cutOff_leadingRun`: what is read of them;
* `HostAccess.ProcessArguments.decode_take`: the main result.
-/

namespace HostAccess

/-! ### Lists that were cut -/

section CutOff

variable {α β : Type*} {R : α → α → Prop} {cut full : List α}

/-- **A list that was cut off**: its items are the first items of the full list, but of the last
one there may be less, as `R` says. -/
def CutOff (R : α → α → Prop) (cut full : List α) : Prop :=
  cut <+: full ∨ ∃ whole last last' rest,
    cut = whole ++ [last] ∧ full = whole ++ last' :: rest ∧ R last last'

theorem cutOff_nil (full : List α) : CutOff R [] full :=
  .inl List.nil_prefix

theorem cutOff_singleton {a b : α} (h : R a b) (rest : List α) : CutOff R [a] (b :: rest) :=
  .inr ⟨[], a, b, rest, rfl, rfl, h⟩

theorem CutOff.cons (h : CutOff R cut full) (a : α) : CutOff R (a :: cut) (a :: full) := by
  rcases h with h | ⟨whole, last, last', rest, rfl, rfl, h⟩
  · exact .inl (List.cons_prefix_cons.2 ⟨rfl, h⟩)
  · exact .inr ⟨a :: whole, last, last', rest, rfl, rfl, h⟩

theorem CutOff.take (h : CutOff R cut full) (n : Nat) : CutOff R (cut.take n) (full.take n) := by
  rcases h with h | ⟨whole, last, last', rest, rfl, rfl, h⟩
  · exact .inl (List.IsPrefix.take h n)
  · rw [List.take_append, List.take_append]
    cases n - whole.length with
    | zero => exact .inl (List.prefix_refl _)
    | succ m => exact .inr ⟨_, last, last', rest.take m, by simp, rfl, h⟩

theorem CutOff.map {S : β → β → Prop} {f : α → β} (h : CutOff R cut full)
    (hf : ∀ a, ∀ b ∈ full, R a b → S (f a) (f b)) : CutOff S (cut.map f) (full.map f) := by
  rcases h with h | ⟨whole, last, last', rest, rfl, rfl, h⟩
  · exact .inl (List.IsPrefix.map f h)
  · refine .inr ⟨whole.map f, f last, f last', rest.map f, by simp, by simp, hf last last' ?_ h⟩
    exact List.mem_append_right _ List.mem_cons_self

/-- All items but one are those of the full list. -/
theorem CutOff.exists_mem (h : CutOff R cut full) :
    ∃ last : Option α, ∀ a ∈ cut, a ∈ full ∨ last = some a ∧ ∃ b ∈ full, R a b := by
  rcases h with h | ⟨whole, last, last', rest, rfl, rfl, h⟩
  · exact ⟨none, fun a ha => .inl (h.subset ha)⟩
  · refine ⟨some last, fun a ha => ?_⟩
    rcases List.mem_append.1 ha with ha | ha
    · exact .inl (List.mem_append_left _ ha)
    · obtain rfl := List.mem_singleton.1 ha
      exact .inr ⟨rfl, last', List.mem_append_right _ List.mem_cons_self, h⟩

end CutOff

/-! ### Fields -/

/-- **The fields of a front**: the last one may be shorter, or empty. -/
inductive Torn : List Bytes → List Bytes → Prop where
  | empty (f : Bytes) (rest : List Bytes) : Torn [[]] (f :: rest)
  | last (b : UInt8) (f more : Bytes) (rest : List Bytes) :
      Torn [b :: f] ((b :: (f ++ more)) :: rest)
  | cons (f : Bytes) {cut full : List Bytes} (torn : Torn cut full) : Torn (f :: cut) (f :: full)

/-- A byte in front is a byte in front of the first field. -/
theorem Torn.modifyHead {cut full : List Bytes} (h : Torn cut full) (b : UInt8) :
    Torn (cut.modifyHead (b :: ·)) (full.modifyHead (b :: ·)) := by
  cases h with
  | empty f rest => exact .last b [] f rest
  | last b' f more rest => exact .last b (b' :: f) more rest
  | cons f torn => exact .cons (b :: f) torn

theorem Torn.tail {cut full : List Bytes} (h : Torn cut full) :
    cut.tail = [] ∨ Torn cut.tail full.tail := by
  cases h with
  | empty => exact .inl rfl
  | last => exact .inl rfl
  | cons f torn => exact .inr torn

/-- **The fields of the front of an area** are its first ones. -/
theorem torn_splitOn_take (bytes : Bytes) (n : Nat) :
    Torn ((bytes.take n).splitOn 0) (bytes.splitOn 0) := by
  induction bytes generalizing n with
  | nil =>
    rw [List.take_nil]
    exact .empty [] []
  | cons b bytes ih =>
    cases n with
    | zero =>
      obtain ⟨f, fs, hf⟩ := List.exists_cons_of_ne_nil (List.splitOn_ne_nil 0 (b :: bytes))
      rw [List.take_zero, hf]
      exact .empty f fs
    | succ n =>
      rw [List.take_succ_cons, List.splitOn_cons_eq_if_modifyHead,
        List.splitOn_cons_eq_if_modifyHead]
      split
      · exact .cons [] (ih n)
      · exact (ih n).modifyHead b

/-- A field that was cut, though not down to nothing. -/
def ShorterField (f f' : Bytes) : Prop :=
  f ≠ [] ∧ f ≠ f' ∧ f <+: f'

variable {cut full : List Bytes} {count : Nat}

theorem cutOff_last (b : UInt8) (f more : Bytes) (rest : List Bytes) :
    CutOff ShorterField [b :: f] ((b :: (f ++ more)) :: rest) := by
  rcases eq_or_ne more [] with rfl | hmore
  · rw [List.append_nil]
    exact (cutOff_nil rest).cons (b :: f)
  · exact cutOff_singleton ⟨List.cons_ne_nil _ _, by simpa using hmore, ⟨more, rfl⟩⟩ rest

/-- The filled fields of a front. -/
theorem cutOff_filter (h : Torn cut full) :
    CutOff ShorterField (cut.filter filled) (full.filter filled) := by
  induction h with
  | empty => exact cutOff_nil _
  | last b f more rest => exact cutOff_last b f more _
  | cons f _ ih =>
    cases f with
    | nil => exact ih
    | cons b f => exact ih.cons (b :: f)

theorem cutOff_takeWhile (h : Torn cut full) :
    CutOff ShorterField (cut.takeWhile filled) (full.takeWhile filled) := by
  induction h with
  | empty => exact cutOff_nil _
  | last b f more rest => exact cutOff_last b f more _
  | cons f _ ih =>
    cases f with
    | nil => exact cutOff_nil _
    | cons b f => exact ih.cons (b :: f)

/-- The first run of filled fields of a front. -/
theorem cutOff_leadingRun (h : Torn cut full) :
    CutOff ShorterField (leadingRun cut) (leadingRun full) := by
  induction h with
  | empty => exact cutOff_nil _
  | last b f more rest => exact cutOff_last b f more _
  | cons f torn ih =>
    cases f with
    | nil => exact ih
    | cons b f => exact (cutOff_takeWhile torn).cons (b :: f)

/-- Behind the last filled field no run begins. -/
theorem leadingRun_afterFilled_of_le {fs : List Bytes} (h : (fs.filter filled).length ≤ count) :
    leadingRun (afterFilled count fs) = [] := by
  rcases Nat.lt_or_eq_of_le h with hfew | heq
  · rw [afterFilled_eq_nil hfew]
    rfl
  · rw [← List.append_nil fs, leadingRun_afterFilled_append [] heq]
    rfl

/-- **Either the cut is behind the arguments, or nothing is read after them.** -/
theorem arguments_eq_or_leadingRun_eq_nil (h : Torn cut full) :
    (cut.filter filled).take count = (full.filter filled).take count ∧
        CutOff ShorterField (leadingRun (afterFilled count cut))
          (leadingRun (afterFilled count full)) ∨
      leadingRun (afterFilled count cut) = [] := by
  induction h generalizing count with
  | empty f rest => exact .inr (leadingRun_afterFilled_singleton_nil count)
  | last b f more rest =>
    cases count with
    | zero => exact .inl ⟨rfl, cutOff_last b f more _⟩
    | succ count => exact .inr (leadingRun_afterFilled_of_le (Nat.succ_le_succ (Nat.zero_le _)))
  | cons f torn ih =>
    cases count with
    | zero => exact .inl ⟨rfl, cutOff_leadingRun (torn.cons f)⟩
    | succ count =>
      cases f with
      | nil => exact ih
      | cons b f =>
        rcases @ih count with ⟨hargs, hrun⟩ | hnil
        · exact .inl ⟨congrArg ((b :: f) :: ·) hargs, hrun⟩
        · exact .inr hnil

/-! ### Texts -/

/-- A text that was cut, though not down to nothing. -/
def ShorterText (s t : String) : Prop :=
  s ≠ "" ∧ s ≠ t ∧ s.toList <+: t.toList

/-- Whether all bytes are below 128. -/
def Ascii (bytes : Bytes) : Prop :=
  ∀ b ∈ bytes, b < 0x80

theorem toList_decodeLossy {f : Bytes} (h : Ascii f) :
    (Utf8.decodeLossy f).toList = f.map fun b => Char.ofNat b.toNat := by
  rw [Utf8.decodeLossy_of_ascii h, String.toList_ofList]

theorem Ascii.of_prefix {f f' : Bytes} (h : Ascii f') (hfront : f <+: f') : Ascii f :=
  fun b hb => h b (hfront.subset hb)

/-- The text of the front of a field is the front of its text. -/
theorem decodeLossy_prefix {f f' : Bytes} (h : Ascii f') (hfront : f <+: f') :
    (Utf8.decodeLossy f).toList <+: (Utf8.decodeLossy f').toList := by
  rw [toList_decodeLossy h, toList_decodeLossy (h.of_prefix hfront)]
  exact hfront.map _

theorem shorterText_decodeLossy {f f' : Bytes} (h : Ascii f') (hshort : ShorterField f f') :
    ShorterText (Utf8.decodeLossy f) (Utf8.decodeLossy f') := by
  obtain ⟨hne, hproper, hfront⟩ := hshort
  refine ⟨fun hnil => hne ?_, fun heq => hproper ?_, decodeLossy_prefix h hfront⟩
  · have hlist := toList_decodeLossy (h.of_prefix hfront)
    rw [hnil] at hlist
    exact List.map_eq_nil_iff.1 hlist.symm
  · have hlist := congrArg String.toList heq
    rw [toList_decodeLossy h, toList_decodeLossy (h.of_prefix hfront)] at hlist
    exact hfront.eq_of_length (by simpa using congrArg List.length hlist)

theorem cutOff_texts (h : CutOff ShorterField cut full) (hascii : ∀ f ∈ full, Ascii f) :
    CutOff ShorterText (cut.map Utf8.decodeLossy) (full.map Utf8.decodeLossy) :=
  h.map fun _ f' hf' hshort => shorterText_decodeLossy (hascii f' hf') hshort

/-! ### Entries -/

/-- An entry gives one key. -/
theorem EntryGives.key_unique {entry key key' v v' : String} (h : EntryGives entry key v)
    (h' : EntryGives entry key' v') : key = key' :=
  (Prod.mk.inj (Option.some.inj
    ((splitEntry?_eq_some.2 h).symm.trans (splitEntry?_eq_some.2 h')))).1

/-- More characters at the end of an entry belong to its value. -/
theorem EntryGives.exists_of_prefix {entry entry' key v : String} (h : EntryGives entry key v)
    (hfront : entry.toList <+: entry'.toList) :
    ∃ v', EntryGives entry' key v' ∧ v.toList <+: v'.toList := by
  obtain ⟨hne, hno, rfl⟩ := h
  obtain ⟨more, hmore⟩ := hfront
  refine ⟨v ++ String.ofList more, ⟨hne, hno, ?_⟩, ?_⟩
  · rw [← String.toList_inj, ← hmore]
    simp
  · simp

/-- Without a repeated key every entry is the last one for its key. -/
theorem lastGives_of_mem {entries : List String} {entry key value : String}
    (hnodup : ((entries.filterMap splitEntry?).map Prod.fst).Nodup) (hmem : entry ∈ entries)
    (h : EntryGives entry key value) : LastGives entries key value := by
  obtain ⟨before, after, rfl⟩ := List.append_of_mem hmem
  refine ⟨before, entry, after, rfl, h, fun e he v hv => ?_⟩
  rw [List.filterMap_append, List.filterMap_cons_some (splitEntry?_eq_some.2 h), List.map_append,
    List.map_cons] at hnodup
  refine (List.nodup_cons.1 (List.nodup_append.1 hnodup).2.1).1 ?_
  exact List.mem_map.2 ⟨(key, v), List.mem_filterMap.2 ⟨e, he, splitEntry?_eq_some.2 hv⟩, rfl⟩

theorem LastGives.exists_mem {entries : List String} {key value : String}
    (h : LastGives entries key value) : ∃ entry ∈ entries, EntryGives entry key value := by
  obtain ⟨before, entry, after, rfl, hgives, -⟩ := h
  exact ⟨entry, List.mem_append_right _ List.mem_cons_self, hgives⟩

namespace Environment

/-- A key whose value is another one. -/
def Changed (cut full : Environment) (key : String) : Prop :=
  ∃ v v', cut.get? key = some v ∧ full.get? key = some v' ∧ v ≠ v'

section CutEntries

variable {short entries : List String} (h : CutOff ShorterText short entries)
  (hnodup : ((entries.filterMap splitEntry?).map Prod.fst).Nodup)

include h hnodup

/-- A value of the entries that were cut is the front of a value of all entries, and is all of
it unless its entry is the one that was cut. -/
theorem exists_get?_of_cutOff : ∃ last : Option String, ∀ key v,
    (ofEntries short).get? key = some v →
      (ofEntries entries).get? key = some v ∨
        ∃ entry v', last = some entry ∧ EntryGives entry key v ∧
          (ofEntries entries).get? key = some v' ∧ v.toList <+: v'.toList := by
  obtain ⟨last, hlast⟩ := h.exists_mem
  refine ⟨last, fun key v hv => ?_⟩
  obtain ⟨entry, hentry, hgives⟩ := (get?_ofEntries_eq_some.1 hv).exists_mem
  rcases hlast entry hentry with hmem | ⟨rfl, full, hmem, -, -, hfront⟩
  · exact .inl (get?_ofEntries_eq_some.2 (lastGives_of_mem hnodup hmem hgives))
  · obtain ⟨v', hgives', hv'⟩ := hgives.exists_of_prefix hfront
    have hfull := get?_ofEntries_eq_some.2 (lastGives_of_mem hnodup hmem hgives')
    exact .inr ⟨entry, v', rfl, hgives, hfull, hv'⟩

theorem get?_prefix_of_cutOff {key v : String} (hv : (ofEntries short).get? key = some v) :
    ∃ v', (ofEntries entries).get? key = some v' ∧ v.toList <+: v'.toList := by
  obtain ⟨last, hlast⟩ := exists_get?_of_cutOff h hnodup
  rcases hlast key v hv with hfull | ⟨-, v', -, -, hfull, hfront⟩
  · exact ⟨v, hfull, List.prefix_refl _⟩
  · exact ⟨v', hfull, hfront⟩

/-- At most one value is shorter. -/
theorem changed_unique_of_cutOff {key key' : String}
    (hkey : Changed (ofEntries short) (ofEntries entries) key)
    (hkey' : Changed (ofEntries short) (ofEntries entries) key') : key = key' := by
  obtain ⟨last, hlast⟩ := exists_get?_of_cutOff h hnodup
  -- Both values come from the entry that was cut, which has one key.
  have hcut {key v v' : String} (hv : (ofEntries short).get? key = some v)
      (hv' : (ofEntries entries).get? key = some v') (hne : v ≠ v') :
      ∃ entry, last = some entry ∧ EntryGives entry key v := by
    rcases hlast key v hv with hfull | ⟨entry, -, hentry, hgives, -⟩
    · exact absurd (Option.some.inj (hfull.symm.trans hv')) hne
    · exact ⟨entry, hentry, hgives⟩
  obtain ⟨v, v', hv, hv', hne⟩ := hkey
  obtain ⟨u, u', hu, hu', hne'⟩ := hkey'
  obtain ⟨entry, rfl, hgives⟩ := hcut hv hv' hne
  obtain ⟨entry', hentry', hgives'⟩ := hcut hu hu' hne'
  obtain rfl := Option.some.inj hentry'
  exact hgives.key_unique hgives'

end CutEntries

end Environment

/-! ### Areas -/

namespace ProcessArguments

open Environment

theorem ascii_of_mem_splitOn {bytes : Bytes} (h : Ascii bytes) :
    ∀ f ∈ bytes.splitOn 0, Ascii f := by
  induction bytes with
  | nil =>
    intro f hf
    rw [List.mem_singleton.1 hf]
    exact h
  | cons b bytes ih =>
    obtain ⟨hb, hbytes⟩ := List.forall_mem_cons.1 h
    obtain ⟨f, fs, hf⟩ := List.exists_cons_of_ne_nil (List.splitOn_ne_nil 0 bytes)
    have hall := ih hbytes
    rw [List.splitOn_cons_eq_if_modifyHead]
    split
    · exact List.forall_mem_cons.2 ⟨fun b hb => absurd hb List.not_mem_nil, hall⟩
    · rw [hf] at hall ⊢
      obtain ⟨hhead, htail⟩ := List.forall_mem_cons.1 hall
      exact List.forall_mem_cons.2 ⟨List.forall_mem_cons.2 ⟨hb, hhead⟩, htail⟩

theorem leadingRun_subset (fs : List Bytes) : leadingRun fs ⊆ fs :=
  List.Subset.trans (List.takeWhile_subset _) (List.dropWhile_subset _)

theorem afterFilled_subset (count : Nat) (fs : List Bytes) : afterFilled count fs ⊆ fs := by
  fun_induction afterFilled count fs with
  | case1 fs => exact List.Subset.refl fs
  | case2 count => exact List.Subset.refl []
  | case3 count f fs _ ih => exact List.subset_cons_of_subset f ih
  | case4 count f fs _ ih => exact List.subset_cons_of_subset f ih

/-- The entries of an area are the first run of filled fields behind its arguments. -/
theorem exists_scan {area : Bytes} (h : 4 ≤ area.length) (hcount : 0 ≤ area.frontInt32) :
    ∃ fields, ArgumentArea.scan area = .ok fields ∧ fields.entries.map Field.text =
      (leadingRun (afterFilled area.frontInt32.toNat ((area.drop 4).splitOn 0).tail)).map
        Utf8.decodeLossy := by
  obtain ⟨count, hread, hvalue⟩ := Bytes.readInt32_of_le h
  have hneg : ¬count < 0 := Int32.not_lt.2 (Int32.le_iff_toInt_le.2 (hvalue ▸ hcount))
  rw [ArgumentArea.scan, hread]
  simp only [if_neg hneg]
  refine ⟨_, rfl, ?_⟩
  rw [map_text, Unread.map_bytes_readEntries_readArguments, hvalue]
  rcases Unread.fields_cases ⟨4, area.drop 4⟩ with hf | ⟨hf, hrest⟩
  · rw [Unread.fields] at hf
    rw [hf, List.tail_cons]
  · rw [Unread.fields] at hf
    rw [hf, hrest, List.tail_cons, leadingRun_afterFilled_nil, leadingRun_afterFilled_singleton_nil]

/-- The executable of a front is the front of the executable. -/
theorem execPath_prefix (h : Torn cut full) (hascii : ∀ f ∈ full, Ascii f) (n m : Nat) :
    ((ofFields n cut).execPath.getD "").toList <+: ((ofFields m full).execPath.getD "").toList := by
  have hgetD (f : Bytes) (fs : List Bytes) (n : Nat) :
      (ofFields n (f :: fs)).execPath.getD "" = Utf8.decodeLossy f := by
    cases f <;> rfl
  cases h with
  | empty f rest => exact List.nil_prefix
  | last b f more rest =>
    rw [hgetD, hgetD]
    exact decodeLossy_prefix (hascii _ List.mem_cons_self) ⟨more, rfl⟩
  | cons f torn =>
    rw [hgetD, hgetD]

/-- The arguments of a front are the first arguments. -/
theorem cutOff_arguments (h : Torn cut full) (hascii : ∀ f ∈ full, Ascii f) (count : Nat) :
    CutOff ShorterText (ofFields count cut).arguments (ofFields count full).arguments := by
  rcases h.tail with hnil | htorn
  · have hnone : (ofFields count cut).arguments = [] := by simp [ofFields, hnil]
    rw [hnone]
    exact cutOff_nil _
  · refine cutOff_texts ((cutOff_filter htorn).take count) fun f hf => hascii f ?_
    exact List.mem_of_mem_tail (List.mem_of_mem_filter (List.mem_of_mem_take hf))

/-- **The entries of a front are the first entries**, and there are none if an argument is
missing or shorter. -/
theorem exists_entries (h : Torn cut full) (hascii : ∀ f ∈ full, Ascii f) (count : Nat) :
    ∃ short, (ofFields count cut).environment = .ofEntries short ∧
      CutOff ShorterText short
        ((leadingRun (afterFilled count full.tail)).map Utf8.decodeLossy) ∧
      ((ofFields count cut).arguments ≠ (ofFields count full).arguments → short = []) := by
  have hall : ∀ f ∈ leadingRun (afterFilled count full.tail), Ascii f := fun f hf =>
    hascii f (List.mem_of_mem_tail (afterFilled_subset _ _ (leadingRun_subset _ hf)))
  refine ⟨_, rfl, ?_⟩
  rcases h.tail with hnil | htorn
  · rw [hnil, leadingRun_afterFilled_nil]
    exact ⟨cutOff_nil _, fun _ => rfl⟩
  · rcases @arguments_eq_or_leadingRun_eq_nil _ _ count htorn with ⟨hargs, hrun⟩ | hnone
    · exact ⟨cutOff_texts hrun hall, fun hne => absurd (congrArg _ hargs) hne⟩
    · rw [hnone]
      exact ⟨cutOff_nil _, fun _ => rfl⟩

/-- **An area that was cut is read as far as it goes**, if it is ASCII. Compared with what is
read of the whole area, the executable is a front. The arguments are the first arguments, of
which only the last may be shorter, though not empty. If one is missing or shorter, there is no
environment. And if no key is given twice, each value is the front of the value for its key, and
at most one of them is shorter. -/
theorem decode_take {area : Bytes} {n : Nat} (hlength : 4 ≤ area.length)
    (hcount : 0 ≤ area.frontInt32) (hascii : Ascii (area.drop 4)) (hn : 4 ≤ n) :
    ∃ a b fields, decode (area.take n) = .ok a ∧ decode area = .ok b ∧
      ArgumentArea.scan area = .ok fields ∧
      (a.execPath.getD "").toList <+: (b.execPath.getD "").toList ∧
      CutOff ShorterText a.arguments b.arguments ∧
      (a.arguments ≠ b.arguments → a.environment = .empty) ∧
      ((((fields.entries.map Field.text).filterMap splitEntry?).map Prod.fst).Nodup →
        (∀ key v, a.environment.get? key = some v →
          ∃ v', b.environment.get? key = some v' ∧ v.toList <+: v'.toList) ∧
        ∀ key key', Changed a.environment b.environment key →
          Changed a.environment b.environment key' → key = key') := by
  have hcut : 4 ≤ (area.take n).length := by
    rw [List.length_take]
    omega
  have hfront : Bytes.frontInt32 (area.take n) = area.frontInt32 := Bytes.frontInt32_take hn
  have hdrop : (area.take n).drop 4 = (area.drop 4).take (n - 4) := List.drop_take
  have htorn := torn_splitOn_take (area.drop 4) (n - 4)
  have hfields := ascii_of_mem_splitOn hascii
  have hshort := decode_of_frontInt32_nonneg hcut (hcount.trans_eq hfront.symm)
  have hwhole := decode_of_frontInt32_nonneg hlength hcount
  obtain ⟨fields, hscan, hentries⟩ := exists_scan hlength hcount
  rw [hfront, hdrop] at hshort
  -- Only that the count is the same matters from here on.
  generalize area.frontInt32.toNat = count at hshort hwhole hentries
  obtain ⟨entries, henvironment, hcutOff, hnone⟩ := exists_entries htorn hfields count
  refine ⟨_, _, fields, hshort, hwhole, hscan, execPath_prefix htorn hfields count count,
    cutOff_arguments htorn hfields count, fun hne => ?_, ?_⟩
  · rw [henvironment, hnone hne]
    rfl
  · rw [hentries, henvironment]
    exact fun hnodup => ⟨fun _ _ => get?_prefix_of_cutOff hcutOff hnodup,
      fun _ _ => changed_unique_of_cutOff hcutOff hnodup⟩

/-- Two arguments and two entries, cut inside the value of the first entry. -/
theorem decode_take_inside_value :
    let area : Bytes :=
      [2, 0, 0, 0, 47, 115, 0, 97, 98, 0, 99, 0, 75, 61, 49, 50, 0, 76, 61, 51, 0, 0]
    4 ≤ area.length ∧ 0 ≤ area.frontInt32 ∧ Ascii (area.drop 4) ∧ 4 ≤ 15 ∧
      ∃ a b, decode (area.take 15) = .ok a ∧ decode area = .ok b ∧
        CutOff ShorterText a.arguments b.arguments ∧ a.arguments = ["ab", "c"] ∧
        a.environment.get? "K" = some "1" ∧
        ∃ v, b.environment.get? "K" = some v ∧ "1".toList <+: v.toList := by
  intro area
  have hlength : 4 ≤ area.length := by decide
  have hcount : 0 ≤ area.frontInt32 := by decide
  have hascii : Ascii (area.drop 4) := by simp [Ascii, area]
  obtain ⟨a, b, fields, ha, hb, hscan, -, hargs, -, henvironment⟩ :=
    decode_take hlength hcount hascii (by decide : 4 ≤ 15)
  have hshort : decode (area.take 15) = .ok ⟨some "/s", ["ab", "c"], ⟨[("K", "1")]⟩⟩ := by
    decide +kernel
  have hfields : ArgumentArea.scan area = .ok ⟨⟨4, [47, 115]⟩, [⟨7, [97, 98]⟩, ⟨10, [99]⟩],
      [⟨12, [75, 61, 49, 50]⟩, ⟨17, [76, 61, 51]⟩]⟩ := by decide +kernel
  obtain rfl := Except.ok.inj (ha.symm.trans hshort)
  obtain rfl := Except.ok.inj (hscan.symm.trans hfields)
  obtain ⟨hvalue, -⟩ := henvironment (by decide)
  exact ⟨hlength, hcount, hascii, by decide, _, b, ha, hb, hargs, rfl, rfl, hvalue "K" "1" rfl⟩

end ProcessArguments

end HostAccess
