import HostAccess.Proofs.Process.ArgumentArea
import HostAccess.Proofs.Text.Utf8

/-!
# Reading an argument area undoes writing it

A kernel writes an argument area from the texts a process was started with, and pads it as
it likes: between executable and arguments, and again between arguments and environment.
Nothing in the area but the count says how long any of it is, so a reader can only find its
way back if no text holds a zero byte and no argument and no entry is empty.

`HostAccess.ArgumentArea.write` is such a writer. Its fields are the texts in order with
empty fields for the padding (`HostAccess.ArgumentArea.fields_write`), and all that is left
is to read them: `HostAccess.ProcessArguments.decode_write_shifted` for any arguments, of
which the empty ones are lost, and `HostAccess.ProcessArguments.decode_write` where none is
empty. Whatever follows the entries begins with an empty field, which ends their run –
unless there are no entries, for then the run would begin behind it. This is why nothing may
follow an empty environment.
-/

namespace HostAccess

/-! ### Writing -/

/-- A text without zero characters. -/
def ZeroFree (s : String) : Prop :=
  '\x00' ∉ s.toList

instance (s : String) : Decidable (ZeroFree s) :=
  inferInstanceAs (Decidable ('\x00' ∉ s.toList))

/-- The bytes of texts, each with a zero byte after it. -/
def terminated (texts : List String) : Bytes :=
  texts.flatMap fun text => Utf8.encode text ++ [0]

/-- **An argument area as a kernel writes it**, with `padding` zero bytes in front of the
arguments and `gap` in front of the entries, and any bytes after its end. -/
def ArgumentArea.write (path : String) (arguments entries : List String) (padding gap : Nat)
    (rest : Bytes) : Bytes :=
  Bytes.writeInt32 (Int32.ofNat arguments.length) ++ (Utf8.encode path ++ [0]) ++
    List.replicate padding 0 ++ terminated arguments ++ List.replicate gap 0 ++
    terminated entries ++ [0] ++ rest

/-! ### The fields of what was written -/

theorem splitOn_append_zero {s : String} (h : ZeroFree s) (rest : Bytes) :
    (Utf8.encode s ++ 0 :: rest).splitOn 0 = Utf8.encode s :: rest.splitOn 0 :=
  List.splitOn_append_cons_self_of_not_mem (Utf8.zero_not_mem_encode h) rest

/-- Pieces with a separator after each are found again, if it is in none of them. -/
theorem splitOn_flatMap_append {α β : Type*} [BEq β] [LawfulBEq β] {z : β} {write : α → List β}
    {xs : List α} (h : ∀ x ∈ xs, z ∉ write x) (rest : List β) :
    (xs.flatMap (fun x => write x ++ [z]) ++ rest).splitOn z =
      xs.map write ++ rest.splitOn z := by
  induction xs with
  | nil => rfl
  | cons x xs ih =>
    obtain ⟨hx, hxs⟩ := List.forall_mem_cons.1 h
    have happ : (x :: xs).flatMap (fun x => write x ++ [z]) ++ rest =
        write x ++ z :: (xs.flatMap (fun x => write x ++ [z]) ++ rest) := by simp
    rw [happ, List.splitOn_append_cons_self_of_not_mem hx, ih hxs, List.map_cons,
      List.cons_append]

theorem splitOn_terminated {texts : List String} (h : ∀ s ∈ texts, ZeroFree s) (rest : Bytes) :
    (terminated texts ++ rest).splitOn 0 = texts.map Utf8.encode ++ rest.splitOn 0 :=
  splitOn_flatMap_append (fun s hs => Utf8.zero_not_mem_encode (h s hs)) rest

theorem splitOn_replicate_zero (n : Nat) (rest : Bytes) :
    (List.replicate n (0 : UInt8) ++ rest).splitOn 0 = List.replicate n [] ++ rest.splitOn 0 := by
  induction n with
  | zero => rfl
  | succ n ih =>
    rw [List.replicate_succ, List.cons_append, List.splitOn_cons_eq_if_modifyHead,
      if_pos (by simp), ih, List.replicate_succ, List.cons_append]

namespace ArgumentArea

variable {path : String} {arguments entries : List String} {padding gap : Nat} {rest : Bytes}

theorem readInt32_write : Bytes.readInt32 (write path arguments entries padding gap rest) =
    some (Int32.ofNat arguments.length, Utf8.encode path ++ 0 :: (List.replicate padding 0 ++
      (terminated arguments ++ (List.replicate gap 0 ++
        (terminated entries ++ 0 :: rest))))) := by
  simp only [write, List.append_assoc, List.cons_append, List.nil_append,
    Bytes.readInt32_writeInt32]

/-- **The fields of what was written**: the texts in order, and empty fields for the
padding and the end. -/
theorem fields_write (hpath : ZeroFree path) (harguments : ∀ a ∈ arguments, ZeroFree a)
    (hentries : ∀ e ∈ entries, ZeroFree e) :
    (Utf8.encode path ++ 0 :: (List.replicate padding 0 ++ (terminated arguments ++
        (List.replicate gap 0 ++ (terminated entries ++ 0 :: rest))))).splitOn 0 =
      Utf8.encode path :: ((List.replicate padding [] ++ arguments.map Utf8.encode) ++
        (List.replicate gap [] ++ (entries.map Utf8.encode ++ [] :: rest.splitOn 0))) := by
  rw [splitOn_append_zero hpath, splitOn_replicate_zero, splitOn_terminated harguments,
    splitOn_replicate_zero, splitOn_terminated hentries, List.splitOn_cons_eq_if_modifyHead,
    if_pos (by simp), List.append_assoc]

end ArgumentArea

/-! ### Filled fields among the padding -/

theorem filled_encode {s : String} (h : s ≠ "") : filled (Utf8.encode s) = true := by
  simpa [filled] using fun hnil => h (Utf8.encode_eq_nil.1 hnil)

theorem filter_filled_replicate_append (n : Nat) (fs : List Bytes) :
    (List.replicate n [] ++ fs).filter filled = fs.filter filled := by
  rw [List.filter_append, List.filter_replicate_of_neg (by simp [filled]), List.nil_append]

theorem filter_filled_map_encode (texts : List String) :
    (texts.map Utf8.encode).filter filled = (texts.filter (· ≠ "")).map Utf8.encode := by
  have hfilled : filled ∘ Utf8.encode = fun s => decide (s ≠ "") := by
    funext s
    by_cases h : s = "" <;> simp [filled, Utf8.encode_eq_nil, h]
  rw [List.filter_map, hfilled]

/-- The filled fields of padded texts are the texts that are not empty. -/
theorem filter_filled_padded (padding gap : Nat) (arguments entries : List String) :
    ((List.replicate padding [] ++ arguments.map Utf8.encode) ++
        (List.replicate gap [] ++ entries.map Utf8.encode)).filter filled =
      (arguments.filter (· ≠ "") ++ entries.filter (· ≠ "")).map Utf8.encode := by
  rw [List.filter_append, filter_filled_replicate_append, filter_filled_replicate_append,
    filter_filled_map_encode, filter_filled_map_encode, List.map_append]

/-- A run of entries ends at the empty field after it. -/
theorem leadingRun_encode_append {texts : List String} (hne : texts ≠ [])
    (h : ∀ s ∈ texts, s ≠ "") (fs : List Bytes) :
    leadingRun (texts.map Utf8.encode ++ [] :: fs) = texts.map Utf8.encode := by
  obtain ⟨s, texts, rfl⟩ := List.exists_cons_of_ne_nil hne
  have hs : ¬(Utf8.encode s).isEmpty = true := by
    simpa [filled] using filled_encode (h s (List.mem_cons_self ..))
  have hfilled : ∀ f ∈ (s :: texts).map Utf8.encode, filled f = true := by
    intro f hf
    obtain ⟨t, ht, rfl⟩ := List.mem_map.1 hf
    exact filled_encode (h t ht)
  rw [leadingRun, List.map_cons, List.cons_append, List.dropWhile_cons_of_neg hs,
    ← List.cons_append, ← List.map_cons, List.takeWhile_append_of_pos hfilled,
    List.takeWhile_cons_of_neg (by simp [filled]), List.append_nil]

theorem map_decodeLossy_encode (texts : List String) :
    (texts.map Utf8.encode).map Utf8.decodeLossy = texts := by
  have hid : Utf8.decodeLossy ∘ Utf8.encode = id := funext Utf8.decodeLossy_encode
  rw [List.map_map, hid, List.map_id]

/-! ### Reading it back -/

namespace ProcessArguments

variable {path : String} {arguments entries : List String}

theorem toNat_toInt_ofNat {n : Nat} (h : n ≤ 2 ^ 31 - 1) : (Int32.ofNat n).toInt.toNat = n := by
  rw [Int32.toInt_ofNat_of_lt (by omega), Int.toNat_natCast]

theorem zero_le_ofNat {n : Nat} (h : n ≤ 2 ^ 31 - 1) : (0 : Int32) ≤ Int32.ofNat n := by
  rw [Int32.le_iff_toInt_le, Int32.toInt_ofNat_of_lt (by omega)]
  exact Int.natCast_nonneg n

theorem filter_filled_encode_path (path : String) :
    ((some (Utf8.encode path)).filter filled).map Utf8.decodeLossy =
      if path = "" then none else some path := by
  split
  · rename_i h
    rw [h]
    rfl
  · rename_i h
    rw [Option.filter_some, if_pos (filled_encode h), Option.map_some, Utf8.decodeLossy_encode]

/-- The filled arguments and the empty ones make up the count. -/
theorem length_filter_add_count (arguments : List String) :
    (arguments.filter (· ≠ "")).length + arguments.count "" = arguments.length := by
  rw [← List.countP_eq_length_filter, List.count, Nat.add_comm,
    List.length_eq_countP_add_countP (· == "")]
  simp

theorem filter_ne_empty {texts : List String} (h : ∀ s ∈ texts, s ≠ "") :
    texts.filter (· ≠ "") = texts :=
  List.filter_eq_self.2 fun s hs => decide_eq_true (h s hs)

section Written

variable {padding gap : Nat} {rest : Bytes}

theorem decode_write_fields (hpath : ZeroFree path) (harguments : ∀ a ∈ arguments, ZeroFree a)
    (hcount : arguments.length ≤ 2 ^ 31 - 1) (hentries : ∀ e ∈ entries, ZeroFree e) :
    decode (ArgumentArea.write path arguments entries padding gap rest) =
      .ok (ofFields arguments.length <| Utf8.encode path ::
        ((List.replicate padding [] ++ arguments.map Utf8.encode) ++
          (List.replicate gap [] ++ (entries.map Utf8.encode ++ [] :: rest.splitOn 0)))) := by
  rw [decode_of_readInt32 ArgumentArea.readInt32_write (zero_le_ofNat hcount),
    toNat_toInt_ofNat hcount, ArgumentArea.fields_write hpath harguments hentries]

/-- If the count asks for more than there is, all entries are taken and none is left. -/
theorem decode_write_short (hpath : ZeroFree path) (harguments : ∀ a ∈ arguments, ZeroFree a)
    (hcount : arguments.length ≤ 2 ^ 31 - 1) (hentries : ∀ e ∈ entries, e ≠ "" ∧ ZeroFree e)
    (hfew : (arguments.filter (· ≠ "")).length + entries.length < arguments.length) :
    decode (ArgumentArea.write path arguments entries padding gap []) = .ok {
      execPath := if path = "" then none else some path
      arguments := arguments.filter (· ≠ "") ++ entries
      environment := .empty } := by
  have hall := filter_filled_padded padding gap arguments entries
  rw [filter_ne_empty fun e he => (hentries e he).1] at hall
  have hend : ((List.replicate padding [] ++ arguments.map Utf8.encode) ++
      (List.replicate gap [] ++ (entries.map Utf8.encode ++ [] :: [].splitOn 0))).filter filled =
      (arguments.filter (· ≠ "") ++ entries).map Utf8.encode := by
    rw [← List.append_assoc (List.replicate gap []), ← List.append_assoc, List.filter_append,
      hall]
    exact List.append_nil _
  have hshort : ((arguments.filter (· ≠ "") ++ entries).map Utf8.encode).length <
      arguments.length := by
    rwa [List.length_map, List.length_append]
  rw [decode_write_fields hpath harguments hcount fun e he => (hentries e he).2,
    ofFields_of_short (hend ▸ hshort), hend, filter_filled_encode_path, map_decodeLossy_encode]

/-- Otherwise the pass cuts behind the last of the entries that are taken. -/
theorem decode_write_cut {taken left : List String} (hpath : ZeroFree path)
    (harguments : ∀ a ∈ arguments, ZeroFree a) (hcount : arguments.length ≤ 2 ^ 31 - 1)
    (hentries : ∀ e ∈ taken ++ left, e ≠ "" ∧ ZeroFree e)
    (hcut : (arguments.filter (· ≠ "")).length + taken.length = arguments.length)
    (hrest : left = [] → rest = []) :
    decode (ArgumentArea.write path arguments (taken ++ left) padding gap rest) = .ok {
      execPath := if path = "" then none else some path
      arguments := arguments.filter (· ≠ "") ++ taken
      environment := .ofEntries left } := by
  have hbefore := filter_filled_padded padding gap arguments taken
  rw [filter_ne_empty fun e he => (hentries e (List.mem_append_left _ he)).1] at hbefore
  have hlength : ((arguments.filter (· ≠ "") ++ taken).map Utf8.encode).length =
      arguments.length := by
    rwa [List.length_map, List.length_append]
  have hrun : leadingRun (left.map Utf8.encode ++ [] :: rest.splitOn 0) =
      left.map Utf8.encode := by
    rcases eq_or_ne left [] with rfl | hne
    · rw [hrest rfl]
      rfl
    · exact leadingRun_encode_append hne
        (fun e he => (hentries e (List.mem_append_right _ he)).1) _
  rw [decode_write_fields hpath harguments hcount fun e he => (hentries e he).2,
    List.map_append, List.append_assoc (taken.map Utf8.encode),
    ← List.append_assoc (List.replicate gap []), ← List.append_assoc (_ ++ _),
    ofFields_of_cut _ (hbefore ▸ hlength), hbefore, hrun, filter_filled_encode_path,
    map_decodeLossy_encode, map_decodeLossy_encode]

/-- **What is read of any arguments.** An empty argument cannot be told from padding: it is
passed over, and one entry more is read in its place. -/
theorem decode_write_shifted (hpath : ZeroFree path) (harguments : ∀ a ∈ arguments, ZeroFree a)
    (hcount : arguments.length ≤ 2 ^ 31 - 1) (hentries : ∀ e ∈ entries, e ≠ "" ∧ ZeroFree e)
    (hrest : entries.length ≤ arguments.count "" → rest = []) :
    decode (ArgumentArea.write path arguments entries padding gap rest) = .ok {
      execPath := if path = "" then none else some path
      arguments := arguments.filter (· ≠ "") ++ entries.take (arguments.count "")
      environment := .ofEntries (entries.drop (arguments.count "")) } := by
  have hlength := length_filter_add_count arguments
  rcases Nat.lt_or_ge entries.length (arguments.count "") with hfew | hmany
  · have hle : entries.length ≤ arguments.count "" := Nat.le_of_lt hfew
    rw [hrest hle, decode_write_short hpath harguments hcount hentries (by omega),
      List.take_of_length_le hle, List.drop_of_length_le hle]
    rfl
  · have hcut : (arguments.filter (· ≠ "")).length + (entries.take (arguments.count "")).length =
        arguments.length := by
      rw [List.length_take_of_le hmany, hlength]
    have hsplit := List.take_append_drop (arguments.count "") entries
    have hwritten : decode (ArgumentArea.write path arguments (_ ++ _) padding gap rest) = _ :=
      decode_write_cut hpath harguments hcount (hsplit.symm ▸ hentries) hcut
        fun hleft => hrest (List.drop_eq_nil_iff.1 hleft)
    rwa [hsplit] at hwritten

end Written

theorem decode_write_eq {padding gap : Nat} {rest : Bytes} (hpath : ZeroFree path)
    (harguments : ∀ a ∈ arguments, a ≠ "" ∧ ZeroFree a) (hcount : arguments.length ≤ 2 ^ 31 - 1)
    (hentries : ∀ e ∈ entries, e ≠ "" ∧ ZeroFree e) (hrest : entries = [] → rest = []) :
    decode (ArgumentArea.write path arguments entries padding gap rest) = .ok {
      execPath := if path = "" then none else some path
      arguments := arguments
      environment := .ofEntries entries } := by
  have hshift : arguments.count "" = 0 :=
    List.count_eq_zero.2 fun h => (harguments "" h).1 rfl
  have hfilter := filter_ne_empty fun a ha => (harguments a ha).1
  rw [decode_write_shifted hpath (fun a ha => (harguments a ha).2) hcount hentries, hshift,
    hfilter, List.take_zero, List.append_nil, List.drop_zero]
  rw [hshift, Nat.le_zero, List.length_eq_zero_iff]
  exact hrest

/-- **Reading undoes writing**: whatever the padding and whatever follows the end, the
executable and the arguments come back as they were written, and so does one environment, in
which the last entry for a key holds. -/
theorem decode_write (hpath : ZeroFree path) (harguments : ∀ a ∈ arguments, a ≠ "" ∧ ZeroFree a)
    (hcount : arguments.length ≤ 2 ^ 31 - 1) (hentries : ∀ e ∈ entries, e ≠ "" ∧ ZeroFree e) :
    ∃ environment : Environment,
      (∀ padding gap rest, (entries = [] → rest = []) →
        decode (ArgumentArea.write path arguments entries padding gap rest) = .ok {
          execPath := if path = "" then none else some path
          arguments := arguments
          environment := environment }) ∧
      ∀ key value, environment.get? key = some value ↔ LastGives entries key value :=
  ⟨.ofEntries entries,
    fun _ _ _ hrest => decode_write_eq hpath harguments hcount hentries hrest,
    fun _ _ => Environment.get?_ofEntries_eq_some⟩

/-- Entries with a repeated key, with no key, and with an equals sign in the value. -/
theorem decode_write_repeated_key :
    let path := "/bin/é"
    let arguments := ["ls", "-l"]
    let entries := ["K=1", "noequals", "=oops", "K=a=b"]
    ZeroFree path ∧ (∀ a ∈ arguments, a ≠ "" ∧ ZeroFree a) ∧ arguments.length ≤ 2 ^ 31 - 1 ∧
      (∀ e ∈ entries, e ≠ "" ∧ ZeroFree e) ∧
      ∃ environment : Environment,
        decode (ArgumentArea.write path arguments entries 3 0 [7, 0, 7]) = .ok {
          execPath := some path
          arguments := arguments
          environment := environment } ∧
        environment.get? "K" = some "a=b" := by
  intro path arguments entries
  have hpath : ZeroFree path := by decide
  have harguments : ∀ a ∈ arguments, a ≠ "" ∧ ZeroFree a := by decide
  have hcount : arguments.length ≤ 2 ^ 31 - 1 := by decide
  have hentries : ∀ e ∈ entries, e ≠ "" ∧ ZeroFree e := by decide
  obtain ⟨environment, hdecode, hvalue⟩ := decode_write hpath harguments hcount hentries
  have hlast : LastGives entries "K" "a=b" :=
    ⟨["K=1", "noequals", "=oops"], "K=a=b", [], rfl, by unfold EntryGives; decide, by simp⟩
  exact ⟨hpath, harguments, hcount, hentries, environment,
    hdecode 3 0 [7, 0, 7] (by decide), (hvalue "K" "a=b").2 hlast⟩

end ProcessArguments

end HostAccess
