import HostAccess.Process.Environment
import HostAccess.Process.ProcTree
import HostAccess.Proofs.Process.ArgumentRoundTrip
import HostAccess.Proofs.Text.Utf16

/-!
# One environment in three written forms

Systems keep the entries of an environment in different ways, and each way tells by other
means where they end:

* an argument area goes on with them behind the arguments, and they end at an empty field;
* a file of a process directory holds nothing else, and they end with the file;
* a block holds them in 16-bit units, and they end at an empty entry.

Entries that were written in any of these forms are read back one by one and in order, so
the three readers build one map, whatever the entries say
(`HostAccess.ProcessArguments.written_forms_agree`). What they have to have in common is
only that no entry is empty or holds a zero character: the one would end a block and an
area too early, the other would cut an entry in two.

* `HostAccess.zeroFields_terminated`: the file of a list of texts has just these texts;
* `HostAccess.Environment.ofBlock_writeBlock`: a block of entries has just these entries.
-/

namespace HostAccess

/-! ### Files -/

/-- Texts are cut apart at the zero bytes between them. -/
theorem splitOn_terminated_encode {front : List String} {last : String}
    (h : ∀ s ∈ front ++ [last], ZeroFree s) :
    (terminated front ++ Utf8.encode last).splitOn 0 = (front ++ [last]).map Utf8.encode := by
  obtain ⟨hfront, hlast⟩ := List.forall_mem_append.1 h
  rw [splitOn_terminated hfront,
    List.splitOn_eq_singleton (Utf8.zero_not_mem_encode (hlast last (by simp))),
    List.map_append, List.map_singleton]

/-- Bytes are missing altogether only if there is one text and it is empty. -/
theorem terminated_append_encode_eq_nil {front : List String} {last : String} :
    terminated front ++ Utf8.encode last = [] ↔ front = [] ∧ last = "" := by
  rw [List.append_eq_nil_iff, Utf8.encode_eq_nil]
  refine and_congr_left fun _ => ⟨fun h => ?_, fun h => by rw [h]; rfl⟩
  cases front with
  | nil => rfl
  | cons f fs => simp [terminated] at h

/-- **The file of a list of texts has just these texts.** A single empty text is the one
exception: its file is that of no texts, but for a zero byte that may be missing. -/
theorem zeroFields_terminated {texts : List String} (h : ∀ s ∈ texts, ZeroFree s)
    (hne : texts ≠ [""]) : zeroFields (terminated texts) = texts := by
  rcases List.eq_nil_or_concat texts with rfl | ⟨front, last, rfl⟩
  · rfl
  · rw [List.concat_eq_append] at h hne ⊢
    have hbytes : terminated (front ++ [last]) =
        (terminated front ++ Utf8.encode last) ++ [0] := by simp [terminated]
    have hbody : ¬(terminated front ++ Utf8.encode last).isEmpty = true := by
      intro hempty
      obtain ⟨rfl, rfl⟩ := terminated_append_encode_eq_nil.1 (List.isEmpty_iff.1 hempty)
      exact hne rfl
    unfold zeroFields
    rw [hbytes, List.getLast?_concat, if_pos rfl, List.dropLast_concat]
    simp only [if_neg hbody, splitOn_terminated_encode h, map_decodeLossy_encode]

/-! ### Blocks -/

/-- **A block as a system writes it**: a zero unit after each entry, an empty entry, and any
units after it. -/
def Environment.writeBlock (entries : List String) (rest : List UInt16) : List UInt16 :=
  entries.flatMap (fun entry => Utf16.encode entry ++ [0]) ++ 0 :: rest

/-- **A block of entries has just these entries.** -/
theorem Environment.ofBlock_writeBlock {entries : List String}
    (h : ∀ e ∈ entries, e ≠ "" ∧ ZeroFree e) (rest : List UInt16) :
    ofBlock (writeBlock entries rest) = .ofEntries entries := by
  have hcut : (writeBlock entries rest).splitOn 0 =
      entries.map Utf16.encode ++ [] :: rest.splitOn 0 := by
    rw [writeBlock, splitOn_flatMap_append fun e he => Utf16.zero_not_mem_encode (h e he).2,
      List.splitOn_cons_eq_if_modifyHead, if_pos (by simp)]
  have hfilled : ∀ f ∈ entries.map Utf16.encode, (!f.isEmpty) = true := by
    intro f hf
    obtain ⟨e, he, rfl⟩ := List.mem_map.1 hf
    simpa using fun hnil => (h e he).1 (Utf16.encode_eq_nil.1 hnil)
  have hread : Utf16.decodeLossy ∘ Utf16.encode = id := funext Utf16.decodeLossy_encode
  rw [ofBlock, hcut, List.takeWhile_append_of_pos hfilled, List.takeWhile_cons_of_neg (by simp),
    List.append_nil, List.map_map, hread, List.map_id]

/-! ### All three -/

namespace ProcessArguments

variable {path : String} {arguments entries : List String}

theorem ofFiles_terminated (execPath : Option String)
    (harguments : ∀ a ∈ arguments, a ≠ "" ∧ ZeroFree a)
    (hentries : ∀ e ∈ entries, e ≠ "" ∧ ZeroFree e) :
    ofFiles execPath (terminated arguments) (terminated entries) =
      { execPath, arguments, environment := .ofEntries entries } := by
  have hne : ∀ {texts : List String}, (∀ s ∈ texts, s ≠ "" ∧ ZeroFree s) → texts ≠ [""] := by
    rintro texts h rfl
    exact (h "" (by simp)).1 rfl
  rw [ofFiles, zeroFields_terminated (fun a ha => (harguments a ha).2) (hne harguments),
    zeroFields_terminated (fun e he => (hentries e he).2) (hne hentries)]

/-- **The written forms agree.** The arguments and the environment that an argument area
tells are those that the files of a process directory tell, and a block tells the same
environment: the entries inserted in order, so that a key has the value of the last entry
for it and an entry without a key says nothing. -/
theorem written_forms_agree (hpath : ZeroFree path)
    (harguments : ∀ a ∈ arguments, a ≠ "" ∧ ZeroFree a) (hcount : arguments.length ≤ 2 ^ 31 - 1)
    (hentries : ∀ e ∈ entries, e ≠ "" ∧ ZeroFree e) :
    ∃ environment : Environment,
      (∀ padding gap rest, (entries = [] → rest = []) →
        decode (ArgumentArea.write path arguments entries padding gap rest) =
          .ok { execPath := if path = "" then none else some path, arguments, environment }) ∧
      (∀ execPath, ofFiles execPath (terminated arguments) (terminated entries) =
        { execPath, arguments, environment }) ∧
      (∀ units, Environment.ofBlock (Environment.writeBlock entries units) = environment) ∧
      environment = .ofEntries entries ∧
      ∀ key value, environment.get? key = some value ↔ LastGives entries key value := by
  refine ⟨.ofEntries entries, fun padding gap rest hrest => ?_, fun execPath => ?_,
    fun units => ?_, rfl, fun key value => ?_⟩
  · exact decode_write_eq hpath harguments hcount hentries hrest
  · exact ofFiles_terminated execPath harguments hentries
  · exact Environment.ofBlock_writeBlock hentries units
  · exact Environment.get?_ofEntries_eq_some

/-- Entries with a repeated key, with no key, with an equals sign in the value, and with a
character outside the first plane; whatever follows a block is not read. -/
theorem written_forms_agree_repeated_key :
    let path := "/bin/é"
    let arguments := ["ls", "-l"]
    let entries := ["K=1", "noequals", "=oops", "K=a=😀"]
    ZeroFree path ∧ (∀ a ∈ arguments, a ≠ "" ∧ ZeroFree a) ∧ arguments.length ≤ 2 ^ 31 - 1 ∧
      (∀ e ∈ entries, e ≠ "" ∧ ZeroFree e) ∧
      ∃ environment : Environment,
        decode (ArgumentArea.write path arguments entries 3 0 [7, 0, 7]) =
          .ok { execPath := some path, arguments, environment } ∧
        ofFiles none (terminated arguments) (terminated entries) =
          { execPath := none, arguments, environment } ∧
        Environment.ofBlock (Environment.writeBlock entries [75, 61, 50, 0]) = environment ∧
        environment.get? "K" = some "a=😀" := by
  intro path arguments entries
  have hpath : ZeroFree path := by decide
  have harguments : ∀ a ∈ arguments, a ≠ "" ∧ ZeroFree a := by decide
  have hcount : arguments.length ≤ 2 ^ 31 - 1 := by decide
  have hentries : ∀ e ∈ entries, e ≠ "" ∧ ZeroFree e := by decide
  obtain ⟨environment, harea, hfiles, hblock, -, hvalue⟩ :=
    written_forms_agree hpath harguments hcount hentries
  have hlast : LastGives entries "K" "a=😀" :=
    ⟨["K=1", "noequals", "=oops"], "K=a=😀", [], rfl, by unfold EntryGives; decide, by simp⟩
  exact ⟨hpath, harguments, hcount, hentries, environment, harea 3 0 [7, 0, 7] (by decide),
    hfiles none, hblock _, (hvalue "K" "a=😀").2 hlast⟩

end ProcessArguments

end HostAccess
