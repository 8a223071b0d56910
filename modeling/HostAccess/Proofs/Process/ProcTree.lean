import HostAccess.Process.ProcTree
import HostAccess.Proofs.Text.Decimal
import HostAccess.Proofs.Text.Utf8.WellFormed

/-!
# Which entries of a process directory are listed

A listing goes through the directory entry by entry, and what it makes of an entry depends
on that entry alone (`HostAccess.ProcTree.descriptor?`). So a listing is that of the entries
in front of one, the descriptor of this one if it has one, and that of the entries after it.

An entry named for a process has a descriptor if its file `stat` has a text, and here the
name of the process comes in: the process chooses it, any bytes will do, and it stands in
the middle of the file. That it may hold parentheses does no harm, since the fields are read
after the last one (`HostAccess.statParent?_append_name`). But one broken piece in it leaves
the file without a text, and then the process is passed over.

* `HostAccess.ProcTree.value_enumerate`: a listing, entry by entry;
* `HostAccess.ProcTree.enumerate_named_entry`: a process is listed exactly if its name is
  the bytes of a text, and the rest of its descriptor never depends on the name;
* `HostAccess.ProcTree.enumerate_broken_name`: a process that no listing shows.
-/

namespace HostAccess

/-! ### The file of a process -/

/-- **The file `stat` of a process**: its name between parentheses, with texts around. -/
def ProcEntry.statFile (front : String) (name : Bytes) (back : String) : Bytes :=
  Utf8.encode front ++ 0x28 :: (name ++ 0x29 :: Utf8.encode back)

/-- What is in front of the last closing parenthesis does not matter. -/
theorem afterName?_append_cons (front back : List Char) :
    afterName? (front ++ ')' :: back) = some ((afterName? back).getD back) := by
  induction front with
  | nil =>
    rw [List.nil_append, afterName?]
    cases afterName? back <;> rfl
  | cons c front ih => rw [List.cons_append, afterName?, ih]

/-- **The parent does not depend on the name**, nor on anything in front of it. -/
theorem statParent?_append_name (front name back : String) :
    statParent? (front ++ "(" ++ name ++ ")" ++ back) = statParent? (")" ++ back) := by
  have hfront : (front ++ "(" ++ name ++ ")" ++ back).toList =
      (front ++ "(" ++ name).toList ++ ')' :: back.toList := by simp
  have hback : (")" ++ back).toList = [] ++ ')' :: back.toList := by simp
  rw [statParent?, statParent?, hfront, hback, afterName?_append_cons, afterName?_append_cons]

namespace ProcEntry

variable {entry : ProcEntry} {front back : String} {name : Bytes}

theorem statFile_encode (front name back : String) :
    statFile front (Utf8.encode name) back =
      Utf8.encode (front ++ "(" ++ name ++ ")" ++ back) := by
  simp [statFile, Utf8.encode, String.utf8EncodeChar]

/-- The file has a text if the name is the bytes of one. -/
theorem statText_of_encode {text : String}
    (h : entry.stat = .ok (statFile front (Utf8.encode text) back)) :
    entry.statText = .ok (front ++ "(" ++ text ++ ")" ++ back) := by
  rw [statFile_encode] at h
  simp only [statText, h, Utf8.decode?_eq_some.2 rfl]

/-- The file has no text if the name is not the bytes of one. -/
theorem statText_of_broken (hname : ¬∃ text, name = Utf8.encode text)
    (h : entry.stat = .ok (statFile front name back)) : entry.statText = .error .notUtf8 := by
  cases hread : Utf8.decode? (statFile front name back) with
  | none => simp only [statText, h, hread]
  | some text =>
    -- The two parentheses cut the text in three, and the name is the middle part.
    obtain ⟨-, middle, hmiddle⟩ := Utf8.exists_encode_of_append_cons (by decide)
      (Utf8.decode?_eq_some.1 hread)
    obtain ⟨hencoded, -⟩ := Utf8.exists_encode_of_append_cons (by decide) hmiddle
    exact absurd hencoded hname

end ProcEntry

/-! ### Listings -/

namespace ProcTree

/-- **The descriptor of an entry**, if it is named for a process and its `stat` file has a
text. -/
def descriptor? (log : Logger) (named : Bytes × ProcEntry) : Option ProcessDescriptor :=
  (pidOfName? named.1).bind fun pid =>
    named.2.statText.toOption.map fun stat => { pid, ppid := statParent? stat, log }

theorem value_descriptors (log : Logger) (entries : List (Bytes × ProcEntry)) (tree : ProcTree) :
    ((descriptors log entries).run tree).value = entries.filterMap (descriptor? log) := by
  induction entries with
  | nil => rfl
  | cons named entries ih =>
    obtain ⟨name, entry⟩ := named
    cases hpid : pidOfName? name with
    | none =>
      have hnone : descriptor? log (name, entry) = none := by simp [descriptor?, hpid]
      simp only [descriptors, hpid, List.filterMap_cons_none hnone]
      exact ih
    | some pid =>
      cases hstat : entry.statText with
      | error e =>
        have hnone : descriptor? log (name, entry) = none := by
          simp [descriptor?, hpid, hstat, Except.toOption]
        simp only [descriptors, hpid, hstat, List.filterMap_cons_none hnone]
        exact ih
      | ok stat =>
        have hsome : descriptor? log (name, entry) =
            some { pid, ppid := statParent? stat, log } := by
          simp [descriptor?, hpid, hstat, Except.toOption]
        simp only [descriptors, hpid, hstat, List.filterMap_cons_some hsome, ← ih]
        rfl

/-- **A listing, entry by entry.** -/
theorem value_enumerate (root : String) (log : Logger) (entries : List (Bytes × ProcEntry)) :
    ((enumerate root log).run ⟨.ok entries⟩).value = entries.filterMap (descriptor? log) :=
  value_descriptors log entries _

/-- The canonical name of a process is read as its number. -/
theorem pidOfName?_nameOfPid (pid : Pid) : pidOfName? (nameOfPid pid) = some pid := by
  rw [pidOfName?, nameOfPid, Utf8.decode?_eq_some.2 rfl, Option.bind_some,
    Decimal.int32?_toString]

/-- **A process is listed exactly if its name is the bytes of a text.** Its entry then has one
descriptor, with its number and a parent that does not depend on the name; otherwise the
listing is as if the entry were not there. -/
theorem enumerate_named_entry (root : String) (log : Logger)
    (before after : List (Bytes × ProcEntry)) (pid : Pid) (entry : ProcEntry) (front : String)
    (name : Bytes) (back : String) :
    let listing entries := ((enumerate root log).run ⟨.ok entries⟩).value
    let named := (nameOfPid pid, { entry with stat := .ok (ProcEntry.statFile front name back) })
    ((∃ text, name = Utf8.encode text) → listing (before ++ named :: after) =
      listing before ++ { pid, ppid := statParent? (")" ++ back), log } :: listing after) ∧
    ((¬∃ text, name = Utf8.encode text) → listing (before ++ named :: after) =
      listing before ++ listing after) := by
  intro listing named
  have hsplit : listing (before ++ named :: after) =
      listing before ++ ((descriptor? log named).toList ++ listing after) := by
    simp only [listing, value_enumerate, List.filterMap_append, List.filterMap_cons]
    cases descriptor? log named <;> rfl
  have hnamed : descriptor? log named = named.2.statText.toOption.map fun stat =>
      { pid, ppid := statParent? stat, log } := by
    rw [descriptor?, pidOfName?_nameOfPid, Option.bind_some]
  constructor
  · rintro ⟨text, rfl⟩
    have htext : named.2.statText = .ok (front ++ "(" ++ text ++ ")" ++ back) :=
      ProcEntry.statText_of_encode rfl
    rw [hsplit, hnamed, htext, Except.toOption, Option.map_some, statParent?_append_name]
    rfl
  · intro hbroken
    have htext : named.2.statText = .error .notUtf8 := ProcEntry.statText_of_broken hbroken rfl
    rw [hsplit, hnamed, htext]
    rfl

/-- The listing of a directory with one process, whose name is a single byte that starts no
sequence, is empty. -/
theorem enumerate_broken_name :
    ((enumerate "proc" {}).run ⟨.ok [(nameOfPid 7,
      { stat := .ok (ProcEntry.statFile "7 " [0xFF] " S 1 7 7") })]⟩).value = [] := by
  rfl

end ProcTree

end HostAccess
