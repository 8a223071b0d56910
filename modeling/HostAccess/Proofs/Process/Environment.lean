import HostAccess.Process.Environment
import Mathlib.Data.List.Induction
import Mathlib.Data.List.TakeWhile

/-!
# What an environment holds

An environment is built by inserting one entry after the other, and this file says what
comes out without the building: a key has the value that the *last* entry for it gives.

What an entry gives is said without the splitting as well. `HostAccess.EntryGives` reads an
entry from its parts – a key that is not empty and has no equals sign, the sign, a value
that may be anything – so the first equals sign of an entry is where its key ends, and an
entry without one, or with one in front, gives nothing.

* `HostAccess.splitEntry?_eq_some`: splitting finds exactly what an entry gives;
* `HostAccess.Environment.get?_ofEntries_eq_some`: the last entry for a key holds.
-/

namespace HostAccess

/-! ### Leading runs -/

/-- What comes after a leading run, counted or tested. -/
theorem drop_length_takeWhile {α : Type*} (p : α → Bool) (l : List α) :
    l.drop (l.takeWhile p).length = l.dropWhile p := by
  have h : (l.takeWhile p ++ l.dropWhile p).drop (l.takeWhile p).length = l.dropWhile p :=
    List.drop_left
  rwa [List.takeWhile_append_dropWhile] at h

/-! ### Entries -/

/-- **An entry gives a value to a key**: the key is not empty and ends at the first equals
sign, and the value is all that comes after. -/
def EntryGives (entry key value : String) : Prop :=
  key ≠ "" ∧ '=' ∉ key.toList ∧ entry = key ++ "=" ++ value

/-- An entry gives a key one value. -/
theorem EntryGives.unique {entry key v w : String} (hv : EntryGives entry key v)
    (hw : EntryGives entry key w) : v = w := by
  have h : key ++ "=" ++ v = key ++ "=" ++ w := hv.2.2.symm.trans hw.2.2
  have hl := congrArg String.toList h
  simp only [String.toList_append] at hl
  exact String.toList_inj.1 (List.append_cancel_left hl)

theorem splitEntryChars?_append {key : List Char} (hne : key ≠ []) (heq : '=' ∉ key)
    (value : List Char) :
    splitEntryChars? (key ++ '=' :: value) = some (key, value) := by
  have hpos : ∀ c ∈ key, (c != '=') = true := fun c hc => by
    rw [bne_iff_ne]
    rintro rfl
    exact heq hc
  have htake : (key ++ '=' :: value).takeWhile (· != '=') = key := by
    rw [List.takeWhile_append_of_pos hpos, List.takeWhile_cons_of_neg (by simp), List.append_nil]
  -- the match wants a key with a first character
  obtain ⟨c, cs, rfl⟩ := List.exists_cons_of_ne_nil hne
  simp only [splitEntryChars?, htake, List.drop_left]

theorem eq_append_of_splitEntryChars? {entry key value : List Char}
    (h : splitEntryChars? entry = some (key, value)) :
    key ≠ [] ∧ '=' ∉ key ∧ entry = key ++ '=' :: value := by
  have hno : '=' ∉ entry.takeWhile (· != '=') := fun hmem => by
    simpa using List.mem_takeWhile_imp hmem
  have hall : entry.takeWhile (· != '=') ++ entry.dropWhile (· != '=') = entry :=
    List.takeWhile_append_dropWhile
  have hsep := List.head?_dropWhile_not (· != '=') entry
  simp only [splitEntryChars?, drop_length_takeWhile] at h
  split at h
  · rename_i c cs sep rest hkey hrest
    obtain ⟨rfl, rfl⟩ := Prod.mk.inj (Option.some.inj h)
    rw [hrest] at hsep hall
    obtain rfl : sep = '=' := by simpa using hsep
    exact ⟨by simp [hkey], hno, hall.symm⟩
  · cases h

/-- **Splitting says what an entry gives.** -/
theorem splitEntry?_eq_some {entry key value : String} :
    splitEntry? entry = some (key, value) ↔ EntryGives entry key value := by
  constructor
  · intro h
    obtain ⟨⟨k, v⟩, hs, he⟩ := Option.map_eq_some_iff.1 h
    obtain ⟨rfl, rfl⟩ := Prod.mk.inj he
    obtain ⟨hne, hno, hentry⟩ := eq_append_of_splitEntryChars? hs
    refine ⟨?_, by simpa using hno, ?_⟩
    · simpa using hne
    · rw [← String.toList_inj]
      simpa using hentry
  · rintro ⟨hne, hno, rfl⟩
    have hs := splitEntryChars?_append (by simpa using hne) hno value.toList
    unfold splitEntry?
    simp [hs]

/-! ### The last entry for a key -/

/-- **The last entry for a key gives it a value**: those that come after give it none. -/
def LastGives (entries : List String) (key value : String) : Prop :=
  ∃ before entry after, entries = before ++ entry :: after ∧ EntryGives entry key value ∧
    ∀ e ∈ after, ∀ v, ¬EntryGives e key v

theorem not_lastGives_nil {key value : String} : ¬LastGives [] key value := by
  rintro ⟨before, entry, after, h, -⟩
  simp at h

/-- An entry at the end decides, if it is for the key at all. -/
theorem lastGives_concat {entries : List String} {last key value : String} :
    LastGives (entries ++ [last]) key value ↔
      EntryGives last key value ∨
        (∀ v, ¬EntryGives last key v) ∧ LastGives entries key value := by
  constructor
  · rintro ⟨before, entry, after, heq, hgives, hnone⟩
    rcases List.eq_nil_or_concat after with rfl | ⟨after, e, rfl⟩
    · obtain ⟨-, hl⟩ := List.append_inj' heq rfl
      cases hl
      exact Or.inl hgives
    · have hl : entries ++ [last] = (before ++ entry :: after) ++ [e] := by simpa using heq
      obtain ⟨rfl, he⟩ := List.append_inj' hl rfl
      cases he
      exact Or.inr ⟨hnone last (by simp),
        before, entry, after, rfl, hgives, fun x hx => hnone x (by simp [hx])⟩
  · rintro (h | ⟨hnot, before, entry, after, rfl, hgives, hnone⟩)
    · exact ⟨entries, last, [], rfl, h, by simp⟩
    · refine ⟨before, entry, after ++ [last], by simp, hgives, fun e he => ?_⟩
      rcases List.mem_append.1 he with he | he
      · exact hnone e he
      · rw [List.mem_singleton.1 he]
        exact hnot

namespace Environment

theorem get?_insertEntry_of_gives {entry key value : String} (h : EntryGives entry key value)
    (e : Environment) : (e.insertEntry entry).get? key = some value := by
  simp only [insertEntry, splitEntry?_eq_some.2 h, get?_insert, if_true]

theorem get?_insertEntry_of_not_gives {entry key : String} (h : ∀ v, ¬EntryGives entry key v)
    (e : Environment) : (e.insertEntry entry).get? key = e.get? key := by
  unfold insertEntry
  split
  · rename_i k v hs
    have hne : key ≠ k := by
      rintro rfl
      have hgives := splitEntry?_eq_some.1 hs
      exact h v hgives
    rw [get?_insert, if_neg hne]
  · rfl

theorem ofEntries_concat (entries : List String) (last : String) :
    ofEntries (entries ++ [last]) = (ofEntries entries).insertEntry last := by
  rw [ofEntries, List.foldl_append]
  rfl

/-- **The last entry for a key holds**, and a key for which there is none has no value. -/
theorem get?_ofEntries_eq_some {entries : List String} {key value : String} :
    (ofEntries entries).get? key = some value ↔ LastGives entries key value := by
  -- from the end, as only the last entry can undo what an earlier one said
  induction entries using List.reverseRecOn with
  | nil => exact ⟨fun h => by simp [ofEntries] at h, fun h => absurd h not_lastGives_nil⟩
  | append_singleton entries last ih =>
    rw [ofEntries_concat, lastGives_concat]
    by_cases hlast : ∃ v, EntryGives last key v
    · obtain ⟨v, hv⟩ := hlast
      rw [get?_insertEntry_of_gives hv, Option.some_inj]
      constructor
      · rintro rfl
        exact Or.inl hv
      · rintro (h | ⟨hnot, -⟩)
        · exact hv.unique h
        · exact absurd hv (hnot v)
    · have hnot : ∀ v, ¬EntryGives last key v := fun v hv => hlast ⟨v, hv⟩
      rw [get?_insertEntry_of_not_gives hnot, ih]
      constructor
      · exact fun h => Or.inr ⟨hnot, h⟩
      · rintro (hv | ⟨-, h⟩)
        · exact absurd hv (hnot value)
        · exact h

end Environment

end HostAccess
