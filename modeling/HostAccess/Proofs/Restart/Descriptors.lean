import HostAccess.Restart
import Mathlib.Data.Finset.Card
import Mathlib.Data.List.Range
import Mathlib.Data.List.Nodup

/-!
# Marking the descriptors of a range

A restart asks for the descriptors of a range one after the other, passes over those that are not
open and has the others closed on the way. While it does so it changes the table that it asks, but
not what it asks for: marking opens and closes nothing. So the loop over any numbers is known
beforehand (`HostAccess.DescriptorTable.markNumbers_eq`): it counts the numbers that are open at
the start and marks the descriptors that have one of them.

The numbers of a range are machine integers and their sum may wrap around before it is taken back.
As integers they are the numbers from the first on, each once
(`HostAccess.DescriptorTable.map_toInt_numbers`), wherever the range lies.

* `HostAccess.DescriptorTable.mem_numbers`, `HostAccess.DescriptorTable.nodup_numbers`,
  `HostAccess.DescriptorTable.numbers_append`: the numbers of a range;
* `HostAccess.DescriptorTable.markNumbers_eq`: the loop;
* `HostAccess.DescriptorTable.markCloseOnExec_marks`: the main result.
-/

namespace HostAccess

namespace DescriptorTable

variable {first mid limit : Int32}

/-! ### The numbers of a range -/

/-- A number lies in a range: from its first number on and below its limit. -/
def InRange (first limit number : Int32) : Prop :=
  first ≤ number ∧ number < limit

instance (first limit number : Int32) : Decidable (InRange first limit number) :=
  inferInstanceAs (Decidable (_ ∧ _))

theorem inRange_iff_toInt {number : Int32} :
    InRange first limit number ↔
      first.toInt ≤ number.toInt ∧ number.toInt < limit.toInt := by
  rw [InRange, Int32.le_iff_toInt_le, Int32.lt_iff_toInt_lt]

/-- **The numbers of a range as integers.** -/
theorem map_toInt_numbers (first limit : Int32) :
    (numbers first limit).map Int32.toInt =
      (List.range (limit.toInt - first.toInt).toNat).map fun i : Nat => first.toInt + i := by
  rw [numbers, List.map_map]
  refine List.map_congr_left fun i hi => ?_
  have hi : (i : Int) < limit.toInt - first.toInt := by
    have := List.mem_range.1 hi
    omega
  have hlimit := limit.toInt_lt
  have hfirst := first.le_toInt
  rw [Function.comp_apply, Int32.toInt_add, Int32.toInt_ofNat', Int32.size, Int.add_bmod_bmod]
  exact Int.bmod_eq_of_le (by omega) (by omega)

/-- The range has each of its numbers, -/
theorem mem_numbers {number : Int32} :
    number ∈ numbers first limit ↔ InRange first limit number := by
  have hinj : Function.Injective Int32.toInt := fun _ _ => Int32.toInt_inj.1
  rw [← List.mem_map_of_injective hinj, map_toInt_numbers, List.mem_map, inRange_iff_toInt]
  constructor
  · rintro ⟨i, hi, hnumber⟩
    have := List.mem_range.1 hi
    omega
  · rintro ⟨hfirst, hlimit⟩
    refine ⟨(number.toInt - first.toInt).toNat, List.mem_range.2 ?_, ?_⟩ <;> omega

/-- once, -/
theorem nodup_numbers (first limit : Int32) : (numbers first limit).Nodup := by
  refine List.Nodup.of_map Int32.toInt ?_
  rw [map_toInt_numbers]
  refine List.nodup_range.map fun i j h => ?_
  have : first.toInt + (i : Int) = first.toInt + j := h
  omega

/-- and those below a number come before those from it on. -/
theorem numbers_append (hfirst : first ≤ mid) (hlimit : mid ≤ limit) :
    numbers first mid ++ numbers mid limit = numbers first limit := by
  rw [Int32.le_iff_toInt_le] at hfirst hlimit
  have hsize : (limit.toInt - first.toInt).toNat =
      (mid.toInt - first.toInt).toNat + (limit.toInt - mid.toInt).toNat := by
    omega
  rw [← List.map_inj_right fun _ _ => Int32.toInt_inj.1, List.map_append, map_toInt_numbers,
    map_toInt_numbers, map_toInt_numbers, hsize, List.range_add, List.map_append, List.map_map]
  congr 1
  refine List.map_congr_left fun i _ => ?_
  rw [Function.comp_apply]
  omega

/-! ### The loop -/

/-- A descriptor with a mark if it has one of some numbers. -/
def mark (numbers : List Int32) (d : Descriptor) : Descriptor :=
  if d.number ∈ numbers then { d with closeOnExec := true } else d

/-- The table with these marks. -/
def marked (numbers : List Int32) (table : DescriptorTable) : DescriptorTable :=
  table.map (mark numbers)

section Marked

variable {numbers more : List Int32} {table : DescriptorTable} {d : Descriptor}

theorem mark_of_mem (h : d.number ∈ numbers) : mark numbers d = { d with closeOnExec := true } :=
  if_pos h

theorem mark_of_not_mem (h : d.number ∉ numbers) : mark numbers d = d :=
  if_neg h

@[simp]
theorem number_mark : (mark numbers d).number = d.number := by
  by_cases h : d.number ∈ numbers
  · rw [mark_of_mem h]
  · rw [mark_of_not_mem h]

/-- Marks upon marks are the marks on all. -/
theorem marked_marked : marked more (marked numbers table) = marked (numbers ++ more) table := by
  rw [marked, marked, marked, List.map_map]
  refine List.map_congr_left fun d _ => ?_
  by_cases h : d.number ∈ numbers <;> by_cases h' : d.number ∈ more <;> simp [mark, h, h']

/-- The order of the numbers is of no account, nor how often they are there. -/
theorem marked_congr (h : ∀ n, n ∈ numbers ↔ n ∈ more) :
    marked numbers table = marked more table := by
  refine List.map_congr_left fun d _ => ?_
  simp only [mark, h]

theorem marked_of_forall (h : ∀ d ∈ table, d.number ∉ numbers) : marked numbers table = table :=
  calc marked numbers table = table.map id :=
        List.map_congr_left fun d hd => mark_of_not_mem (h d hd)
    _ = table := List.map_id table

theorem setCloseOnExec_eq_marked (number : Int32) :
    table.setCloseOnExec number = marked [number] table := by
  refine List.map_congr_left fun d _ => ?_
  simp only [mark, List.mem_singleton]

theorem isOpen_eq_true_iff {number : Int32} :
    table.isOpen number = true ↔ number ∈ table.map Descriptor.number := by
  simp [isOpen]

/-- **Marks open and close nothing.** -/
@[simp]
theorem map_number_marked :
    (marked numbers table).map Descriptor.number = table.map Descriptor.number := by
  rw [marked, List.map_map]
  exact List.map_congr_left fun d _ => number_mark

@[simp]
theorem isOpen_marked : (marked numbers table).isOpen = table.isOpen := by
  funext number
  rw [Bool.eq_iff_iff, isOpen_eq_true_iff, isOpen_eq_true_iff, map_number_marked]

/-- **Marking numbers one after the other** counts those that are open and marks the descriptors
that have them. -/
theorem markNumbers_eq (numbers : List Int32) (table : DescriptorTable) :
    markNumbers numbers table = (numbers.countP table.isOpen, marked numbers table) := by
  induction numbers generalizing table with
  | nil =>
    rw [markNumbers, List.countP_nil, marked_of_forall fun _ _ => List.not_mem_nil]
  | cons number rest ih =>
    have hrest : marked rest (marked [number] table) = marked (number :: rest) table :=
      marked_marked
    by_cases hopen : table.isOpen number = true
    · rw [markNumbers, if_pos hopen, setCloseOnExec_eq_marked, ih, isOpen_marked, hrest,
        List.countP_cons_of_pos hopen]
    · have hnone : ∀ d ∈ table, d.number ∉ [number] := by
        intro d hd hnumber
        rw [isOpen_eq_true_iff, ← List.mem_singleton.1 hnumber] at hopen
        exact hopen (List.mem_map_of_mem hd)
      rw [marked_of_forall hnone] at hrest
      rw [markNumbers, if_neg hopen, ih, hrest, List.countP_cons_of_neg hopen]

theorem markNumbers_append (numbers more : List Int32) (table : DescriptorTable) :
    markNumbers (numbers ++ more) table =
      ((markNumbers numbers table).1 + (markNumbers more (markNumbers numbers table).2).1,
        (markNumbers more (markNumbers numbers table).2).2) := by
  simp only [markNumbers_eq, isOpen_marked, marked_marked, List.countP_append]

end Marked

/-! ### Marking a range -/

/-- The numbers of a range that are open. -/
def openIn (table : DescriptorTable) (first limit : Int32) : Finset Int32 :=
  (table.map Descriptor.number).toFinset.filter (InRange first limit)

/-- **The descriptors of a range are marked** and nothing else is changed: the same descriptors are
open in the same places, those of the range are marked, and the others are as they were. -/
structure Marks (first limit : Int32) (before after : DescriptorTable) : Prop where
  numbers : after.map Descriptor.number = before.map Descriptor.number
  inside : ∀ d ∈ after, InRange first limit d.number → d.closeOnExec = true
  outside : (after.filter fun d => ¬InRange first limit d.number) =
    before.filter fun d => ¬InRange first limit d.number

section Range

variable (table : DescriptorTable) (first limit : Int32)

/-- The numbers that are counted are the open ones of the range, each once. -/
theorem countP_isOpen_numbers :
    (numbers first limit).countP table.isOpen = (table.openIn first limit).card := by
  have hopen : ((numbers first limit).filter table.isOpen).toFinset = table.openIn first limit := by
    ext number
    rw [List.mem_toFinset, List.mem_filter, mem_numbers, isOpen_eq_true_iff, openIn,
      Finset.mem_filter, List.mem_toFinset, and_comm]
  rw [List.countP_eq_length_filter, ← hopen,
    List.toFinset_card_of_nodup ((nodup_numbers first limit).filter _)]

theorem markCloseOnExec_eq :
    table.markCloseOnExec first limit =
      ((table.openIn first limit).card, marked (numbers first limit) table) := by
  rw [markCloseOnExec, markNumbers_eq, countP_isOpen_numbers]

theorem marks_marked : Marks first limit table (marked (numbers first limit) table) where
  numbers := map_number_marked
  inside := by
    intro d hd hrange
    obtain ⟨d, -, rfl⟩ := List.mem_map.1 hd
    rw [number_mark] at hrange
    rw [mark_of_mem (mem_numbers.2 hrange)]
  outside := by
    have hsame (d : Descriptor) :
        InRange first limit (mark (DescriptorTable.numbers first limit) d).number ↔
          InRange first limit d.number := by
      rw [number_mark]
    rw [marked, List.filter_map]
    simp only [Function.comp_def, hsame]
    refine marked_of_forall fun d hd hnumber => ?_
    have hrange := of_decide_eq_true (List.mem_filter.1 hd).2
    exact hrange (mem_numbers.1 hnumber)

/-- A second marking finds the same descriptors open and nothing to change. -/
theorem markCloseOnExec_marked :
    (marked (numbers first limit) table).markCloseOnExec first limit =
      table.markCloseOnExec first limit := by
  have hagain : marked (numbers first limit) (marked (numbers first limit) table) =
      marked (numbers first limit) table := by
    rw [marked_marked]
    exact marked_congr fun n => by rw [List.mem_append, or_self]
  rw [markCloseOnExec_eq, markCloseOnExec_eq, hagain, openIn, map_number_marked, openIn]

variable {first limit}

theorem markCloseOnExec_of_le (h : limit ≤ first) :
    table.markCloseOnExec first limit = (0, table) := by
  have hnone : numbers first limit = [] := by
    refine List.eq_nil_iff_forall_not_mem.2 fun n hn => ?_
    have hrange := inRange_iff_toInt.1 (mem_numbers.1 hn)
    rw [Int32.le_iff_toInt_le] at h
    omega
  rw [markCloseOnExec, hnone, markNumbers]

end Range

/-- **Marking a range.** The open descriptors of the range are marked, nothing is opened, closed or
changed elsewhere, and the answer is how many of the range are open; a range without numbers has
none. Marking the same range again changes nothing and gives the same answer, and a range may be
cut in two: marking one part and then the other does the same and gives answers that add up. -/
theorem markCloseOnExec_marks (table : DescriptorTable) (first limit : Int32) :
    let r := table.markCloseOnExec first limit
    Marks first limit table r.2 ∧ r.1 = (table.openIn first limit).card ∧
      (limit ≤ first → r = (0, table)) ∧
      r.2.markCloseOnExec first limit = r ∧
      ∀ mid, first ≤ mid → mid ≤ limit →
        let low := table.markCloseOnExec first mid
        let high := low.2.markCloseOnExec mid limit
        (low.1 + high.1, high.2) = r := by
  intro r
  have hr : r = ((table.openIn first limit).card, marked (numbers first limit) table) :=
    table.markCloseOnExec_eq first limit
  refine ⟨?_, ?_, table.markCloseOnExec_of_le, ?_, fun mid hfirst hlimit => ?_⟩
  · rw [hr]
    exact table.marks_marked first limit
  · rw [hr]
  · rw [hr, markCloseOnExec_marked, markCloseOnExec_eq]
  · have hall : r = markNumbers (numbers first mid ++ numbers mid limit) table := by
      rw [numbers_append hfirst hlimit]
      rfl
    rw [hall, markNumbers_append]
    rfl

/-- Of the descriptors 0, 5, 3 and 9, of which 5 is marked already, the range from 3 to 8 has two,
and so have its parts below 5 and from 5 on. -/
theorem markCloseOnExec_marks_sparse :
    let table : DescriptorTable := [⟨0, false⟩, ⟨5, true⟩, ⟨3, false⟩, ⟨9, false⟩]
    let low := table.markCloseOnExec 3 5
    let high := low.2.markCloseOnExec 5 8
    (3 : Int32) ≤ 5 ∧ (5 : Int32) ≤ 8 ∧
      (low.1 + high.1, high.2) = (2, [⟨0, false⟩, ⟨5, true⟩, ⟨3, true⟩, ⟨9, false⟩]) ∧
      (8 : Int32) ≤ 8 ∧ table.markCloseOnExec 8 8 = (0, table) := by
  intro table low high
  have hfirst : (3 : Int32) ≤ 5 := by decide
  have hlimit : (5 : Int32) ≤ 8 := by decide
  have hnone : (8 : Int32) ≤ 8 := by decide
  obtain ⟨-, -, -, -, hparts⟩ := markCloseOnExec_marks table 3 8
  obtain ⟨-, -, hempty, -, -⟩ := markCloseOnExec_marks table 8 8
  refine ⟨hfirst, hlimit, ?_, hnone, hempty hnone⟩
  rw [hparts 5 hfirst hlimit]
  decide +kernel

end DescriptorTable

end HostAccess
