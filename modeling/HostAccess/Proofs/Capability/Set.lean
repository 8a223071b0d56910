import HostAccess.Capability.Set
import Mathlib.Data.Finset.Card
import Mathlib.Data.Finset.Lattice.Lemmas
import Mathlib.Data.List.Nodup
import Mathlib.Tactic.NormNum

/-!
# A word of bits as a set of capabilities

A set of capabilities is a word, and the questions that look at the word as a whole, how many
members there are, whether there are any, whether two sets are equal, are right only if no bit
is set that belongs to no capability. A word with such a bit has no members and is not empty.
So the words that stand for sets are told apart first (`HostAccess.CapabilitySet.Represents`),
and then

* every operation that builds a set keeps to these words, and does to the members what its name
  says (`HostAccess.CapabilitySet.represents_build`, for any sequence of operations);
* on these words every question is a question about the members
  (`HostAccess.CapabilitySet.Represents.answers`), and the word is told by the members
  (`HostAccess.CapabilitySet.Represents.eq_iff`).

`HostAccess.CapabilitySet.build_answers` is both together.
-/

namespace HostAccess

namespace Capability

theorem nodup_label_all : (all.map label).Nodup := by
  decide

/-- A capability is told by its label. -/
theorem label_inj {c d : Capability} : c.label = d.label ↔ c = d :=
  ⟨List.inj_on_of_nodup_map nodup_label_all (mem_all c) (mem_all d), congrArg label⟩

end Capability

namespace CapabilitySet

/-! ### Words that stand for sets -/

/-- **A word stands for a set of capabilities** if the bits that are set are those of the
members. -/
def Represents (s : CapabilitySet) (members : Finset Capability) : Prop :=
  ∀ i, s.bits.getLsbD i = true ↔ ∃ c ∈ members, c.value = i

section Represents

variable {s t : CapabilitySet} {members others : Finset Capability}

theorem represents_empty : Represents empty ∅ := by
  intro i
  simp [empty]

theorem Represents.insert (h : Represents s members) (c : Capability) :
    Represents (s.insert c) (Insert.insert c members) := by
  intro i
  rw [CapabilitySet.insert, BitVec.getLsbD_or, getLsbD_bit, Bool.or_eq_true, h i,
    decide_eq_true_iff, Finset.exists_mem_insert, or_comm]

theorem Represents.union (h : Represents s members) (h' : Represents t others) :
    Represents (s.union t) (members ∪ others) := by
  intro i
  rw [CapabilitySet.union, BitVec.getLsbD_or, Bool.or_eq_true, h i, h' i]
  simp only [Finset.mem_union, or_and_right, exists_or]

/-- The bit of a member that is not removed is another bit than the one that is cleared. -/
theorem Represents.erase (h : Represents s members) (c : Capability) :
    Represents (s.erase c) (members.erase c) := by
  intro i
  have hbits : (s.erase c).bits.getLsbD i = true ↔ s.bits.getLsbD i = true ∧ c.value ≠ i := by
    simp only [CapabilitySet.erase, BitVec.getLsbD_and, BitVec.getLsbD_not, getLsbD_bit,
      Bool.and_eq_true, Bool.not_eq_true', decide_eq_true_iff, decide_eq_false_iff_not]
    constructor
    · rintro ⟨hset, -, hne⟩
      exact ⟨hset, hne⟩
    · rintro ⟨hset, hne⟩
      exact ⟨hset, BitVec.lt_of_getLsbD hset, hne⟩
  rw [hbits, h i]
  constructor
  · rintro ⟨⟨d, hd, rfl⟩, hne⟩
    exact ⟨d, Finset.mem_erase.2 ⟨fun heq => hne (heq ▸ rfl), hd⟩, rfl⟩
  · rintro ⟨d, hd, rfl⟩
    obtain ⟨hne, hd⟩ := Finset.mem_erase.1 hd
    exact ⟨⟨d, hd, rfl⟩, fun heq => hne (Capability.value_inj.1 heq).symm⟩

theorem Represents.insertIf (h : Represents s members) (c : Capability) (present : Bool) :
    Represents (s.insertIf c present) (if present then Insert.insert c members else members) := by
  cases present with
  | false => exact h
  | true => exact h.insert c

/-- The loop that builds a set from a list. A capability that occurs twice sets its bit twice. -/
theorem Represents.foldl_insert (h : Represents s members) (cs : List Capability) :
    Represents (cs.foldl CapabilitySet.insert s) (members ∪ cs.toFinset) := by
  induction cs generalizing s members with
  | nil =>
    rw [List.toFinset_nil, Finset.union_empty]
    exact h
  | cons c cs ih =>
    rw [List.toFinset_cons, Finset.union_insert, ← Finset.insert_union]
    exact ih (h.insert c)

theorem represents_ofList (cs : List Capability) : Represents (ofList cs) cs.toFinset := by
  have h := represents_empty.foldl_insert cs
  rwa [Finset.empty_union] at h

end Represents

/-! ### Questions about a word -/

/-- **What is answered about a set with these members.** -/
structure Answers (s : CapabilitySet) (members : Finset Capability) : Prop where
  contains : ∀ c, s.contains c = decide (c ∈ members)
  mem : ∀ c, c ∈ s ↔ c ∈ members
  /-- A capability that is asked for is granted exactly if it is a member. -/
  require : ∀ c, s.require c = if c ∈ members then .ok () else .error (.unsupported c)
  size : s.size = members.card
  isEmpty : s.isEmpty = true ↔ ∀ c, c ∉ members
  /-- The members are listed in the order of their values, so none twice, and both texts name
  them in that order. No two have the same label, so a text names the members and no others. -/
  listed : ∃ listed : List Capability,
    listed.Pairwise (fun c d => c.value < d.value) ∧ (∀ c, c ∈ listed ↔ c ∈ members) ∧
    s.toList = listed ∧ (listed.map Capability.label).Nodup ∧
    (∀ c, c.label ∈ listed.map Capability.label ↔ c ∈ members) ∧
    s.describe = "\x7b" ++ ", ".intercalate (listed.map Capability.label) ++ "\x7d" ∧
    s.describeLines = if listed = [] then "\x7b\x7d" else
      "\x7b\n" ++ String.join (listed.map fun c => "    " ++ c.label ++ ",\n") ++ "\x7d"
  /-- The bits behind the last capability belong to none, and none of them is set. -/
  bounded : s.bits.toNat < 2 ^ Capability.all.length

theorem pairwise_value_all : Capability.all.Pairwise fun c d => c.value < d.value := by
  decide

theorem value_lt_length_all (c : Capability) : c.value < Capability.all.length := by
  cases c <;> decide

namespace Represents

variable {s t : CapabilitySet} {members others : Finset Capability}

theorem contains_iff (h : Represents s members) (c : Capability) :
    s.contains c = true ↔ c ∈ members := by
  rw [contains_eq_getLsbD, h c.value]
  constructor
  · rintro ⟨d, hd, heq⟩
    exact Capability.value_inj.1 heq ▸ hd
  · exact fun hc => ⟨c, hc, rfl⟩

/-- The number of bits that are set is the number of members, as different members have different
bits. -/
theorem size_eq (h : Represents s members) : s.size = members.card := by
  have hbits : ((List.range 32).filter fun i => s.bits.getLsbD i).toFinset =
      members.image Capability.value := by
    ext i
    rw [List.mem_toFinset, List.mem_filter, List.mem_range, Finset.mem_image, ← h i]
    exact and_iff_right_of_imp BitVec.lt_of_getLsbD
  rw [size, List.countP_eq_length_filter,
    ← List.toFinset_card_of_nodup (List.nodup_range.filter _), hbits,
    Finset.card_image_of_injective _ fun _ _ => Capability.value_inj.1]

/-- **The members tell the word.** -/
theorem eq_iff (h : Represents s members) (h' : Represents t others) :
    s = t ↔ members = others := by
  constructor
  · rintro rfl
    ext c
    rw [← h.contains_iff, ← h'.contains_iff]
  · rintro rfl
    have hbits : s.bits = t.bits := BitVec.eq_of_getLsbD_eq fun i _ =>
      Bool.eq_iff_iff.2 ((h i).trans (h' i).symm)
    cases s
    cases t
    exact congrArg CapabilitySet.mk hbits

theorem isEmpty_iff (h : Represents s members) : s.isEmpty = true ↔ ∀ c, c ∉ members := by
  have hzero : s.isEmpty = true ↔ s = empty := by
    rw [isEmpty, beq_iff_eq]
    cases s
    exact (CapabilitySet.mk.injEq ..).symm.to_iff
  rw [hzero, h.eq_iff represents_empty, Finset.eq_empty_iff_forall_notMem]

theorem toNat_lt (h : Represents s members) : s.bits.toNat < 2 ^ Capability.all.length := by
  refine Nat.lt_pow_two_of_testBit _ fun i hi => ?_
  by_contra hset
  obtain ⟨c, -, rfl⟩ := (h i).1 (by simpa [BitVec.getLsbD] using hset)
  exact absurd (value_lt_length_all c) (Nat.not_lt.2 hi)

theorem answers (h : Represents s members) : Answers s members where
  contains c := by
    rw [Bool.eq_iff_iff, h.contains_iff, decide_eq_true_iff]
  mem := h.contains_iff
  require c := by
    simp only [CapabilitySet.require, h.contains_iff]
  size := h.size_eq
  isEmpty := h.isEmpty_iff
  listed := by
    have hmem (c : Capability) : c ∈ s.toList ↔ c ∈ members := mem_toList.trans (h.contains_iff c)
    have hinj : Function.Injective Capability.label := fun _ _ => Capability.label_inj.1
    have hascend : s.toList.Pairwise fun c d => c.value < d.value := pairwise_value_all.filter _
    have hnodup : s.toList.Nodup := hascend.imp fun hlt heq => (heq ▸ hlt).ne rfl
    refine ⟨s.toList, hascend, hmem, rfl, hnodup.map hinj, fun c => ?_, rfl, ?_⟩
    · rw [List.mem_map_of_injective hinj, hmem]
    · simp only [describeLines, List.isEmpty_iff]
  bounded := h.toNat_lt

/-- One bit too many, and a set without members is not empty. -/
example :
    let s : CapabilitySet := ⟨1#32 <<< Capability.all.length⟩
    s.toList = [] ∧ s.isEmpty = false ∧ s.size = 1 := by
  decide

end Represents

/-! ### Sequences of operations -/

/-- **How a set is built**: from nothing or from a list, and then by any number of operations.
The other set of a union was built in this way, too. -/
inductive Construction where
  | empty
  | ofList (cs : List Capability)
  | insert (before : Construction) (c : Capability)
  | erase (before : Construction) (c : Capability)
  | insertIf (before : Construction) (c : Capability) (present : Bool)
  | union (before other : Construction)

/-- The word that the operations build. -/
def Construction.build : Construction → CapabilitySet
  | .empty => .empty
  | .ofList cs => .ofList cs
  | .insert before c => before.build.insert c
  | .erase before c => before.build.erase c
  | .insertIf before c present => before.build.insertIf c present
  | .union before other => before.build.union other.build

/-- The set that the same operations build from members. -/
def Construction.members : Construction → Finset Capability
  | .empty => ∅
  | .ofList cs => cs.toFinset
  | .insert before c => Insert.insert c before.members
  | .erase before c => before.members.erase c
  | .insertIf before c present => if present then Insert.insert c before.members else before.members
  | .union before other => before.members ∪ other.members

theorem represents_build (construction : Construction) :
    Represents construction.build construction.members := by
  induction construction with
  | empty => exact represents_empty
  | ofList cs => exact represents_ofList cs
  | insert _ c ih => exact ih.insert c
  | erase _ c ih => exact ih.erase c
  | insertIf _ c present ih => exact ih.insertIf c present
  | union _ _ ih ih' => exact ih.union ih'

/-- **A set is answered for as its members say**, however it was built, and two sets are equal
exactly if they have the same members. -/
theorem build_answers (construction : Construction) :
    Answers construction.build construction.members ∧
      ∀ other : Construction, construction.build = other.build ↔
        ∀ c, c ∈ construction.members ↔ c ∈ other.members := by
  refine ⟨(represents_build construction).answers, fun other => ?_⟩
  rw [(represents_build construction).eq_iff (represents_build other), Finset.ext_iff]

end CapabilitySet

end HostAccess
