import HostAccess.Error

/-!
# Sets of capabilities

A set of capabilities is a word with one bit for each. It is fixed when a host is opened,
and every operation asks it before doing anything else.

* `HostAccess.CapabilitySet`: the word, with membership as its view;
* `HostAccess.CapabilitySet.toList`: the members, each once, in the order of their values;
* `HostAccess.CapabilitySet.guard`: run an operation only if its capability is present.
-/

namespace HostAccess

/-- A set of capabilities: bit `c.value` is set if `c` is a member. -/
structure CapabilitySet where
  bits : BitVec 32
  deriving DecidableEq, Repr

namespace CapabilitySet

/-! ### Building sets -/

/-- The set without members. -/
def empty : CapabilitySet := ⟨0⟩

/-- The word with the bit of one capability. -/
def bit (c : Capability) : BitVec 32 :=
  1#32 <<< c.value

/-- Adds a member. -/
def insert (s : CapabilitySet) (c : Capability) : CapabilitySet :=
  ⟨s.bits ||| bit c⟩

/-- Removes a member. -/
def erase (s : CapabilitySet) (c : Capability) : CapabilitySet :=
  ⟨s.bits &&& ~~~bit c⟩

/-- Adds a member if a condition holds. -/
def insertIf (s : CapabilitySet) (c : Capability) (present : Bool) : CapabilitySet :=
  if present then s.insert c else s

/-- The members of either set. -/
def union (s t : CapabilitySet) : CapabilitySet :=
  ⟨s.bits ||| t.bits⟩

/-- The set of the capabilities in a list. -/
def ofList (cs : List Capability) : CapabilitySet :=
  cs.foldl insert empty

/-! ### Asking sets -/

/-- Whether a capability is a member. -/
def contains (s : CapabilitySet) (c : Capability) : Bool :=
  s.bits &&& bit c != 0

instance : Membership Capability CapabilitySet where
  mem s c := s.contains c

instance (c : Capability) (s : CapabilitySet) : Decidable (c ∈ s) :=
  inferInstanceAs (Decidable (s.contains c = true))

/-- The members, in the order of their values. -/
def toList (s : CapabilitySet) : List Capability :=
  Capability.all.filter s.contains

/-- The number of bits that are set. -/
def size (s : CapabilitySet) : Nat :=
  (List.range 32).countP fun i => s.bits.getLsbD i

/-- Whether no bit is set. -/
def isEmpty (s : CapabilitySet) : Bool :=
  s.bits == 0

/-! ### Membership after each operation -/

theorem getLsbD_bit (c : Capability) (i : Nat) : (bit c).getLsbD i = decide (c.value = i) := by
  rw [bit, ← BitVec.twoPow_eq, BitVec.getLsbD_twoPow]
  simp [c.value_lt]

/-- A member is a capability whose bit is set. -/
theorem contains_eq_getLsbD (s : CapabilitySet) (c : Capability) :
    s.contains c = s.bits.getLsbD c.value := by
  rw [contains, bit, ← BitVec.twoPow_eq, BitVec.and_twoPow]
  split
  · next h =>
    rw [h, bne_iff_ne]
    intro h0
    have := congrArg (BitVec.getLsbD · c.value) h0
    simp [c.value_lt] at this
  · next h => simp [h]

@[simp]
theorem contains_empty (c : Capability) : empty.contains c = false := by
  simp [contains, empty]

theorem contains_insert (s : CapabilitySet) (c d : Capability) :
    (s.insert c).contains d = (s.contains d || decide (c = d)) := by
  simp [contains_eq_getLsbD, insert, getLsbD_bit, Capability.value_inj]

theorem contains_erase (s : CapabilitySet) (c d : Capability) :
    (s.erase c).contains d = (s.contains d && decide (c ≠ d)) := by
  rw [contains_eq_getLsbD, contains_eq_getLsbD, erase, BitVec.getLsbD_and, BitVec.getLsbD_not,
    getLsbD_bit]
  simp [Capability.value_inj, d.value_lt]

theorem contains_union (s t : CapabilitySet) (c : Capability) :
    (s.union t).contains c = (s.contains c || t.contains c) := by
  simp [contains_eq_getLsbD, union]

/-- The list of the members holds them all and nothing else. -/
theorem mem_toList {s : CapabilitySet} {c : Capability} : c ∈ s.toList ↔ c ∈ s := by
  rw [toList, List.mem_filter]
  exact and_iff_right (Capability.mem_all c)

/-! ### Refusing operations -/

/-- Fails unless a capability is a member. -/
def require (s : CapabilitySet) (c : Capability) : Except HostError Unit :=
  if s.contains c then .ok () else .error (.unsupported c)

/-- Runs an operation if its capability is a member. If it is not, the operation is never
begun, so nothing can happen behind a refusal. -/
def guard {m : Type → Type} [Monad m] {α : Type} (s : CapabilitySet) (c : Capability)
    (operation : m (Except HostError α)) : m (Except HostError α) :=
  match s.require c with
  | .ok () => operation
  | .error e => pure (.error e)

/-! ### Writing sets out -/

/-- The members on one line. -/
def describe (s : CapabilitySet) : String :=
  "\x7b" ++ String.intercalate ", " (s.toList.map Capability.label) ++ "\x7d"

/-- The members on a line each; a set without members stays on one line. -/
def describeLines (s : CapabilitySet) : String :=
  if s.toList.isEmpty then "\x7b\x7d"
  else "\x7b\n" ++ String.join (s.toList.map fun c => "    " ++ c.label ++ ",\n") ++ "\x7d"

end CapabilitySet

end HostAccess
