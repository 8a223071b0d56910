import HostAccess.Account
import Mathlib.Data.List.Induction
import Mathlib.Data.List.Nodup

/-!
# The labels of a user's groups

The account database reports the groups of a user by number, the primary group first, and it may
report a number twice. A caller wants labels, each once. Two numbers may have the same label, since
two groups may share a name, or a group may be named like the number of one that has no entry; so
repeats are told by the labels and not by the numbers.

What is wanted is said without the loop that does it. `HostAccess.Accounts.HasLabel` is the label of
a number, and `HostAccess.FirstOccurrences` says of a list that it has what another has, each once
and in the order in which it occurs there first. Adding one more label keeps that
(`HostAccess.FirstOccurrences.addLabel`), and so the list of all labels has it.

* `HostAccess.Accounts.hasLabel_groupLabel`: every number has its label;
* `HostAccess.FirstOccurrences.of_foldl`: labels added one after the other;
* `HostAccess.Accounts.groupsOf_first_occurrences`: the main result.
-/

namespace HostAccess

/-! ### First occurrences -/

/-- **A list of labels without its repeats**: the same labels, each once, in the order in which
they occur first. -/
structure FirstOccurrences (reported labels : List String) : Prop where
  nodup : labels.Nodup
  mem_iff : ∀ label, label ∈ labels ↔ label ∈ reported
  order : ∀ x ∈ labels, ∀ y ∈ labels,
    labels.idxOf x < labels.idxOf y ↔ reported.idxOf x < reported.idxOf y

namespace FirstOccurrences

variable {reported labels : List String} {label : String}

theorem nil : FirstOccurrences [] [] :=
  ⟨List.nodup_nil, fun _ => Iff.rfl, fun _ hx => absurd hx List.not_mem_nil⟩

theorem concat_of_mem (h : FirstOccurrences reported labels) (hmem : label ∈ labels) :
    FirstOccurrences (reported ++ [label]) labels where
  nodup := h.nodup
  mem_iff := by
    intro x
    rw [List.mem_append, List.mem_singleton, h.mem_iff]
    constructor
    · exact Or.inl
    · rintro (hx | rfl)
      · exact hx
      · exact (h.mem_iff x).1 hmem
  order := by
    intro x hx y hy
    rw [List.idxOf_append_of_mem ((h.mem_iff x).1 hx),
      List.idxOf_append_of_mem ((h.mem_iff y).1 hy)]
    exact h.order x hx y hy

theorem concat_of_not_mem (h : FirstOccurrences reported labels) (hnew : label ∉ labels) :
    FirstOccurrences (reported ++ [label]) (labels ++ [label]) where
  nodup := by
    refine List.nodup_append.2 ⟨h.nodup, List.nodup_singleton label, ?_⟩
    rintro x hx y hy rfl
    rw [List.mem_singleton.1 hy] at hx
    exact hnew hx
  mem_iff := by
    intro x
    rw [List.mem_append, List.mem_append, h.mem_iff]
  order := by
    have hnew' : label ∉ reported := mt (h.mem_iff label).2 hnew
    -- the new label comes last in both lists, and what was there stays where it was
    have hlast : (labels ++ [label]).idxOf label = labels.length := by
      rw [List.idxOf_append_of_notMem hnew, List.idxOf_cons_self, Nat.add_zero]
    have hlast' : (reported ++ [label]).idxOf label = reported.length := by
      rw [List.idxOf_append_of_notMem hnew', List.idxOf_cons_self, Nat.add_zero]
    have hkept (x : String) (hx : x ∈ labels) :
        (labels ++ [label]).idxOf x = labels.idxOf x ∧ labels.idxOf x < labels.length ∧
          (reported ++ [label]).idxOf x = reported.idxOf x ∧
          reported.idxOf x < reported.length := by
      have hx' := (h.mem_iff x).1 hx
      exact ⟨List.idxOf_append_of_mem hx, List.idxOf_lt_length_of_mem hx,
        List.idxOf_append_of_mem hx', List.idxOf_lt_length_of_mem hx'⟩
    intro x hx y hy
    rcases List.mem_append.1 hx with hx | hx <;> rcases List.mem_append.1 hy with hy | hy
    · rw [(hkept x hx).1, (hkept y hy).1, (hkept x hx).2.2.1, (hkept y hy).2.2.1]
      exact h.order x hx y hy
    · have := hkept x hx
      rw [List.mem_singleton.1 hy]
      omega
    · have := hkept y hy
      rw [List.mem_singleton.1 hx]
      omega
    · rw [List.mem_singleton.1 hx, List.mem_singleton.1 hy]
      omega

/-- **One more label** is added at the end, or is there already. -/
theorem addLabel (h : FirstOccurrences reported labels) (label : String) :
    FirstOccurrences (reported ++ [label]) (Accounts.addLabel labels label) := by
  rw [Accounts.addLabel]
  by_cases hmem : label ∈ labels
  · rw [if_pos (List.contains_iff_mem.2 hmem)]
    exact h.concat_of_mem hmem
  · rw [if_neg (mt List.contains_iff_mem.1 hmem)]
    exact h.concat_of_not_mem hmem

/-- **Labels added one after the other** are kept at their first occurrence. -/
theorem of_foldl (reported : List String) :
    FirstOccurrences reported (reported.foldl Accounts.addLabel []) := by
  -- from the end, where a label is added to those of all before
  induction reported using List.reverseRecOn with
  | nil => exact nil
  | append_singleton reported label ih =>
    rw [List.foldl_append, List.foldl_cons, List.foldl_nil]
    exact ih.addLabel label

end FirstOccurrences

namespace Accounts

theorem prefix_addLabel (labels : List String) (label : String) :
    labels <+: addLabel labels label := by
  rw [addLabel]
  split
  · exact List.prefix_rfl
  · exact List.prefix_append labels [label]

theorem prefix_foldl_addLabel (reported labels : List String) :
    labels <+: reported.foldl addLabel labels := by
  induction reported generalizing labels with
  | nil => exact List.prefix_rfl
  | cons label reported ih => exact (prefix_addLabel labels label).trans (ih _)

/-- The first label stays in front. -/
theorem head?_foldl_addLabel (primary : String) (more : List String) :
    ((primary :: more).foldl addLabel []).head? = some primary := by
  obtain ⟨rest, hrest⟩ := prefix_foldl_addLabel more [primary]
  have hfirst : (primary :: more).foldl addLabel [] = more.foldl addLabel [primary] := rfl
  rw [hfirst, ← hrest]
  rfl

/-! ### Labels -/

/-- **The label of a group number**: the name in the first entry for the number, or the number
written out if there is no entry. -/
inductive HasLabel (accounts : Accounts) (gid : UInt32) : String → Prop where
  | named {before : List Group} {group : Group} {after : List Group}
      (entries : accounts.groups = before ++ group :: after) (same : group.gid = gid)
      (first : ∀ g ∈ before, g.gid ≠ gid) : HasLabel accounts gid group.name
  | numbered (none : ∀ g ∈ accounts.groups, g.gid ≠ gid) : HasLabel accounts gid (toString gid)

variable (accounts : Accounts)

theorem hasLabel_groupLabel (gid : UInt32) : accounts.HasLabel gid (accounts.groupLabel gid) := by
  rw [groupLabel, groupName?]
  cases hfind : accounts.groups.find? fun g => g.gid == gid with
  | none =>
    have hnone := List.find?_eq_none.1 hfind
    exact .numbered fun g hg => by simpa using hnone g hg
  | some group =>
    obtain ⟨hsame, before, after, hentries, hfirst⟩ := List.find?_eq_some_iff_append.1 hfind
    exact .named hentries (by simpa using hsame) fun g hg => by simpa using hfirst g hg

/-! ### The groups of a user -/

/-- **The groups of a user.** The labels of the reported groups are each there once, in the order
in which they occur first, and so the label of the primary group is in front. A name that no user
has is refused. -/
theorem groupsOf_first_occurrences (name : String) :
    (∀ before user after, accounts.users = before ++ user :: after → user.name = name →
      (∀ u ∈ before, u.name ≠ name) →
        ∃ primary more labels,
          accounts.HasLabel user.gid primary ∧ List.Forall₂ accounts.HasLabel user.others more ∧
          accounts.groupsOf name = .ok labels ∧ labels.head? = some primary ∧
          FirstOccurrences (primary :: more) labels) ∧
      ((∀ u ∈ accounts.users, u.name ≠ name) →
        accounts.groupsOf name = .error (.invalidInput s!"unknown user {name}")) := by
  constructor
  · intro before user after hentries hname hfirst
    have hfound : accounts.user? name = some user := by
      refine List.find?_eq_some_iff_append.2 ⟨by simpa using hname, before, after, hentries, ?_⟩
      exact fun u hu => by simpa using hfirst u hu
    refine ⟨accounts.groupLabel user.gid, user.others.map accounts.groupLabel, _,
      accounts.hasLabel_groupLabel user.gid, ?_, ?_, head?_foldl_addLabel _ _,
      FirstOccurrences.of_foldl _⟩
    · refine List.forall₂_map_right_iff.2 (List.forall₂_same.2 fun gid _ => ?_)
      exact accounts.hasLabel_groupLabel gid
    · rw [groupsOf, hfound]
      rfl
  · intro hnone
    have hfound : accounts.user? name = none :=
      List.find?_eq_none.2 fun u hu => by simpa using hnone u hu
    rw [groupsOf, hfound]

/-- A user with a group that is reported twice, two of one name, one that is named like the number
of another, and two without an entry. -/
theorem groupsOf_first_occurrences_shared_labels :
    let user : User := ⟨"ann", 1000, 20, [100, 50, 7, 20, 9]⟩
    let accounts : Accounts :=
      ⟨[⟨"root", 0, 0, []⟩, user], [⟨"staff", 20⟩, ⟨"100", 7⟩, ⟨"staff", 50⟩]⟩
    accounts.users = [⟨"root", 0, 0, []⟩] ++ user :: [] ∧ user.name = "ann" ∧
      (∀ u ∈ [(⟨"root", 0, 0, []⟩ : User)], u.name ≠ "ann") ∧
      accounts.groupsOf "ann" = .ok ["staff", "100", "9"] ∧
      (∃ primary more, accounts.HasLabel 20 primary ∧
        List.Forall₂ accounts.HasLabel [100, 50, 7, 20, 9] more ∧
        FirstOccurrences (primary :: more) ["staff", "100", "9"]) ∧
      (∀ u ∈ accounts.users, u.name ≠ "bob") ∧
      accounts.groupsOf "bob" = .error (.invalidInput "unknown user bob") := by
  intro user accounts
  have hentries : accounts.users = [⟨"root", 0, 0, []⟩] ++ user :: [] := rfl
  have hfirst : ∀ u ∈ [(⟨"root", 0, 0, []⟩ : User)], u.name ≠ "ann" := by decide
  have hnone : ∀ u ∈ accounts.users, u.name ≠ "bob" := by decide
  have hvalue : accounts.groupsOf "ann" = .ok ["staff", "100", "9"] := by rfl
  obtain ⟨primary, more, labels, hprimary, hmore, hlabels, -, hfirsts⟩ :=
    (accounts.groupsOf_first_occurrences "ann").1 _ user [] hentries rfl hfirst
  obtain rfl : ["staff", "100", "9"] = labels := Except.ok.inj (hvalue.symm.trans hlabels)
  exact ⟨hentries, rfl, hfirst, hvalue, ⟨primary, more, hprimary, hmore, hfirsts⟩, hnone,
    (accounts.groupsOf_first_occurrences "bob").2 hnone⟩

end Accounts

end HostAccess
