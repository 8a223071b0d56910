import HostAccess.Process.Forest
import Mathlib.Algebra.Group.Nat.Defs
import Mathlib.Data.List.Nodup
import Mathlib.Data.List.Perm.Subperm
import Mathlib.Logic.Function.Iterate
import Mathlib.Logic.Relation

/-!
# When the walk of the forest ends

The walk takes a branch from its stack and puts the children of its process there. Children
are found by number. A number that occurs twice, the second time below the first, is reached
from itself, and then the walk goes round for ever. This is the only way in which it can
fail to end.

Whether the walk ends depends on the *links* between numbers alone
(`HostAccess.ProcessForest.Below`). How far the links go from a number
(`HostAccess.ProcessForest.Deep`) bounds the steps that the walk spends below it, from both
sides: a branch with links of every length below it is never done with, and one with fewer
than `d + 1` links below it is done with after at most `(n + 1) ^ d` steps.

* `HostAccess.ProcessForest.not_deep_of_iterate_step`,
  `HostAccess.ProcessForest.takenWithin_of_not_deep`: the two sides;
* `HostAccess.ProcessForest.deep_of_loop`, `HostAccess.ProcessForest.not_deep_of_loopFree`:
  links of every length lead from a number exactly if a loop can be reached from it;
* `HostAccess.ProcessForest.ends_iff_loopFree`: the walk of a forest;
* `HostAccess.ProcessForest.listing_ends_iff`: the main result, for the forest of any listing;
* `HostAccess.ProcessForest.loopFree_of_nodup`: numbers that occur once form no loop.
-/

namespace HostAccess

namespace ProcessForest

open Relation

variable {f : ProcessForest} {d : Nat} {p q : Pid}

/-! ### Links -/

/-- A process of the number `q` hangs below those of the number `p`. -/
def Below (f : ProcessForest) (p q : Pid) : Prop :=
  ∃ n ∈ f.children p, n.pid = q

/-- As many links as this lead away from a number. -/
def Deep (f : ProcessForest) : Nat → Pid → Prop
  | 0, _ => True
  | d + 1, p => ∃ q, f.Below p q ∧ f.Deep d q

/-- No number that is reached from a root is reached from itself. -/
def LoopFree (f : ProcessForest) : Prop :=
  ∀ root ∈ f.roots, ∀ p, ReflTransGen f.Below root.pid p → ¬TransGen f.Below p p

theorem mem_sorted {nodes : List ForestNode} {n : ForestNode} : n ∈ sorted nodes ↔ n ∈ nodes :=
  List.mem_mergeSort

theorem length_sorted (nodes : List ForestNode) : (sorted nodes).length = nodes.length :=
  List.length_mergeSort nodes

theorem mem_roots {n : ForestNode} : n ∈ f.roots ↔ n ∈ f.nodes ∧ n.parent = none := by
  rw [roots, mem_sorted, List.mem_filter, beq_iff_eq]

theorem mem_children {n : ForestNode} :
    n ∈ f.children p ↔ n ∈ f.nodes ∧ n.parent = some p := by
  rw [children, mem_sorted, List.mem_filter, beq_iff_eq]

theorem length_roots_le (f : ProcessForest) : f.roots.length ≤ f.nodes.length := by
  rw [roots, length_sorted]
  exact List.length_filter_le _ _

theorem length_children_le (f : ProcessForest) (p : Pid) :
    (f.children p).length ≤ f.nodes.length := by
  rw [children, length_sorted]
  exact List.length_filter_le _ _

theorem Below.mem_pids (h : f.Below p q) : q ∈ f.nodes.map ForestNode.pid := by
  obtain ⟨n, hn, rfl⟩ := h
  exact List.mem_map_of_mem (mem_children.1 hn).1

/-- Fewer links lead away too. -/
theorem Deep.of_succ (h : f.Deep (d + 1) p) : f.Deep d p := by
  induction d generalizing p with
  | zero => trivial
  | succ d ih =>
    obtain ⟨q, hq, hdeep⟩ := h
    exact ⟨q, hq, ih hdeep⟩

/-! ### Loops -/

/-- From a number that reaches a loop one can go on for ever. -/
theorem deep_of_loop (hloop : TransGen f.Below q q) (h : ReflTransGen f.Below p q) (d : Nat) :
    f.Deep d p := by
  induction d generalizing p with
  | zero => trivial
  | succ d ih =>
    have hto : TransGen f.Below p q := .trans_right h hloop
    obtain ⟨next, hnext, hrest⟩ := TransGen.head'_iff.1 hto
    exact ⟨next, hnext, ih hrest⟩

/-- A way of links that has not come to a loop visits no number twice, so it is not longer
than there are processes. -/
theorem length_seen_lt {seen : List Pid} (hfree : ¬TransGen f.Below p p)
    (hp : p ∈ f.nodes.map ForestNode.pid) (hnodup : seen.Nodup)
    (hseen : ∀ q ∈ seen, q ∈ f.nodes.map ForestNode.pid ∧ TransGen f.Below q p) :
    (p :: seen).Nodup ∧ seen.length < f.nodes.length := by
  have hnew : p ∉ seen := fun h => hfree (hseen p h).2
  have hall : (p :: seen).Nodup := List.nodup_cons.2 ⟨hnew, hnodup⟩
  have hlisted : p :: seen ⊆ f.nodes.map ForestNode.pid :=
    List.cons_subset.2 ⟨hp, fun q hq => (hseen q hq).1⟩
  have hlength : (p :: seen).length ≤ (f.nodes.map ForestNode.pid).length :=
    (hall.subperm hlisted).length_le
  rw [List.length_cons, List.length_map] at hlength
  exact ⟨hall, hlength⟩

/-- Without a loop the links end. What was walked before is `seen`: with the links still to
come it would be longer than there are processes. -/
theorem not_deep_of_seen {seen : List Pid}
    (hfree : ∀ q, ReflTransGen f.Below p q → ¬TransGen f.Below q q)
    (hp : p ∈ f.nodes.map ForestNode.pid) (hnodup : seen.Nodup)
    (hseen : ∀ q ∈ seen, q ∈ f.nodes.map ForestNode.pid ∧ TransGen f.Below q p)
    (hlength : f.nodes.length ≤ seen.length + d) : ¬f.Deep d p := by
  obtain ⟨hall, hlt⟩ := length_seen_lt (hfree p .refl) hp hnodup hseen
  induction d generalizing p seen with
  | zero => omega
  | succ d ih =>
    -- The next number goes on with a way that is longer by one, and has one link less to come.
    rintro ⟨next, hnext, hdeep⟩
    have hfreeNext : ∀ q, ReflTransGen f.Below next q → ¬TransGen f.Below q q :=
      fun q hq => hfree q (.head hnext hq)
    have hseenNext : ∀ q ∈ p :: seen,
        q ∈ f.nodes.map ForestNode.pid ∧ TransGen f.Below q next := by
      intro q hq
      rcases List.mem_cons.1 hq with rfl | hq
      · exact ⟨hp, .single hnext⟩
      · exact ⟨(hseen q hq).1, (hseen q hq).2.tail hnext⟩
    obtain ⟨hallNext, hltNext⟩ :=
      length_seen_lt (hfreeNext next .refl) hnext.mem_pids hall hseenNext
    refine ih hfreeNext hnext.mem_pids hall hseenNext ?_ hallNext hltNext hdeep
    rw [List.length_cons]
    omega

theorem not_deep_of_loopFree (h : f.LoopFree) {root : ForestNode} (hroot : root ∈ f.roots) :
    ¬f.Deep f.nodes.length root.pid :=
  not_deep_of_seen (h root hroot) (List.mem_map_of_mem (mem_roots.1 hroot).1) List.nodup_nil
    (fun _ hq => absurd hq List.not_mem_nil) (Nat.le_add_left _ _)

/-! ### The walk, from above

A branch is done with when the stack below it is bare again. -/

/-- After at most so many steps a branch and all below it have been taken from the stack, and
the rest of it is untouched. -/
def TakenWithin (f : ProcessForest) (steps : Nat) (branches : List Branch) : Prop :=
  ∃ k ≤ steps, ∀ rest, f.step^[k] (branches ++ rest) = rest

/-- Branches are taken one after the other. -/
theorem takenWithin_of_forall {steps : Nat} {branches : List Branch}
    (h : ∀ b ∈ branches, f.TakenWithin steps [b]) :
    f.TakenWithin (branches.length * steps) branches := by
  induction branches with
  | nil => exact ⟨0, Nat.zero_le _, fun _ => rfl⟩
  | cons b branches ih =>
    obtain ⟨hfirst, hothers⟩ := List.forall_mem_cons.1 h
    obtain ⟨k, hk, hfirst⟩ := hfirst
    obtain ⟨j, hj, hothers⟩ := ih hothers
    refine ⟨j + k, ?_, fun rest => ?_⟩
    · rw [List.length_cons, Nat.succ_mul]
      omega
    · rw [Function.iterate_add_apply, List.cons_append, ← List.singleton_append, hfirst, hothers]

/-- **A branch with few links below it is soon taken.** -/
theorem takenWithin_of_not_deep {b : Branch} (h : ¬f.Deep (d + 1) b.node.pid) :
    f.TakenWithin ((f.nodes.length + 1) ^ d) [b] := by
  induction d generalizing b with
  | zero =>
    have hnone : f.children b.node.pid = [] := by
      refine List.eq_nil_iff_forall_not_mem.2 fun n hn => h ⟨n.pid, ⟨n, hn, rfl⟩, trivial⟩
    refine ⟨1, Nat.le_refl 1, fun rest => ?_⟩
    rw [Function.iterate_one, List.singleton_append, step, hnone, List.map_nil, List.nil_append]
  | succ d ih =>
    -- The children take the place of the branch, and have one link less below them.
    have hchildren : ∀ c ∈ (f.children b.node.pid).map fun n => (⟨n, b.depth + 1⟩ : Branch),
        f.TakenWithin ((f.nodes.length + 1) ^ d) [c] := by
      intro c hc
      obtain ⟨n, hn, rfl⟩ := List.mem_map.1 hc
      exact ih fun hdeep => h ⟨n.pid, ⟨n, hn, rfl⟩, hdeep⟩
    obtain ⟨k, hk, htaken⟩ := takenWithin_of_forall hchildren
    refine ⟨k + 1, ?_, fun rest => ?_⟩
    · rw [List.length_map] at hk
      calc k + 1 ≤ f.nodes.length * (f.nodes.length + 1) ^ d + (f.nodes.length + 1) ^ d :=
            Nat.add_le_add
              (Nat.le_trans hk (Nat.mul_le_mul_right _ (f.length_children_le b.node.pid)))
              (Nat.pow_pos (Nat.succ_pos _))
        _ = (f.nodes.length + 1) ^ (d + 1) := by rw [Nat.pow_succ', Nat.succ_mul]
    · rw [Function.iterate_succ_apply, List.singleton_append, step, htaken]

/-- Without a loop the whole forest is taken within the bound of the walk. -/
theorem takenWithin_start (h : f.LoopFree) : f.TakenWithin f.stepBound f.start := by
  cases hlength : f.nodes.length with
  | zero =>
    have hroots : f.roots = [] :=
      List.eq_nil_of_length_eq_zero (Nat.le_zero.1 (hlength ▸ f.length_roots_le))
    refine ⟨0, Nat.zero_le _, fun rest => ?_⟩
    rw [start, hroots]
    rfl
  | succ n =>
    have hroots : ∀ b ∈ f.start, f.TakenWithin ((f.nodes.length + 1) ^ n) [b] := by
      intro b hb
      obtain ⟨root, hroot, rfl⟩ := List.mem_map.1 hb
      refine takenWithin_of_not_deep ?_
      rw [← hlength]
      exact not_deep_of_loopFree h hroot
    obtain ⟨k, hk, htaken⟩ := takenWithin_of_forall hroots
    refine ⟨k, Nat.le_trans hk ?_, htaken⟩
    rw [start, List.length_map, stepBound, hlength, Nat.pow_eq, Nat.pow_succ']
    have hle : f.roots.length ≤ n + 1 + 1 :=
      Nat.le_succ_of_le (hlength ▸ f.length_roots_le)
    exact Nat.mul_le_mul_right _ hle

/-! ### The walk, from below -/

/-- **A walk that ends has left no branch with as many links below it as it took steps.** -/
theorem not_deep_of_iterate_step {k : Nat} {stack : List Branch} (h : f.step^[k] stack = []) :
    ∀ b ∈ stack, ¬f.Deep k b.node.pid := by
  induction k generalizing stack with
  | zero =>
    rw [Function.iterate_zero, id_eq] at h
    simp [h]
  | succ k ih =>
    rw [Function.iterate_succ_apply] at h
    cases stack with
    | nil => simp
    | cons top rest =>
      intro b hb hdeep
      rcases List.mem_cons.1 hb with rfl | hb
      · obtain ⟨q, ⟨n, hn, rfl⟩, hdeep⟩ := hdeep
        refine ih h ⟨n, b.depth + 1⟩ ?_ hdeep
        exact List.mem_append_left _ (List.mem_map_of_mem hn)
      · exact ih h b (List.mem_append_right _ hb) hdeep.of_succ

/-! ### Walks that end -/

theorem iterate_step_nil (f : ProcessForest) (k : Nat) : f.step^[k] [] = [] :=
  Function.iterate_fixed rfl k

theorem isSome_walk {k : Nat} {stack : List Branch} :
    (f.walk k stack).isSome = true ↔ f.step^[k] stack = [] := by
  induction k generalizing stack with
  | zero => cases stack <;> simp [walk]
  | succ k ih =>
    cases stack with
    | nil => simp [walk, iterate_step_nil]
    | cons top rest => rw [walk, Option.isSome_map, ih, Function.iterate_succ_apply]

/-- **The walk ends exactly if no loop hangs below a root**, and then it ends within its
bound. -/
theorem ends_iff_loopFree (f : ProcessForest) :
    ((∃ k, f.step^[k] f.start = []) ↔ f.LoopFree) ∧
      (f.branches.isSome = true ↔ f.LoopFree) := by
  have hfree : (∃ k, f.step^[k] f.start = []) → f.LoopFree := by
    rintro ⟨k, hk⟩ root hroot p hreach hloop
    have hstart : (⟨root, 0⟩ : Branch) ∈ f.start := List.mem_map_of_mem hroot
    exact not_deep_of_iterate_step hk _ hstart (deep_of_loop hloop hreach k)
  have hbranches : f.LoopFree → f.step^[f.stepBound] f.start = [] := by
    intro h
    obtain ⟨k, hk, htaken⟩ := takenWithin_start h
    have hend : f.step^[k] f.start = [] := by
      have hrest := htaken []
      rwa [List.append_nil] at hrest
    rw [← Nat.sub_add_cancel hk, Function.iterate_add_apply, hend, iterate_step_nil]
  rw [branches, isSome_walk]
  exact ⟨⟨hfree, fun h => ⟨_, hbranches h⟩⟩, ⟨fun h => hfree ⟨_, h⟩, hbranches⟩⟩

/-! ### The forest of a listing -/

section Listing

variable {processes : List (Pid × Option Pid)}

/-- A process of the number `q` is listed whose parent is of the number `p`, another number
and a listed one. -/
def HangsBelow (processes : List (Pid × Option Pid)) (p q : Pid) : Prop :=
  (q, some p) ∈ processes ∧ p ≠ q ∧ p ∈ processes.map Prod.fst

/-- A process is listed with no parent, itself as its parent, or one that is not listed. -/
def IsRoot (processes : List (Pid × Option Pid)) (p : Pid) : Prop :=
  ∃ told, (p, told) ∈ processes ∧ ∀ q, told = some q → q = p ∨ q ∉ processes.map Prod.fst

/-- What a process is in the forest of a listing. -/
theorem mem_nodes_ofParents {n : ForestNode} :
    n ∈ (ofParents processes).nodes ↔ ∃ told, processes[n.place]? = some (n.pid, told) ∧
      n.parent = told.filter fun p => p != n.pid && (processes.map Prod.fst).contains p := by
  obtain ⟨place, pid, parent⟩ := n
  simp only [ofParents, List.mem_map, Prod.exists, List.mem_zipIdx_iff_getElem?,
    ForestNode.mk.injEq]
  constructor
  · rintro ⟨_, told, _, hget, rfl, rfl, rfl⟩
    exact ⟨told, hget, rfl⟩
  · rintro ⟨told, hget, hparent⟩
    exact ⟨pid, told, place, hget, rfl, rfl, hparent.symm⟩

theorem below_ofParents_iff : (ofParents processes).Below p q ↔ HangsBelow processes p q := by
  constructor
  · rintro ⟨n, hn, rfl⟩
    obtain ⟨hn, hparent⟩ := mem_children.1 hn
    obtain ⟨told, hget, htold⟩ := mem_nodes_ofParents.1 hn
    obtain ⟨rfl, hgood⟩ := Option.filter_eq_some_iff.1 (htold.symm.trans hparent)
    rw [Bool.and_eq_true, bne_iff_ne, List.contains_iff_mem] at hgood
    exact ⟨List.mem_of_getElem? hget, hgood⟩
  · rintro ⟨hmem, hne, hlisted⟩
    obtain ⟨place, hplace⟩ := List.mem_iff_getElem?.1 hmem
    refine ⟨⟨place, q, some p⟩, mem_children.2 ⟨mem_nodes_ofParents.2 ?_, rfl⟩, rfl⟩
    refine ⟨some p, hplace, (Option.filter_eq_some_iff.2 ⟨rfl, ?_⟩).symm⟩
    rw [Bool.and_eq_true, bne_iff_ne, List.contains_iff_mem]
    exact ⟨hne, hlisted⟩

theorem below_ofParents : (ofParents processes).Below = HangsBelow processes :=
  funext fun _ => funext fun _ => propext below_ofParents_iff

theorem exists_root_ofParents_iff :
    (∃ root ∈ (ofParents processes).roots, root.pid = p) ↔ IsRoot processes p := by
  constructor
  · rintro ⟨n, hn, rfl⟩
    obtain ⟨hn, hparent⟩ := mem_roots.1 hn
    obtain ⟨told, hget, htold⟩ := mem_nodes_ofParents.1 hn
    refine ⟨told, List.mem_of_getElem? hget, fun q hq => ?_⟩
    have hbad := Option.filter_eq_none_iff.1 (htold.symm.trans hparent) q hq
    rw [Bool.and_eq_true, bne_iff_ne, List.contains_iff_mem] at hbad
    tauto
  · rintro ⟨told, hmem, htold⟩
    obtain ⟨place, hplace⟩ := List.mem_iff_getElem?.1 hmem
    refine ⟨⟨place, p, none⟩, mem_roots.2 ⟨mem_nodes_ofParents.2 ?_, rfl⟩, rfl⟩
    refine ⟨told, hplace, (Option.filter_eq_none_iff.2 fun q hq => ?_).symm⟩
    rw [Bool.and_eq_true, bne_iff_ne, List.contains_iff_mem]
    have hbad := htold q hq
    tauto

theorem loopFree_ofParents_iff :
    (ofParents processes).LoopFree ↔ ∀ root p, IsRoot processes root →
      ReflTransGen (HangsBelow processes) root p → ¬TransGen (HangsBelow processes) p p := by
  rw [LoopFree, below_ofParents]
  constructor
  · intro h root p hroot
    obtain ⟨n, hn, rfl⟩ := exists_root_ofParents_iff.2 hroot
    exact h n hn p
  · intro h root hroot p
    exact h root.pid p (exists_root_ofParents_iff.1 ⟨root, hroot, rfl⟩)

/-- A process that hangs below another is no root, if its number occurs once. -/
theorem HangsBelow.not_isRoot (h : HangsBelow processes p q)
    (hnodup : (processes.map Prod.fst).Nodup) : ¬IsRoot processes q := by
  rintro ⟨told, hmem, htold⟩
  obtain ⟨hq, hne, hlisted⟩ := h
  have hsame : (q, told) = (q, some p) := List.inj_on_of_nodup_map hnodup hmem hq rfl
  rcases htold p (Prod.mk.inj hsame).2 with heq | hmissing
  · exact hne heq
  · exact hmissing hlisted

/-- A process hangs below one number only, if its own occurs once. -/
theorem HangsBelow.unique {p' : Pid} (h : HangsBelow processes p q)
    (h' : HangsBelow processes p' q) (hnodup : (processes.map Prod.fst).Nodup) : p = p' := by
  have hsame : (q, some p) = (q, some p') :=
    List.inj_on_of_nodup_map hnodup h.1 h'.1 rfl
  exact Option.some.inj (Prod.mk.inj hsame).2

/-- **Numbers that occur once form no loop below a root**: on the way back there is no choice,
and from a root there is no way back. -/
theorem loopFree_of_nodup (h : (processes.map Prod.fst).Nodup) :
    (ofParents processes).LoopFree := by
  refine loopFree_ofParents_iff.2 fun root p hroot hreach => ?_
  induction hreach with
  | refl =>
    intro hloop
    obtain ⟨last, -, hlast⟩ := TransGen.tail'_iff.1 hloop
    exact hlast.not_isRoot h hroot
  | tail _ hlink ih =>
    intro hloop
    obtain ⟨last, hround, hlast⟩ := TransGen.tail'_iff.1 hloop
    obtain rfl := hlink.unique hlast h
    exact ih (.head' hlink hround)

end Listing

/-- **The walk of a listing ends exactly if no number below a root is reached from itself**,
and then it ends within its bound. A loop that hangs below no root does no harm. -/
theorem listing_ends_iff (processes : List (Pid × Option Pid)) :
    let f := ofParents processes
    let loopFree := ∀ root p, IsRoot processes root →
      ReflTransGen (HangsBelow processes) root p → ¬TransGen (HangsBelow processes) p p
    ((∃ k, f.step^[k] f.start = []) ↔ loopFree) ∧ (f.branches.isSome = true ↔ loopFree) := by
  intro f loopFree
  have h := ends_iff_loopFree f
  rwa [loopFree_ofParents_iff] at h

/-- The number 1 is that of a root, and of a process below the one that hangs below it. -/
theorem not_ends_of_repeated_number :
    let processes : List (Pid × Option Pid) := [(1, none), (2, some 1), (1, some 2)]
    ¬∃ k, (ofParents processes).step^[k] (ofParents processes).start = [] := by
  intro processes
  rw [(ends_iff_loopFree _).1, loopFree_ofParents_iff]
  intro hfree
  have hroot : IsRoot processes 1 := ⟨none, by decide, by simp⟩
  have hdown : HangsBelow processes 1 2 := ⟨by decide, by decide, by decide⟩
  have hback : HangsBelow processes 2 1 := ⟨by decide, by decide, by decide⟩
  exact hfree 1 1 hroot .refl (.head hdown (.single hback))

end ProcessForest

end HostAccess
