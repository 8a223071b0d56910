import HostAccess.Proofs.Process.TreeView

/-!
# The order of the tree

The walk of a forest works on a stack, with the depth of each branch written beside it. The
order that it is meant to give is defined by a recursion that knows no stack: first a process,
then all that hangs below it, then what stands beside it.

On the stack there are always some siblings at one depth, and below them what was there before
they came. While the siblings and all below them are taken, the rest of the stack lies still:
so the walk takes a stretch that the recursion gives, and goes on with the rest.

In that order all that hangs below a process stands in one stretch, and the process right before
it. Whatever else is read off from a tree follows from this: a parent comes before its children,
and a process of another family not between them.

* `HostAccess.ProcessForest.Preorder`: the recursion, and
  `HostAccess.ProcessForest.Walked.exists_preorder`: the walk follows it;
* `HostAccess.ProcessForest.Rooted`: how many links lead up from a process to a root;
* `HostAccess.ProcessForest.Preorder.exists_block`: the stretch below a process;
* `HostAccess.ProcessForest.TreeOrder`: what the order of a tree has to be, and
  `HostAccess.ProcessForest.treeOrder_of_walked`: the walk gives it.
-/

namespace HostAccess

namespace ProcessForest

open Relation

variable {f : ProcessForest} {stack taken order : List Branch} {nodes : List ForestNode}
  {depth : Nat} {p q r : Pid}

/-! ### The recursion and the stack -/

/-- **The order of some nodes at one depth and of all that hangs below them**: a node, what
hangs below it, and then the nodes beside it. -/
inductive Preorder (f : ProcessForest) : Nat → List ForestNode → List Branch → Prop where
  | nil {depth : Nat} : Preorder f depth [] []
  | cons {depth : Nat} {n : ForestNode} {beside : List ForestNode} {below after : List Branch}
      (down : Preorder f (depth + 1) (f.children n.pid) below)
      (along : Preorder f depth beside after) :
      Preorder f depth (n :: beside) (⟨n, depth⟩ :: (below ++ after))

theorem preorder_nil_iff : f.Preorder depth [] order ↔ order = [] := by
  constructor
  · rintro ⟨⟩
    rfl
  · rintro rfl
    exact .nil

theorem preorder_cons_iff {n : ForestNode} {beside : List ForestNode} :
    f.Preorder depth (n :: beside) order ↔
      ∃ below after, order = ⟨n, depth⟩ :: (below ++ after) ∧
        f.Preorder (depth + 1) (f.children n.pid) below ∧ f.Preorder depth beside after := by
  constructor
  · rintro (_ | ⟨down, along⟩)
    exact ⟨_, _, rfl, down, along⟩
  · rintro ⟨below, after, rfl, down, along⟩
    exact .cons down along

/-- **The walk follows the recursion**: from siblings on top of a stack it takes them and what
hangs below them in its order, and goes on with the rest of the stack. The induction is on what
is taken, since the children that come onto the stack may be many. -/
theorem Walked.exists_preorder {rest : List Branch}
    (h : f.Walked (nodes.map (fun n => ⟨n, depth⟩) ++ rest) taken) :
    ∃ order more, taken = order ++ more ∧ f.Preorder depth nodes order ∧ f.Walked rest more := by
  induction hlength : taken.length using Nat.strong_induction_on
    generalizing depth nodes rest taken with
  | _ k ih =>
    subst hlength
    cases nodes with
    | nil => exact ⟨[], taken, rfl, .nil, h⟩
    | cons n beside =>
      cases h with
      | @cons _ _ taken walked =>
        obtain ⟨below, others, rfl, hdown, hothers⟩ :=
          ih taken.length (Nat.lt_succ_self _) walked rfl
        have hlt : others.length < (⟨n, depth⟩ :: (below ++ others) : List Branch).length := by
          rw [List.length_cons, List.length_append]
          omega
        obtain ⟨after, more, rfl, halong, hmore⟩ := ih others.length hlt hothers rfl
        refine ⟨⟨n, depth⟩ :: (below ++ after), more, ?_, .cons hdown halong, hmore⟩
        rw [List.cons_append, List.append_assoc]

/-- The walk of the whole forest gives the order of the roots. -/
theorem Walked.preorder (h : f.Walked f.start taken) : f.Preorder 0 f.roots taken := by
  rw [start, ← List.append_nil (f.roots.map _)] at h
  obtain ⟨order, more, rfl, horder, hmore⟩ := h.exists_preorder
  cases hmore
  rwa [List.append_nil]

/-- The stack is empty after as many steps as branches are taken. -/
theorem Walked.iterate_step (h : f.Walked stack taken) : f.step^[taken.length] stack = [] := by
  induction h with
  | nil => rfl
  | cons _ ih => exact ih

/-! ### Depths -/

/-- **Going up**: so many links lead from a process to a root. -/
inductive Rooted (processes : List (Pid × Option Pid)) : Nat → Pid → Prop where
  | root {p : Pid} (h : IsRoot processes p) : Rooted processes 0 p
  | link {depth : Nat} {p q : Pid} (hlink : HangsBelow processes p q)
      (h : Rooted processes depth p) : Rooted processes (depth + 1) q

section Parents

variable {processes : List (Pid × Option Pid)}

theorem Walked.rooted (h : (ofParents processes).Walked stack taken)
    (hstack : ∀ s ∈ stack, Rooted processes s.depth s.node.pid) {b : Branch} (hb : b ∈ taken) :
    Rooted processes b.depth b.node.pid := by
  induction h with
  | nil => cases hb
  | @cons top rest _ _ ih =>
    rcases List.mem_cons.1 hb with rfl | hb
    · exact hstack b List.mem_cons_self
    · refine ih (fun s hs => ?_) hb
      rcases List.mem_append.1 hs with hs | hs
      · obtain ⟨n, hn, rfl⟩ := List.mem_map.1 hs
        exact .link (below_ofParents_iff.1 ⟨n, hn, rfl⟩) (hstack top List.mem_cons_self)
      · exact hstack s (List.mem_cons_of_mem _ hs)

/-- **What the walk takes, and how deep**: what leads up to a root, at as many links. -/
theorem Walked.exists_depth_iff
    (h : (ofParents processes).Walked (ofParents processes).start taken) :
    (∃ b ∈ taken, b.node.pid = p ∧ b.depth = depth) ↔ Rooted processes depth p := by
  constructor
  · rintro ⟨b, hb, rfl, rfl⟩
    refine h.rooted (fun s hs => ?_) hb
    obtain ⟨n, hn, rfl⟩ := List.mem_map.1 hs
    exact .root (exists_root_ofParents_iff.1 ⟨n, hn, rfl⟩)
  · intro hrooted
    induction hrooted with
    | root hroot =>
      obtain ⟨n, hn, rfl⟩ := exists_root_ofParents_iff.2 hroot
      exact ⟨⟨n, 0⟩, h.stack_subset (List.mem_map_of_mem hn), rfl, rfl⟩
    | link hlink _ ih =>
      obtain ⟨b, hb, rfl, rfl⟩ := ih
      obtain ⟨n, hn, rfl⟩ := below_ofParents_iff.2 hlink
      exact ⟨_, h.child_mem hb hn, rfl, rfl⟩

/-- If a process leads up to a root, then so do the ones above it: there is one way up. -/
theorem Rooted.exists_of_above (hnodup : (processes.map Prod.fst).Nodup)
    (habove : ReflTransGen (HangsBelow processes) p q) (h : Rooted processes depth q) :
    ∃ depth', Rooted processes depth' p := by
  induction habove generalizing depth with
  | refl => exact ⟨depth, h⟩
  | tail _ hlink ih =>
    cases h with
    | root hroot => exact absurd hroot (hlink.not_isRoot hnodup)
    | link hlink' h =>
      obtain rfl := hlink.unique hlink' hnodup
      exact ih h

end Parents

/-! ### Stretches -/

/-- **What hangs below a process stands in one stretch, right after it.** -/
theorem Preorder.exists_block (h : f.Preorder depth nodes order) {b : Branch} (hb : b ∈ order) :
    ∃ before below after, order = before ++ b :: (below ++ after) ∧
      f.Preorder (b.depth + 1) (f.children b.node.pid) below := by
  induction h with
  | nil => cases hb
  | @cons depth n _ below after hdown _ ihDown ihAlong =>
    rcases List.mem_cons.1 hb with rfl | hb
    · exact ⟨[], below, after, rfl, hdown⟩
    rcases List.mem_append.1 hb with hb | hb
    · obtain ⟨before, inner, between, rfl, hinner⟩ := ihDown hb
      refine ⟨⟨n, depth⟩ :: before, inner, between ++ after, ?_, hinner⟩
      simp only [List.cons_append, List.append_assoc]
    · obtain ⟨before, inner, between, rfl, hinner⟩ := ihAlong hb
      refine ⟨⟨n, depth⟩ :: (below ++ before), inner, between, ?_, hinner⟩
      simp only [List.cons_append, List.append_assoc]

/-- The nodes themselves come in the order in which they stand beside each other. -/
theorem Preorder.nodes_sublist (h : f.Preorder depth nodes order) :
    (nodes.map ForestNode.pid).Sublist (order.map fun b => b.node.pid) := by
  induction h with
  | nil => exact List.Sublist.refl _
  | cons _ _ _ ihAlong =>
    rw [List.map_cons, List.map_cons, List.map_append]
    exact (ihAlong.trans (List.sublist_append_right _ _)).cons_cons _

theorem Preorder.reached (h : f.Preorder depth nodes order) {b : Branch} (hb : b ∈ order) :
    ∃ n ∈ nodes, ReflTransGen f.Below n.pid b.node.pid := by
  induction h with
  | nil => cases hb
  | @cons _ n _ _ _ _ _ ihDown ihAlong =>
    rcases List.mem_cons.1 hb with rfl | hb
    · exact ⟨n, List.mem_cons_self, .refl⟩
    rcases List.mem_append.1 hb with hb | hb
    · obtain ⟨child, hchild, hreach⟩ := ihDown hb
      exact ⟨n, List.mem_cons_self, .head ⟨child, hchild, rfl⟩ hreach⟩
    · obtain ⟨other, hother, hreach⟩ := ihAlong hb
      exact ⟨other, List.mem_cons_of_mem _ hother, hreach⟩

/-- With a process the order has all that hangs below it. -/
theorem Preorder.mem_of_reached (h : f.Preorder depth nodes order)
    (hp : p ∈ order.map fun b => b.node.pid) (hreach : ReflTransGen f.Below p q) :
    q ∈ order.map fun b => b.node.pid := by
  induction hreach with
  | refl => exact hp
  | tail _ hlink ih =>
    obtain ⟨b, hb, rfl⟩ := List.mem_map.1 ih
    obtain ⟨n, hn, rfl⟩ := hlink
    obtain ⟨before, below, after, rfl, hbelow⟩ := h.exists_block hb
    have hn' : n.pid ∈ below.map fun b => b.node.pid :=
      hbelow.nodes_sublist.subset (List.mem_map_of_mem hn)
    rw [List.map_append, List.map_cons, List.map_append]
    exact List.mem_append_right _ (List.mem_cons_of_mem _ (List.mem_append_left _ hn'))

/-- **The numbers of an order around one of them**: those right after it are the ones that hang
below it. -/
theorem Preorder.exists_stretch (h : f.Preorder depth nodes order)
    (hp : p ∈ order.map fun b => b.node.pid) :
    ∃ before below after,
      (order.map fun b => b.node.pid) = before ++ p :: (below ++ after) ∧
        ∀ q, q ∈ below ↔ TransGen f.Below p q := by
  obtain ⟨b, hb, rfl⟩ := List.mem_map.1 hp
  obtain ⟨before, below, after, rfl, hbelow⟩ := h.exists_block hb
  refine ⟨before.map (fun b => b.node.pid), below.map (fun b => b.node.pid),
    after.map (fun b => b.node.pid), ?_, fun q => ⟨fun hq => ?_, fun hq => ?_⟩⟩
  · rw [List.map_append, List.map_cons, List.map_append]
  · obtain ⟨b', hb', rfl⟩ := List.mem_map.1 hq
    obtain ⟨n, hn, hreach⟩ := hbelow.reached hb'
    exact .head' ⟨n, hn, rfl⟩ hreach
  · obtain ⟨_, ⟨n, hn, rfl⟩, hreach⟩ := TransGen.head'_iff.1 hq
    exact hbelow.mem_of_reached (hbelow.nodes_sublist.subset (List.mem_map_of_mem hn)) hreach

/-! ### Before and after -/

/-- In an ascending list the lesser of two comes first. -/
theorem pair_sublist_of_lt {pids : List Pid} (hsorted : pids.Pairwise (· ≤ ·)) (hp : p ∈ pids)
    (hq : q ∈ pids) (hlt : p < q) : [p, q].Sublist pids := by
  obtain ⟨before, after, rfl⟩ := List.append_of_mem hp
  have hafter : q ∈ after := by
    rcases List.mem_append.1 hq with hq | hq
    · have hle : q ≤ p := (List.pairwise_append.1 hsorted).2.2 q hq p List.mem_cons_self
      exact absurd hlt (Int32.not_lt.2 hle)
    · refine (List.mem_cons.1 hq).resolve_left fun heq => ?_
      exact Int32.lt_irrefl (heq ▸ hlt)
  exact ((List.singleton_sublist.2 hafter).cons_cons p).trans (List.sublist_append_right _ _)

/-- Without repeats, what comes after an element stands behind it. -/
theorem mem_of_pair_sublist {before after : List Pid} (hnodup : (before ++ p :: after).Nodup)
    (h : [p, r].Sublist (before ++ p :: after)) : r ∈ after := by
  obtain ⟨first, second, heq, hfirst, hsecond⟩ := List.sublist_append_iff.1 h
  cases first with
  | nil =>
    rw [List.nil_append] at heq
    rw [← heq, List.cons_sublist_cons] at hsecond
    exact List.singleton_sublist.1 hsecond
  | cons first _ =>
    obtain ⟨rfl, -⟩ := List.cons.inj heq
    have hmem : p ∈ before := hfirst.subset List.mem_cons_self
    exact absurd List.mem_cons_self (List.disjoint_of_nodup_append hnodup hmem)

theorem pairwise_sorted (nodes : List ForestNode) :
    ((sorted nodes).map ForestNode.pid).Pairwise (· ≤ ·) := by
  rw [List.pairwise_map]
  refine List.Pairwise.imp of_decide_eq_true (List.pairwise_mergeSort ?_ ?_ nodes)
  · intro a b c hab hbc
    exact decide_eq_true (Int32.le_trans (of_decide_eq_true hab) (of_decide_eq_true hbc))
  · intro a b
    simpa using Int32.le_total a.pid b.pid

/-- A process comes before what hangs below it. -/
theorem Preorder.pair_of_below (h : f.Preorder depth nodes order)
    (hp : p ∈ order.map fun b => b.node.pid) (hbelow : TransGen f.Below p q) :
    [p, q].Sublist (order.map fun b => b.node.pid) := by
  obtain ⟨before, below, after, heq, hstretch⟩ := h.exists_stretch hp
  have hq : q ∈ below ++ after := List.mem_append_left _ ((hstretch q).2 hbelow)
  rw [heq]
  exact ((List.singleton_sublist.2 hq).cons_cons p).trans (List.sublist_append_right _ _)

/-- What hangs below a process comes before what does not, and comes after the process. -/
theorem Preorder.pair_of_reached (h : f.Preorder depth nodes order)
    (honce : (order.map fun b => b.node.pid).Nodup) (hreach : ReflTransGen f.Below p q)
    (hafter : [p, r].Sublist (order.map fun b => b.node.pid)) (hother : ¬ReflTransGen f.Below p r) :
    [q, r].Sublist (order.map fun b => b.node.pid) := by
  obtain ⟨before, below, after, heq, hstretch⟩ :=
    h.exists_stretch (hafter.subset List.mem_cons_self)
  rw [heq] at honce hafter ⊢
  have hq : q ∈ p :: below := by
    rcases reflTransGen_iff_eq_or_transGen.1 hreach with rfl | hbelow
    · exact List.mem_cons_self
    · exact List.mem_cons_of_mem _ ((hstretch q).2 hbelow)
  have hr : r ∈ after := by
    refine (List.mem_append.1 (mem_of_pair_sublist honce hafter)).resolve_left fun hr => ?_
    exact hother ((hstretch r).1 hr).to_reflTransGen
  have hpair : [q, r].Sublist ((p :: below) ++ after) :=
    (List.singleton_sublist.2 hq).append (List.singleton_sublist.2 hr)
  exact hpair.trans (List.sublist_append_right _ _)

/-- Of the sorted nodes that an order begins with, the lesser comes first. -/
theorem Preorder.pair_of_lt (h : f.Preorder depth (sorted nodes) order) {n m : ForestNode}
    (hn : n ∈ sorted nodes) (hm : m ∈ sorted nodes) (hlt : n.pid < m.pid) :
    [n.pid, m.pid].Sublist (order.map fun b => b.node.pid) :=
  (pair_sublist_of_lt (pairwise_sorted nodes) (List.mem_map_of_mem hn) (List.mem_map_of_mem hm)
    hlt).trans h.nodes_sublist

/-- Of two processes that hang below the same, the lesser comes first. -/
theorem Preorder.pair_of_siblings (h : f.Preorder depth nodes order)
    (hr : r ∈ order.map fun b => b.node.pid) (hp : f.Below r p) (hq : f.Below r q) (hlt : p < q) :
    [p, q].Sublist (order.map fun b => b.node.pid) := by
  obtain ⟨n, hn, rfl⟩ := hp
  obtain ⟨m, hm, rfl⟩ := hq
  obtain ⟨b, hb, rfl⟩ := List.mem_map.1 hr
  obtain ⟨before, below, after, rfl, hbelow⟩ := h.exists_block hb
  have hpair := hbelow.pair_of_lt hn hm hlt
  rw [List.map_append, List.map_cons, List.map_append]
  exact ((hpair.trans (List.sublist_append_left _ _)).cons _).trans (List.sublist_append_right _ _)

/-! ### The order of a tree -/

/-- **What the order of a tree has to be**, for processes with their parents. -/
structure TreeOrder (processes : List (Pid × Option Pid)) (order : List Pid) : Prop where
  once : order.Nodup
  mem_iff : ∀ p, p ∈ order ↔ ∃ depth, Rooted processes depth p
  /-- A process comes after those that it hangs below. -/
  above_first : ∀ p q, TransGen (HangsBelow processes) p q → q ∈ order → [p, q].Sublist order
  /-- What hangs below a process comes before any other process that comes after it. -/
  below_together : ∀ p q r, ReflTransGen (HangsBelow processes) p q → [p, r].Sublist order →
    ¬ReflTransGen (HangsBelow processes) p r → [q, r].Sublist order
  roots_ascend : ∀ p q, IsRoot processes p → IsRoot processes q → p < q → [p, q].Sublist order
  siblings_ascend : ∀ parent p q, HangsBelow processes parent p → HangsBelow processes parent q →
    parent ∈ order → p < q → [p, q].Sublist order

/-- **The walk gives the order of the tree**, if no number occurs twice. -/
theorem treeOrder_of_walked {processes : List (Pid × Option Pid)}
    (hnodup : (processes.map Prod.fst).Nodup)
    (h : (ofParents processes).Walked (ofParents processes).start taken) :
    TreeOrder processes (taken.map fun b => b.node.pid) := by
  have hpids : ((ofParents processes).nodes.map ForestNode.pid).Nodup := by
    rwa [map_pid_ofParents]
  have honce : (taken.map fun b => b.node.pid).Nodup := h.nodup (.start hpids) hpids
  have hmem : ∀ p, (p ∈ taken.map fun b => b.node.pid) ↔ ∃ depth, Rooted processes depth p := by
    intro p
    simp only [← h.exists_depth_iff, List.mem_map]
    exact ⟨fun ⟨b, hb, hp⟩ => ⟨b.depth, b, hb, hp, rfl⟩, fun ⟨_, b, hb, hp, _⟩ => ⟨b, hb, hp⟩⟩
  have hpre := h.preorder
  constructor
  case once => exact honce
  case mem_iff => exact hmem
  case above_first =>
    intro p q hbelow hq
    obtain ⟨depth, hrooted⟩ := (hmem q).1 hq
    have hp := (hmem p).2 (hrooted.exists_of_above hnodup hbelow.to_reflTransGen)
    rw [← below_ofParents] at hbelow
    exact hpre.pair_of_below hp hbelow
  case below_together =>
    intro p q r hreach hafter hother
    rw [← below_ofParents] at hreach hother
    exact hpre.pair_of_reached honce hreach hafter hother
  case roots_ascend =>
    intro p q hp hq hlt
    obtain ⟨n, hn, rfl⟩ := exists_root_ofParents_iff.2 hp
    obtain ⟨m, hm, rfl⟩ := exists_root_ofParents_iff.2 hq
    exact hpre.pair_of_lt hn hm hlt
  case siblings_ascend =>
    intro parent p q hp hq hparent hlt
    exact hpre.pair_of_siblings hparent (below_ofParents_iff.2 hp) (below_ofParents_iff.2 hq) hlt

end ProcessForest

end HostAccess
