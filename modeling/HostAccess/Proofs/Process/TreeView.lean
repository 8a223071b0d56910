import HostAccess.Process.Listing
import HostAccess.Proofs.Process.Forest
import Mathlib.Data.Set.Finite.Basic
import Mathlib.Order.WellFounded

/-!
# Which processes the tree shows

A listing is shown flat, with a line for each process, or as a tree. The tree has a line for
each branch that the walk of the forest takes, and a walk takes what it finds below the roots.
If no number occurs twice, no process is taken twice. But a process need not hang below a root:
a listing is not taken at one instant, and when a number is used again the parents of some
processes may form a loop. The flat view shows them, and the tree does not.

Going up from a process one comes to a root or into a loop, and never to both. So what the tree
leaves out is what hangs below a loop.

* `HostAccess.ProcessForest.Walked`: what a walk takes, with
  `HostAccess.ProcessForest.Walked.mem_iff` and `HostAccess.ProcessForest.Walked.nodup`;
* `HostAccess.ProcessForest.exists_root_or_loop`: the way up;
* `HostAccess.Listing.treeText_shows`: the main result;
* `HostAccess.Listing.treeText_loop`: processes that the tree leaves out.
-/

namespace HostAccess

namespace ProcessForest

open Relation

variable {f : ProcessForest} {stack taken : List Branch}

/-! ### What a walk takes -/

/-- **The branches that a walk takes** from a stack until it is empty. -/
inductive Walked (f : ProcessForest) : List Branch → List Branch → Prop where
  | nil : Walked f [] []
  | cons {b : Branch} {rest taken : List Branch}
      (walked : Walked f ((f.children b.node.pid).map (fun n => ⟨n, b.depth + 1⟩) ++ rest) taken) :
      Walked f (b :: rest) (b :: taken)

theorem walked_of_walk {k : Nat} (h : f.walk k stack = some taken) : f.Walked stack taken := by
  fun_induction f.walk k stack generalizing taken with
  | case1 =>
    obtain rfl : [] = taken := Option.some.inj h
    exact .nil
  | case2 => cases h
  | case3 k b rest ih =>
    obtain ⟨more, hmore, rfl⟩ := Option.map_eq_some_iff.1 h
    exact .cons (ih hmore)

theorem Walked.stack_subset (h : f.Walked stack taken) : stack ⊆ taken := by
  induction h with
  | nil => exact List.Subset.refl _
  | cons _ ih =>
    exact List.cons_subset_cons _ (List.Subset.trans (List.subset_append_right _ _) ih)

/-- With a branch the walk takes its children. -/
theorem Walked.child_mem (h : f.Walked stack taken) {b : Branch} (hb : b ∈ taken)
    {n : ForestNode} (hn : n ∈ f.children b.node.pid) : ⟨n, b.depth + 1⟩ ∈ taken := by
  induction h with
  | nil => cases hb
  | cons walked ih =>
    rcases List.mem_cons.1 hb with rfl | hb
    · refine List.mem_cons_of_mem _ (walked.stack_subset ?_)
      exact List.mem_append_left _ (List.mem_map_of_mem hn)
    · exact List.mem_cons_of_mem _ (ih hb)

/-- What the walk takes hangs below the stack. -/
theorem Walked.reached (h : f.Walked stack taken) {b : Branch} (hb : b ∈ taken) :
    ∃ s ∈ stack, ReflTransGen f.Below s.node.pid b.node.pid := by
  induction h with
  | nil => cases hb
  | @cons top rest more _ ih =>
    rcases List.mem_cons.1 hb with rfl | hb
    · exact ⟨b, List.mem_cons_self, .refl⟩
    · obtain ⟨s, hs, hreach⟩ := ih hb
      rcases List.mem_append.1 hs with hs | hs
      · obtain ⟨n, hn, rfl⟩ := List.mem_map.1 hs
        exact ⟨top, List.mem_cons_self, .head ⟨n, hn, rfl⟩ hreach⟩
      · exact ⟨s, List.mem_cons_of_mem _ hs, hreach⟩

/-- **A walk takes the numbers that are reached from its stack**, and no others. -/
theorem Walked.mem_iff (h : f.Walked stack taken) {p : Pid} :
    (∃ b ∈ taken, b.node.pid = p) ↔ ∃ s ∈ stack, ReflTransGen f.Below s.node.pid p := by
  constructor
  · rintro ⟨b, hb, rfl⟩
    exact h.reached hb
  · rintro ⟨s, hs, hreach⟩
    induction hreach with
    | refl => exact ⟨s, h.stack_subset hs, rfl⟩
    | tail _ hlink ih =>
      obtain ⟨b, hb, rfl⟩ := ih
      obtain ⟨n, hn, rfl⟩ := hlink
      exact ⟨_, h.child_mem hb hn, rfl⟩

theorem Walked.node_mem (h : f.Walked stack taken) (hstack : ∀ s ∈ stack, s.node ∈ f.nodes)
    {b : Branch} (hb : b ∈ taken) : b.node ∈ f.nodes := by
  induction h with
  | nil => cases hb
  | cons _ ih =>
    rcases List.mem_cons.1 hb with rfl | hb
    · exact hstack _ List.mem_cons_self
    · refine ih (fun s hs => ?_) hb
      rcases List.mem_append.1 hs with hs | hs
      · obtain ⟨n, hn, rfl⟩ := List.mem_map.1 hs
        exact (mem_children.1 hn).1
      · exact hstack s (List.mem_cons_of_mem _ hs)

/-! ### Nothing is taken twice -/

/-- Between two steps of a walk no number occurs twice among what was taken and what is on the
stack, and whatever hangs below a number got there when that number was taken. -/
structure Once (f : ProcessForest) (taken stack : List Branch) : Prop where
  nodup : ((taken ++ stack).map fun b => b.node.pid).Nodup
  listed : ∀ b ∈ taken ++ stack, b.node ∈ f.nodes
  hangs : ∀ b ∈ taken ++ stack, ∀ p, b.node.parent = some p → ∃ t ∈ taken, t.node.pid = p

theorem nodup_sorted_filter (hnodup : (f.nodes.map ForestNode.pid).Nodup)
    (keep : ForestNode → Bool) : ((sorted (f.nodes.filter keep)).map ForestNode.pid).Nodup := by
  have hperm : (sorted (f.nodes.filter keep)).Perm (f.nodes.filter keep) := List.mergeSort_perm _ _
  exact (hperm.map _).nodup_iff.2 (hnodup.sublist (List.filter_sublist.map _))

/-- A child of what is on top of the stack was not met before. -/
theorem Once.child_pid_ne {b : Branch} {rest : List Branch} (h : f.Once taken (b :: rest))
    (hnodup : (f.nodes.map ForestNode.pid).Nodup) {met : Branch}
    (hmet : met ∈ taken ++ b :: rest) {n : ForestNode} (hn : n ∈ f.children b.node.pid) :
    met.node.pid ≠ n.pid := by
  intro hpid
  -- It would be the child itself, so its parent, the top, would have been taken before.
  obtain ⟨hlisted, hparent⟩ := mem_children.1 hn
  have hsame : met.node = n := List.inj_on_of_nodup_map hnodup (h.listed met hmet) hlisted hpid
  obtain ⟨t, ht, htop⟩ := h.hangs met hmet b.node.pid (hsame ▸ hparent)
  have hdistinct := h.nodup
  rw [List.map_append, List.map_cons] at hdistinct
  exact List.disjoint_of_nodup_append hdistinct (List.mem_map_of_mem ht)
    (htop ▸ List.mem_cons_self)

/-- **A step takes nothing twice.** -/
theorem Once.step {b : Branch} {rest : List Branch} (h : f.Once taken (b :: rest))
    (hnodup : (f.nodes.map ForestNode.pid).Nodup) :
    f.Once (taken ++ [b])
      ((f.children b.node.pid).map (fun n => ⟨n, b.depth + 1⟩) ++ rest) := by
  -- The top moves over to what was taken, so only the children are new.
  let kids : List Branch := (f.children b.node.pid).map fun n => ⟨n, b.depth + 1⟩
  have hperm : ((taken ++ [b]) ++ (kids ++ rest)).Perm ((taken ++ b :: rest) ++ kids) := by
    rw [List.append_assoc, List.append_assoc, List.singleton_append, List.cons_append]
    exact (List.perm_append_comm.cons b).append_left taken
  refine ⟨?_, fun met hmet => ?_, fun met hmet p hp => ?_⟩
  · rw [(hperm.map _).nodup_iff, List.map_append, List.nodup_append]
    refine ⟨h.nodup, ?_, ?_⟩
    · rw [List.map_map]
      exact nodup_sorted_filter hnodup _
    · intro q hq q' hq'
      obtain ⟨met, hmet, rfl⟩ := List.mem_map.1 hq
      obtain ⟨kid, hkid, rfl⟩ := List.mem_map.1 hq'
      obtain ⟨n, hn, rfl⟩ := List.mem_map.1 hkid
      exact h.child_pid_ne hnodup hmet hn
  · rcases List.mem_append.1 (hperm.mem_iff.1 hmet) with hmet | hkid
    · exact h.listed met hmet
    · obtain ⟨n, hn, rfl⟩ := List.mem_map.1 hkid
      exact (mem_children.1 hn).1
  · rcases List.mem_append.1 (hperm.mem_iff.1 hmet) with hmet | hkid
    · obtain ⟨t, ht, hpid⟩ := h.hangs met hmet p hp
      exact ⟨t, List.mem_append_left _ ht, hpid⟩
    · obtain ⟨n, hn, rfl⟩ := List.mem_map.1 hkid
      have htop : b.node.pid = p := Option.some.inj ((mem_children.1 hn).2.symm.trans hp)
      exact ⟨b, List.mem_append_right _ List.mem_cons_self, htop⟩

theorem Once.start (hnodup : (f.nodes.map ForestNode.pid).Nodup) : f.Once [] f.start := by
  refine ⟨?_, fun b hb => ?_, fun b hb p hp => ?_⟩
  · rw [List.nil_append, ProcessForest.start, List.map_map]
    exact nodup_sorted_filter hnodup _
  · obtain ⟨root, hroot, rfl⟩ := List.mem_map.1 hb
    exact (mem_roots.1 hroot).1
  · obtain ⟨root, hroot, rfl⟩ := List.mem_map.1 hb
    exact absurd ((mem_roots.1 hroot).2.symm.trans hp) (Option.some_ne_none p).symm

/-- **A walk takes nothing twice.** -/
theorem Walked.nodup {more : List Branch} (h : f.Walked stack more) (honce : f.Once taken stack)
    (hnodup : (f.nodes.map ForestNode.pid).Nodup) :
    ((taken ++ more).map fun b => b.node.pid).Nodup := by
  induction h generalizing taken with
  | nil => exact honce.nodup
  | cons _ ih =>
    have hmore := ih (honce.step hnodup)
    rwa [List.append_assoc, List.singleton_append] at hmore

/-! ### The way up -/

section Parents

variable {processes : List (Pid × Option Pid)} {p q : Pid}

/-- A number that is reached from a loop of parents. -/
def BelowLoop (processes : List (Pid × Option Pid)) (p : Pid) : Prop :=
  ∃ q, TransGen (HangsBelow processes) q q ∧ ReflTransGen (HangsBelow processes) q p

/-- A listed process is a root or hangs below another. -/
theorem isRoot_or_hangsBelow (h : p ∈ processes.map Prod.fst) :
    IsRoot processes p ∨ ∃ q, HangsBelow processes q p := by
  obtain ⟨⟨pid, told⟩, hmem, hpid⟩ := List.mem_map.1 h
  obtain rfl : pid = p := hpid
  cases told with
  | none => exact .inl ⟨none, hmem, fun q hq => absurd hq (Option.some_ne_none q).symm⟩
  | some q =>
    by_cases hgood : q ≠ pid ∧ q ∈ processes.map Prod.fst
    · exact .inr ⟨q, hmem, hgood⟩
    · refine .inl ⟨some q, hmem, fun q' hq' => ?_⟩
      obtain rfl := Option.some.inj hq'
      tauto

/-- **Going up from a process one comes to a root or into a loop.** -/
theorem exists_root_or_loop (h : p ∈ processes.map Prod.fst) :
    (∃ root, IsRoot processes root ∧ ReflTransGen (HangsBelow processes) root p) ∨
      BelowLoop processes p := by
  by_cases hloop : BelowLoop processes p
  · exact .inr hloop
  -- Without a loop above it, the numbers above a process have a topmost one.
  let Above := { q // q ∈ processes.map Prod.fst ∧ ReflTransGen (HangsBelow processes) q p }
  let higher (a b : Above) : Prop := TransGen (HangsBelow processes) a.1 b.1
  have hfinite : Finite Above :=
    (List.finite_toSet (processes.map Prod.fst)).subset fun _ hq => hq.1
  have htrans : IsTrans Above higher := ⟨fun _ _ _ => TransGen.trans⟩
  have hirrefl : Std.Irrefl higher := ⟨fun a hround => hloop ⟨a.1, hround, a.2.2⟩⟩
  have hwf := Finite.wellFounded_of_trans_of_irrefl higher
  obtain ⟨top, -, htop⟩ := hwf.has_min Set.univ ⟨⟨p, h, .refl⟩, trivial⟩
  rcases isRoot_or_hangsBelow top.2.1 with hroot | ⟨q, hlink⟩
  · exact .inl ⟨top.1, hroot, top.2.2⟩
  · exact absurd (.single hlink) (htop ⟨q, hlink.2.2, .head hlink top.2.2⟩ trivial)

/-- **Not to both**, if no number occurs twice: there is one way up. -/
theorem not_belowLoop_of_root (hnodup : (processes.map Prod.fst).Nodup) {root : Pid}
    (hroot : IsRoot processes root) (hreach : ReflTransGen (HangsBelow processes) root p) :
    ¬BelowLoop processes p := by
  rintro ⟨q, hloop, hq⟩
  -- Of two numbers above a process one is above the other.
  have hunique : Relator.RightUnique (Function.swap (HangsBelow processes)) :=
    fun _ _ _ h h' => h.unique h' hnodup
  have hcomparable := ReflTransGen.total_of_right_unique hunique
    (reflTransGen_swap.2 hreach) (reflTransGen_swap.2 hq)
  rcases hcomparable with hup | hdown
  · obtain ⟨last, -, hlink⟩ := TransGen.tail'_iff.1 (hloop.trans_left (reflTransGen_swap.1 hup))
    exact hlink.not_isRoot hnodup hroot
  · exact loopFree_ofParents_iff.1 (loopFree_of_nodup hnodup) root q hroot
      (reflTransGen_swap.1 hdown) hloop

/-- **A process is reached from a root exactly if it hangs below no loop**, if no number occurs
twice. -/
theorem reached_iff_not_belowLoop (hnodup : (processes.map Prod.fst).Nodup)
    (h : p ∈ processes.map Prod.fst) :
    (∃ root, IsRoot processes root ∧ ReflTransGen (HangsBelow processes) root p) ↔
      ¬BelowLoop processes p := by
  constructor
  · rintro ⟨root, hroot, hreach⟩
    exact not_belowLoop_of_root hnodup hroot hreach
  · exact (exists_root_or_loop h).resolve_right

/-- Some process hangs below a loop exactly if there is a loop. -/
theorem exists_belowLoop_iff : (∃ p ∈ processes.map Prod.fst, BelowLoop processes p) ↔
    ∃ q, TransGen (HangsBelow processes) q q := by
  constructor
  · rintro ⟨p, -, q, hloop, -⟩
    exact ⟨q, hloop⟩
  · rintro ⟨q, hloop⟩
    obtain ⟨next, hlink, -⟩ := TransGen.head'_iff.1 hloop
    exact ⟨q, hlink.2.2, q, hloop, .refl⟩

end Parents

/-! ### The tree of a listing -/

section Tree

variable (processes : List (Pid × Option Pid))

theorem map_pid_ofParents :
    (ofParents processes).nodes.map ForestNode.pid = processes.map Prod.fst := by
  have hfst : processes.zipIdx.map Prod.fst = processes := List.zipIdx_map_fst 0 processes
  rw [ofParents, List.map_map]
  conv_rhs => rw [← hfst, List.map_map]
  rfl

/-- What hangs below the stack that the walk begins with is what is reached from a root. -/
theorem reached_start_iff {p : Pid} :
    (∃ s ∈ (ofParents processes).start,
        ReflTransGen (ofParents processes).Below s.node.pid p) ↔
      ∃ root, IsRoot processes root ∧ ReflTransGen (HangsBelow processes) root p := by
  rw [below_ofParents]
  constructor
  · rintro ⟨s, hs, hreach⟩
    obtain ⟨root, hroot, rfl⟩ := List.mem_map.1 hs
    exact ⟨root.pid, exists_root_ofParents_iff.1 ⟨root, hroot, rfl⟩, hreach⟩
  · rintro ⟨root, hroot, hreach⟩
    obtain ⟨n, hn, rfl⟩ := exists_root_ofParents_iff.2 hroot
    exact ⟨⟨n, 0⟩, List.mem_map_of_mem hn, hreach⟩

/-- **What the tree takes of a listing** in which no number occurs twice: no process twice, and
those that hang below no loop. -/
theorem branches_ofParents (hnodup : (processes.map Prod.fst).Nodup) :
    ∃ branches, (ofParents processes).branches = some branches ∧
      (branches.map fun b => b.node.pid).Nodup ∧
      (∀ b ∈ branches, b.node ∈ (ofParents processes).nodes) ∧
      ∀ p ∈ processes.map Prod.fst,
        (∃ b ∈ branches, b.node.pid = p) ↔ ¬BelowLoop processes p := by
  have hends := (ends_iff_loopFree (ofParents processes)).2.2 (loopFree_of_nodup hnodup)
  obtain ⟨branches, hbranches⟩ := Option.isSome_iff_exists.1 hends
  have hwalked := walked_of_walk hbranches
  have hpids : ((ofParents processes).nodes.map ForestNode.pid).Nodup := by
    rwa [map_pid_ofParents]
  refine ⟨branches, hbranches, hwalked.nodup (.start hpids) hpids, fun b hb => ?_, fun p hp => ?_⟩
  · refine hwalked.node_mem (fun s hs => ?_) hb
    obtain ⟨root, hroot, rfl⟩ := List.mem_map.1 hs
    exact (mem_roots.1 hroot).1
  · rw [hwalked.mem_iff, reached_start_iff, reached_iff_not_belowLoop hnodup hp]

end Tree

end ProcessForest

namespace Listing

variable {W : Type}

theorem length_labels (l : Listing W) (places : List Nat) (w : W) :
    ((l.labels places).run w).value.length = places.length := by
  induction places generalizing l w with
  | nil => rfl
  | cons place rest ih =>
    rw [labels, Session.run_bind, Session.run_bind]
    exact congrArg (· + 1) (ih _ _)

/-- The numbers of the processes and of their parents, as they were listed. -/
def parents (l : Listing W) : List (Pid × Option Pid) :=
  l.processes.map fun d => (d.pid, d.ppid)

/-- A branch of the tree is about the process at its place. -/
theorem getElem?_place {l : Listing W} {b : Branch} (h : b.node ∈ l.forest.nodes) :
    ∃ d, l.processes[b.node.place]? = some d ∧ d.pid = b.node.pid := by
  obtain ⟨told, hget, -⟩ := ProcessForest.mem_nodes_ofParents.1 h
  rw [List.getElem?_map] at hget
  obtain ⟨d, hd, heq⟩ := Option.map_eq_some_iff.1 hget
  exact ⟨d, hd, (Prod.mk.inj heq).1⟩

/-- Without repeated numbers a process is at one place. -/
theorem place_eq {l : Listing W} (hnodup : (l.processes.map ProcessDescriptor.pid).Nodup)
    {place place' : Nat} {d d' : ProcessDescriptor} (h : l.processes[place]? = some d)
    (h' : l.processes[place']? = some d') (hpid : d.pid = d'.pid) : place = place' := by
  have hlt : place < (l.processes.map ProcessDescriptor.pid).length := by
    rw [List.length_map]
    exact (List.getElem?_eq_some_iff.1 h).1
  refine (List.getElem?_inj hlt hnodup).1 ?_
  rw [List.getElem?_map, List.getElem?_map, h, h', Option.map_some, Option.map_some, hpid]

section Places

variable {l : Listing W} {branches : List Branch}

theorem nodup_places (hpids : (branches.map fun b => b.node.pid).Nodup)
    (hplaces : ∀ b ∈ branches, ∃ d, l.processes[b.node.place]? = some d ∧ d.pid = b.node.pid) :
    (branches.map fun b => b.node.place).Nodup := by
  refine (List.Nodup.of_map _ hpids).map_on fun b hb b' hb' heq => ?_
  obtain ⟨d, hd, hpid⟩ := hplaces b hb
  obtain ⟨d', hd', hpid'⟩ := hplaces b' hb'
  refine List.inj_on_of_nodup_map hpids hb hb' ?_
  rw [heq, hd'] at hd
  rw [← hpid, ← hpid', Option.some.inj hd]

theorem mem_places_iff (hnodup : (l.processes.map ProcessDescriptor.pid).Nodup)
    (hplaces : ∀ b ∈ branches, ∃ d, l.processes[b.node.place]? = some d ∧ d.pid = b.node.pid)
    {place : Nat} {d : ProcessDescriptor} (hd : l.processes[place]? = some d) :
    place ∈ branches.map (fun b => b.node.place) ↔ ∃ b ∈ branches, b.node.pid = d.pid := by
  rw [List.mem_map]
  refine exists_congr fun b => and_congr_right fun hb => ?_
  obtain ⟨d', hd', hpid⟩ := hplaces b hb
  constructor
  · rintro rfl
    rw [← hpid, Option.some.inj (hd.symm.trans hd')]
  · exact fun heq => place_eq hnodup hd' hd (hpid.trans heq)

theorem treeText_of_branches (h : l.forest.branches = some branches) (w : W) :
    (l.treeText.run w).value = some (lines (branches.zipWith treeLine
      ((l.labels (branches.map fun b => b.node.place)).run w).value)) := by
  rw [treeText, h]
  rfl

/-- All places are shown exactly if no process is lost. -/
theorem perm_range_iff {places : List Nat} {Lost : Pid → Prop} (hplaces : places.Nodup)
    (hlisted : ∀ place ∈ places, place < l.processes.length)
    (hshown : ∀ place d, l.processes[place]? = some d → (place ∈ places ↔ ¬Lost d.pid)) :
    places.Perm (List.range l.processes.length) ↔
      ¬∃ p ∈ l.processes.map ProcessDescriptor.pid, Lost p := by
  rw [List.perm_ext_iff_of_nodup hplaces List.nodup_range]
  constructor
  · rintro h ⟨p, hp, hlost⟩
    obtain ⟨d, hd, rfl⟩ := List.mem_map.1 hp
    obtain ⟨place, hplace⟩ := List.mem_iff_getElem?.1 hd
    have hlt : place < l.processes.length := (List.getElem?_eq_some_iff.1 hplace).1
    exact (hshown place d hplace).1 ((h place).2 (List.mem_range.2 hlt)) hlost
  · intro h place
    rw [List.mem_range]
    refine ⟨hlisted place, fun hlt => ?_⟩
    refine (hshown place _ (List.getElem?_eq_getElem hlt)).2 fun hlost => h ⟨_, ?_, hlost⟩
    exact List.mem_map_of_mem (List.getElem_mem hlt)

end Places

open Relation ProcessForest in
/-- **What the tree shows** of a listing in which no number occurs twice, whatever the parents
are. The flat view has a heading and a line for each process. The tree has a line for each of
some processes, none of which has two. Those that have none are the processes below a loop of
parents: so the tree shows what the flat view shows exactly if there is no such loop. -/
theorem treeText_shows (l : Listing W) (w : W)
    (hnodup : (l.processes.map ProcessDescriptor.pid).Nodup) :
    let labelled places := ((l.labels places).run w).value
    let all := List.range l.processes.length
    (l.flatText.run w).value = lines
        (row "PID" "PPID" "COMMAND" :: l.processes.zipWith flatLine (labelled all)) ∧
      (labelled all).length = l.processes.length ∧
      ∃ branches : List Branch,
        let shown := branches.map fun b => b.node.place
        l.forest.branches = some branches ∧
          (l.treeText.run w).value = some (lines (branches.zipWith treeLine (labelled shown))) ∧
          (labelled shown).length = branches.length ∧
          (∀ b ∈ branches, ∃ d, l.processes[b.node.place]? = some d ∧ d.pid = b.node.pid) ∧
          shown.Nodup ∧
          (∀ place d, l.processes[place]? = some d →
            (place ∈ shown ↔ ¬BelowLoop l.parents d.pid)) ∧
          (shown.Perm all ↔ ¬∃ q, TransGen (HangsBelow l.parents) q q) := by
  intro labelled all
  have hparents : l.parents.map Prod.fst = l.processes.map ProcessDescriptor.pid := by
    rw [parents, List.map_map]
    rfl
  obtain ⟨branches, hbranches, hpids, hnodes, hreached⟩ :=
    branches_ofParents l.parents (hparents ▸ hnodup)
  have hplaces : ∀ b ∈ branches, ∃ d, l.processes[b.node.place]? = some d ∧ d.pid = b.node.pid :=
    fun b hb => getElem?_place (hnodes b hb)
  have hshown := nodup_places hpids hplaces
  have hlost : ∀ place d, l.processes[place]? = some d →
      (place ∈ branches.map (fun b => b.node.place) ↔ ¬BelowLoop l.parents d.pid) := by
    intro place d hd
    have hlisted : d.pid ∈ l.parents.map Prod.fst := by
      rw [hparents]
      exact List.mem_map_of_mem (List.mem_of_getElem? hd)
    rw [mem_places_iff hnodup hplaces hd, hreached d.pid hlisted]
  refine ⟨rfl, ?_, branches, hbranches, treeText_of_branches hbranches w, ?_, hplaces, hshown,
    hlost, ?_⟩
  · rw [length_labels, List.length_range]
  · rw [length_labels, List.length_map]
  · rw [← exists_belowLoop_iff, hparents]
    refine perm_range_iff hshown (fun place hplace => ?_) hlost
    obtain ⟨b, hb, rfl⟩ := List.mem_map.1 hplace
    obtain ⟨d, hd, -⟩ := hplaces b hb
    exact (List.getElem?_eq_some_iff.1 hd).1

/-- A root with a process below it, beside a loop with a process below it. -/
theorem treeText_shows_beside_loop :
    let told : List (Pid × Option Pid) :=
      [(1, none), (2, some 1), (3, some 4), (4, some 3), (5, some 4)]
    let l : Listing Unit :=
      ⟨told.map fun (pid, ppid) => { pid, ppid, log := {} }, fun _ => .empty⟩
    (l.processes.map ProcessDescriptor.pid).Nodup ∧
      (l.treeText.run ()).value = some ("      1  [unreadable]\n" ++ "      2    [unreadable]\n") ∧
      ∃ branches : List Branch, l.forest.branches = some branches ∧
        ¬(branches.map fun b => b.node.place).Perm (List.range 5) := by
  intro told l
  have hnodup : (l.processes.map ProcessDescriptor.pid).Nodup := by decide
  obtain ⟨-, -, branches, hbranches, -, -, -, -, -, hperm⟩ := treeText_shows l () hnodup
  refine ⟨hnodup, by decide +kernel, branches, hbranches, fun hall => ?_⟩
  have hdown : ProcessForest.HangsBelow l.parents 3 4 := ⟨by decide, by decide, by decide⟩
  have hback : ProcessForest.HangsBelow l.parents 4 3 := ⟨by decide, by decide, by decide⟩
  exact hperm.1 hall ⟨3, .head hdown (.single hback)⟩

/-- Two processes of which each is the parent of the other: the flat view has a line for each,
and the tree has none. -/
theorem treeText_loop :
    let l : Listing Unit :=
      ⟨[{ pid := 1, ppid := some 2, log := {} }, { pid := 2, ppid := some 1, log := {} }],
        fun _ => .empty⟩
    (l.processes.map ProcessDescriptor.pid).Nodup ∧
      (l.flatText.run ()).value = "    PID    PPID  COMMAND\n" ++
        "      1       2  [unreadable]\n" ++ "      2       1  [unreadable]\n" ∧
      (l.treeText.run ()).value = some "" := by
  refine ⟨by decide, by decide +kernel, by decide +kernel⟩

end Listing

end HostAccess
