import HostAccess.Proofs.Process.TreeOrder
import HostAccess.Proofs.Session
import HostAccess.Proofs.Text.Decimal
import Mathlib.Data.List.Permutation

/-!
# The tree and the order of the listing

A host lists processes in whatever order it finds them. The tree does not show that order: its
entries come in the order of the tree, which depends on the numbers alone, and an entry shows the
process of its number, wherever it was listed.

The two halves of this are separate. Forests with the same links between numbers are walked
alike, so the numbers and depths of their branches agree, though the places do not. And labels
are fetched by place, from listings that keep what was fetched before; but if no place is asked
twice, a label is what the first listing has at its place, and if no number occurs twice, this
is what it has for the number.

An entry is a number, an indentation and a label, and it ends with a line feed. A label is what
the process was started with, as it is: an argument with a line feed makes its entry longer than
a line, and what comes behind the line feed is not indented.

* `HostAccess.ProcessForest.links`, `HostAccess.ProcessForest.map_shape_branches`: forests with
  the same links;
* `HostAccess.Listing.entries`: a listing as a list, each process with its source;
* `HostAccess.Listing.labels_eq_mapM`: labels that are fetched from different places;
* `HostAccess.Listing.printed`, `HostAccess.Listing.count_printedTree`: what is printed of a
  process, and how many lines there are;
* `HostAccess.Listing.treeText_eq`: the tree without places;
* `HostAccess.Listing.treeText_preorder`: the main result, and
  `HostAccess.Listing.treeText_line_feed`: an entry of two lines.
-/

namespace HostAccess

namespace ProcessForest

variable {f f' : ProcessForest}

/-! ### Forests with the same links -/

/-- The numbers of the processes, and the numbers they hang below. -/
def links (f : ProcessForest) : List (Pid × Option Pid) :=
  f.nodes.map fun n => (n.pid, n.parent)

/-- What the tree shows of a branch: its number and its depth, not its place. -/
def shape (b : Branch) : Pid × Nat :=
  (b.node.pid, b.depth)

/-- Sorting forgets how the nodes stood. -/
theorem map_pid_sorted_perm {nodes nodes' : List ForestNode}
    (h : (nodes.map ForestNode.pid).Perm (nodes'.map ForestNode.pid)) :
    (sorted nodes).map ForestNode.pid = (sorted nodes').map ForestNode.pid := by
  have hperm (nodes : List ForestNode) : (sorted nodes).Perm nodes := List.mergeSort_perm _ _
  refine List.Perm.eq_of_pairwise (fun _ _ _ _ => Int32.le_antisymm) (pairwise_sorted nodes)
    (pairwise_sorted nodes') ?_
  exact ((hperm nodes).map _).trans (h.trans ((hperm nodes').map _).symm)

/-- The nodes that hang below the same, in order. -/
theorem map_pid_hanging_perm (h : f.links.Perm f'.links) (parent : Option Pid) :
    (sorted (f.nodes.filter fun n => n.parent == parent)).map ForestNode.pid =
      (sorted (f'.nodes.filter fun n => n.parent == parent)).map ForestNode.pid := by
  have hlinks (f : ProcessForest) :
      (f.nodes.filter fun n => n.parent == parent).map ForestNode.pid =
        (f.links.filter fun link => link.2 == parent).map Prod.fst := by
    rw [links, List.filter_map, List.map_map]
    rfl
  refine map_pid_sorted_perm ?_
  rw [hlinks, hlinks]
  exact (h.filter _).map _

theorem map_shape_congr {nodes nodes' : List ForestNode} {depth : Nat}
    (h : nodes.map ForestNode.pid = nodes'.map ForestNode.pid) :
    (nodes.map fun n => (⟨n, depth⟩ : Branch)).map shape =
      (nodes'.map fun n => (⟨n, depth⟩ : Branch)).map shape := by
  have hpairs (nodes : List ForestNode) : (nodes.map fun n => (⟨n, depth⟩ : Branch)).map shape =
      (nodes.map ForestNode.pid).map fun pid => (pid, depth) := by
    rw [List.map_map, List.map_map]
    rfl
  rw [hpairs, hpairs, h]

theorem map_shape_step (h : f.links.Perm f'.links) {stack stack' : List Branch}
    (hstack : stack.map shape = stack'.map shape) :
    (f.step stack).map shape = (f'.step stack').map shape := by
  cases stack with
  | nil =>
    obtain rfl := List.map_eq_nil_iff.1 hstack.symm
    rfl
  | cons b rest =>
    obtain ⟨b', rest', rfl, hb, hrest⟩ := List.map_eq_cons_iff.1 hstack.symm
    obtain ⟨hpid, hdepth⟩ := Prod.mk.inj hb
    have hchildren : (f.children b.node.pid).map ForestNode.pid =
        (f'.children b.node.pid).map ForestNode.pid := map_pid_hanging_perm h (some b.node.pid)
    rw [step, step, List.map_append, List.map_append, hrest, hpid, hdepth,
      map_shape_congr hchildren]

/-- **Forests with the same links are walked alike.** -/
theorem map_shape_walk (h : f.links.Perm f'.links) {k : Nat} {stack stack' : List Branch}
    (hstack : stack.map shape = stack'.map shape) :
    (f.walk k stack).map (List.map shape) = (f'.walk k stack').map (List.map shape) := by
  induction k generalizing stack stack' with
  | zero =>
    cases stack <;> cases stack' <;> simp_all [walk]
  | succ k ih =>
    cases stack with
    | nil =>
      obtain rfl := List.map_eq_nil_iff.1 hstack.symm
      rfl
    | cons b rest =>
      have hnext := ih (map_shape_step h hstack)
      obtain ⟨b', rest', rfl, hb, -⟩ := List.map_eq_cons_iff.1 hstack.symm
      have hcons (b : Branch) (taken : Option (List Branch)) :
          (taken.map (b :: ·)).map (List.map shape) =
            (taken.map (List.map shape)).map (shape b :: ·) := by
        rw [Option.map_map, Option.map_map]
        rfl
      rw [walk, walk, hcons, hcons, hnext, hb]

theorem map_shape_branches (h : f.links.Perm f'.links) :
    f.branches.map (List.map shape) = f'.branches.map (List.map shape) := by
  have hlength : f.nodes.length = f'.nodes.length := by
    simpa only [links, List.length_map] using h.length_eq
  rw [branches, branches, stepBound, stepBound, hlength]
  exact map_shape_walk h (map_shape_congr (map_pid_hanging_perm h none))

theorem links_ofParents (processes : List (Pid × Option Pid)) :
    (ofParents processes).links = processes.map fun (pid, told) => (pid, told.filter fun ppid =>
      ppid != pid && (processes.map Prod.fst).contains ppid) := by
  have hfst : processes.zipIdx.map Prod.fst = processes := List.zipIdx_map_fst 0 processes
  rw [links, ofParents, List.map_map]
  conv_rhs => rw [← hfst, List.map_map, hfst]
  rfl

theorem links_perm {processes processes' : List (Pid × Option Pid)}
    (h : processes.Perm processes') :
    (ofParents processes).links.Perm (ofParents processes').links := by
  rw [links_ofParents, links_ofParents]
  simp only [(h.map Prod.fst).contains_eq]
  exact h.map _

end ProcessForest

namespace Listing

variable {W : Type} {l l' : Listing W}

/-- The processes in the listing's order, each with where its arguments come from. -/
def entries (l : Listing W) : List (ProcessDescriptor × ArgumentSource W) :=
  l.processes.mapIdx fun place d => (d, l.source place)

theorem getElem?_entries {place : Nat} {d : ProcessDescriptor} (h : l.processes[place]? = some d) :
    l.entries[place]? = some (d, l.source place) := by
  rw [entries, List.getElem?_mapIdx, h, Option.map_some]

/-- **The label of a process**: its command line, fetched from where its arguments come from. One
that is empty could not be read, and there is none of what is not listed. -/
def entryLabel : Option (ProcessDescriptor × ArgumentSource W) → Session W String
  | none => pure "[unreadable]"
  | some (d, source) => do
    let (arguments, _) ← d.demand source
    return if arguments.commandLine = "" then "[unreadable]" else arguments.commandLine

theorem labelOf_eq (commandLine : String) :
    labelOf commandLine = if commandLine = "" then "[unreadable]" else commandLine := by
  simp only [labelOf, String.isEmpty_iff]

theorem label_eq (l : Listing W) (place : Nat) :
    Prod.fst <$> l.label place = entryLabel l.entries[place]? := by
  rw [entries, List.getElem?_mapIdx, label]
  cases l.processes[place]? with
  | none =>
    rw [Option.map_none, entryLabel, map_pure]
    rfl
  | some d =>
    rw [Option.map_some, entryLabel, map_bind]
    simp only [map_pure, labelOf_eq]

theorem getElem?_entries_set {place other : Nat} (d : ProcessDescriptor) (h : place ≠ other) :
    (entries { l with processes := l.processes.set place d })[other]? = l.entries[other]? := by
  rw [entries, entries, List.getElem?_mapIdx, List.getElem?_mapIdx, List.getElem?_set_ne h]

/-- **Labels from different places**: what is kept of one fetch does not show in the others. -/
theorem labels_eq_mapM (l : Listing W) {places : List Nat} (hnodup : places.Nodup) :
    l.labels places = (places.map fun place => l.entries[place]?).mapM entryLabel := by
  induction places generalizing l with
  | nil => rfl
  | cons place rest ih =>
    obtain ⟨hnew, hrest⟩ := List.nodup_cons.1 hnodup
    rw [List.map_cons, List.mapM_cons, ← label_eq, bind_map_left, labels, label]
    -- A fetch changes the listing at this place only, and the others are different ones.
    cases l.processes[place]? with
    | none => simp only [pure_bind, ih l hrest]
    | some d =>
      simp only [bind_assoc, pure_bind]
      refine congrArg _ (funext fun fetched => ?_)
      rw [ih _ hrest]
      have hsame : (rest.map fun other =>
          (entries { l with processes := l.processes.set place fetched.2 })[other]?) =
            rest.map fun other => l.entries[other]? := by
        refine List.map_congr_left fun other hother => getElem?_entries_set _ ?_
        exact fun heq => hnew (heq ▸ hother)
      rw [hsame]

theorem length_mapM_entryLabel (asked : List (Option (ProcessDescriptor × ArgumentSource W)))
    (w : W) : ((asked.mapM entryLabel).run w).value.length = asked.length := by
  induction asked generalizing w with
  | nil => rfl
  | cons entry rest ih =>
    rw [List.mapM_cons, Session.run_bind, Session.run_bind]
    exact congrArg (· + 1) (ih _)

/-! ### Processes by their numbers -/

theorem map_fst_entries (l : Listing W) : l.entries.map Prod.fst = l.processes := by
  refine List.ext_getElem? fun place => ?_
  rw [List.getElem?_map, entries, List.getElem?_mapIdx, Option.map_map]
  exact Option.map_id'

/-- The process of a number. -/
def entryOf (l : Listing W) (pid : Pid) : Option (ProcessDescriptor × ArgumentSource W) :=
  l.entries.find? fun entry => entry.1.pid == pid

theorem mem_of_entryOf {pid : Pid} {entry : ProcessDescriptor × ArgumentSource W}
    (h : l.entryOf pid = some entry) : entry ∈ l.entries ∧ entry.1.pid = pid := by
  rw [entryOf] at h
  have hpid := List.find?_some h
  exact ⟨List.mem_of_find?_eq_some h, beq_iff_eq.1 hpid⟩

theorem entryOf_eq_some_iff (hnodup : (l.processes.map ProcessDescriptor.pid).Nodup) {pid : Pid}
    {entry : ProcessDescriptor × ArgumentSource W} :
    l.entryOf pid = some entry ↔ entry ∈ l.entries ∧ entry.1.pid = pid := by
  refine ⟨mem_of_entryOf, ?_⟩
  rintro ⟨hmem, rfl⟩
  have hfound : (l.entryOf entry.1.pid).isSome :=
    List.find?_isSome.2 ⟨entry, hmem, beq_iff_eq.2 rfl⟩
  obtain ⟨first, hfirst⟩ := Option.isSome_iff_exists.1 hfound
  rw [← map_fst_entries, List.map_map] at hnodup
  obtain ⟨hfirstMem, hpid⟩ := mem_of_entryOf hfirst
  rw [hfirst, List.inj_on_of_nodup_map hnodup hfirstMem hmem hpid]

/-- Without repeated numbers a place is told by the number of its process. -/
theorem getElem?_entries_eq (hnodup : (l.processes.map ProcessDescriptor.pid).Nodup) {place : Nat}
    {d : ProcessDescriptor} (h : l.processes[place]? = some d) :
    l.entries[place]? = l.entryOf d.pid := by
  have hentry := getElem?_entries h
  rw [hentry, (entryOf_eq_some_iff hnodup).2 ⟨List.mem_of_getElem? hentry, rfl⟩]

theorem entryOf_perm (hnodup : (l.processes.map ProcessDescriptor.pid).Nodup)
    (hnodup' : (l'.processes.map ProcessDescriptor.pid).Nodup)
    (h : l'.entries.Perm l.entries) : l'.entryOf = l.entryOf := by
  refine funext fun pid => Option.ext fun entry => ?_
  rw [entryOf_eq_some_iff hnodup, entryOf_eq_some_iff hnodup', h.mem_iff]

/-! ### What is printed -/

/-- **What is printed of a process**: its number, at the right of seven columns, two blanks and two
more for each link that leads up to its root, its label, and the end of the line. -/
def printed (pid : Pid) (depth : Nat) (label : String) : String :=
  let number := toString pid.toInt
  String.ofList (List.replicate (7 - number.length) ' ') ++ number ++
    String.ofList (List.replicate (2 + 2 * depth) ' ') ++ label ++ "\n"

/-- What is printed of processes at their depths, one after the other. -/
def printedTree (shown : List (Pid × Nat)) (labels : List String) : String :=
  String.join (shown.zipWith (fun s label => printed s.1 s.2 label) labels)

theorem join_replicate_indent (depth : Nat) :
    String.join (List.replicate depth "  ") = String.ofList (List.replicate (2 * depth) ' ') := by
  induction depth with
  | zero => rfl
  | succ depth ih =>
    rw [List.replicate_succ, String.join_cons, ih, Nat.mul_succ, Nat.add_comm, List.replicate_add,
      String.ofList_append]
    rfl

theorem treeLine_append (b : Branch) (label : String) :
    treeLine b label ++ "\n" = printed b.node.pid b.depth label := by
  simp only [treeLine, column, Text.alignRight, Text.padding, printed, join_replicate_indent,
    List.replicate_add, String.ofList_append, String.append_assoc]
  rfl

open ProcessForest in
theorem lines_treeLine (branches : List Branch) (labels : List String) :
    lines (branches.zipWith treeLine labels) = printedTree (branches.map shape) labels := by
  rw [lines, printedTree, List.map_zipWith, List.zipWith_map_left]
  simp only [treeLine_append, shape]

theorem line_feed_notMem_toString (n : Int) : '\n' ∉ (toString n).toList := by
  intro h
  rcases Decimal.eq_minus_or_isDigit h with h | h
  · exact absurd h (by decide)
  · exact absurd h (by decide)

/-- An entry has the line feeds of its label, and one at its end. -/
theorem count_printed (pid : Pid) (depth : Nat) (label : String) :
    (printed pid depth label).toList.count '\n' = label.toList.count '\n' + 1 := by
  have hblanks (k : Nat) : (List.replicate k ' ').count '\n' = 0 :=
    List.count_eq_zero.2 fun h => absurd (List.eq_of_mem_replicate h) (by decide)
  have hnumber : (toString pid.toInt).toList.count '\n' = 0 :=
    List.count_eq_zero.2 (line_feed_notMem_toString pid.toInt)
  simp only [printed, String.toList_append, String.toList_ofList, List.count_append, hblanks,
    hnumber, Nat.zero_add]
  rfl

/-- **The lines of a tree**: one for each process, and one more for each line feed in a label. -/
theorem count_printedTree (shown : List (Pid × Nat)) {labels : List String}
    (h : labels.length = shown.length) :
    (printedTree shown labels).toList.count '\n' =
      shown.length + (labels.map fun label => label.toList.count '\n').sum := by
  induction shown generalizing labels with
  | nil =>
    obtain rfl := List.eq_nil_of_length_eq_zero h
    rfl
  | cons s shown ih =>
    obtain ⟨label, labels, rfl⟩ := List.exists_cons_of_length_eq_add_one h
    have hrest := ih (Nat.succ.inj h)
    rw [printedTree] at hrest ⊢
    rw [List.zipWith_cons_cons, String.join_cons, String.toList_append, List.count_append, hrest,
      count_printed, List.map_cons, List.sum_cons, List.length_cons]
    omega

/-- Each entry is one line exactly if no label has a line feed. -/
theorem count_printedTree_eq_length_iff {shown : List (Pid × Nat)} {labels : List String}
    (h : labels.length = shown.length) :
    (printedTree shown labels).toList.count '\n' = shown.length ↔
      ∀ label ∈ labels, '\n' ∉ label.toList := by
  rw [count_printedTree shown h, Nat.add_eq_left, List.sum_eq_zero_iff_forall_eq_nat,
    List.forall_mem_map]
  simp only [List.count_eq_zero]

/-! ### The tree without places -/

open ProcessForest in
/-- **The tree without places**: each entry shows what the listing has for its number. -/
theorem treeText_eq (hnodup : (l.processes.map ProcessDescriptor.pid).Nodup)
    {branches : List Branch} (hbranches : l.forest.branches = some branches)
    (hshown : (branches.map fun b => b.node.pid).Nodup)
    (hplaces : ∀ b ∈ branches, ∃ d, l.processes[b.node.place]? = some d ∧ d.pid = b.node.pid) :
    l.treeText =
      (fun labels => some (printedTree (branches.map shape) labels)) <$>
        ((branches.map shape).map fun shown => l.entryOf shown.1).mapM entryLabel := by
  have hentries : (branches.map fun b => b.node.place).map (fun place => l.entries[place]?) =
      (branches.map shape).map fun shown => l.entryOf shown.1 := by
    rw [List.map_map, List.map_map]
    refine List.map_congr_left fun b hb => ?_
    obtain ⟨d, hd, hpid⟩ := hplaces b hb
    exact (getElem?_entries_eq hnodup hd).trans (congrArg l.entryOf hpid)
  rw [treeText, hbranches]
  simp only [labels_eq_mapM l (nodup_places hshown hplaces), hentries, lines_treeLine]
  exact bind_pure_comp _ _

/-- Without repeated numbers the tree is walked to its end, and each branch is the process of its
number. -/
theorem exists_branches (l : Listing W) (hnodup : (l.processes.map ProcessDescriptor.pid).Nodup) :
    ∃ branches, l.forest.branches = some branches ∧ l.forest.Walked l.forest.start branches ∧
      ProcessForest.TreeOrder l.parents (branches.map fun b => b.node.pid) ∧
      ∀ b ∈ branches, ∃ d, l.processes[b.node.place]? = some d ∧ d.pid = b.node.pid := by
  have hparents : (l.parents.map Prod.fst).Nodup := by
    rw [parents, List.map_map]
    exact hnodup
  obtain ⟨branches, hbranches, -, hnodes, -⟩ :=
    ProcessForest.branches_ofParents l.parents hparents
  have hwalked := ProcessForest.walked_of_walk hbranches
  exact ⟨branches, hbranches, hwalked, ProcessForest.treeOrder_of_walked hparents hwalked,
    fun b hb => getElem?_place (hnodes b hb)⟩

/-- **The tree does not show in which order the processes were listed.** -/
theorem treeText_perm (hnodup : (l.processes.map ProcessDescriptor.pid).Nodup)
    (h : l'.entries.Perm l.entries) : l'.treeText = l.treeText := by
  have hprocesses : l'.processes.Perm l.processes := by
    rw [← map_fst_entries l', ← map_fst_entries l]
    exact h.map _
  have hnodup' := (hprocesses.map ProcessDescriptor.pid).nodup_iff.2 hnodup
  obtain ⟨branches, hbranches, -, horder, hplaces⟩ := l.exists_branches hnodup
  obtain ⟨branches', hbranches', -, horder', hplaces'⟩ := l'.exists_branches hnodup'
  have hshapes : branches'.map ProcessForest.shape = branches.map ProcessForest.shape := by
    have hlinks : l'.forest.links.Perm l.forest.links :=
      ProcessForest.links_perm (hprocesses.map _)
    have halike := ProcessForest.map_shape_branches hlinks
    rw [hbranches, hbranches', Option.map_some, Option.map_some] at halike
    exact Option.some.inj halike
  rw [treeText_eq hnodup hbranches horder.once hplaces,
    treeText_eq hnodup' hbranches' horder'.once hplaces', entryOf_perm hnodup hnodup' h, hshapes]

open ProcessForest in
/-- **The tree of a listing is the preorder of its forest**, if no number occurs twice. The walk is
over after no more steps than there are processes. It takes each process from which the links
lead up to a root, at the depth that is the number of those links, and no other; and it takes
them in the order of the tree. The text has the entry of each in this order, with a label fetched
for this process. It has a line for each exactly if no label has a line feed. And it is the same in
whatever order the processes are listed. -/
theorem treeText_preorder (l : Listing W)
    (hnodup : (l.processes.map ProcessDescriptor.pid).Nodup) :
    (∃ branches : List Branch,
      let shown := branches.map fun b => (b.node.pid, b.depth)
      let labels := (shown.map fun s => l.entryOf s.1).mapM entryLabel
      shown.length ≤ l.processes.length ∧
        l.forest.step^[shown.length] l.forest.start = [] ∧
        l.forest.Preorder 0 l.forest.roots branches ∧
        (∀ p depth, (p, depth) ∈ shown ↔ Rooted l.parents depth p) ∧
        TreeOrder l.parents (shown.map Prod.fst) ∧
        (∀ s ∈ shown, ∃ entry ∈ l.entries, entry.1.pid = s.1 ∧ l.entryOf s.1 = some entry) ∧
        l.treeText = (fun labels => some (printedTree shown labels)) <$> labels ∧
        ∀ w, (labels.run w).value.length = shown.length ∧
          ((printedTree shown (labels.run w).value).toList.count '\n' = shown.length ↔
            ∀ label ∈ (labels.run w).value, '\n' ∉ label.toList)) ∧
      ∀ l' : Listing W, l'.entries.Perm l.entries → l'.treeText = l.treeText := by
  obtain ⟨branches, hbranches, hwalked, horder, hplaces⟩ := l.exists_branches hnodup
  have hmem (p : Pid) (depth : Nat) : (p, depth) ∈ branches.map shape ↔
      ∃ b ∈ branches, b.node.pid = p ∧ b.depth = depth := by
    simp only [List.mem_map, shape, Prod.mk.injEq]
  have hfst : (branches.map shape).map Prod.fst = branches.map fun b => b.node.pid :=
    List.map_map
  refine ⟨⟨branches, ?_, ?_, hwalked.preorder, fun p depth => ?_, ?_, ?_,
    treeText_eq hnodup hbranches horder.once hplaces, fun w => ?_⟩,
    fun l' h => treeText_perm hnodup h⟩
  · have hlisted : (branches.map fun b => b.node.pid) ⊆ l.processes.map ProcessDescriptor.pid := by
      intro pid hpid
      obtain ⟨b, hb, rfl⟩ := List.mem_map.1 hpid
      obtain ⟨d, hd, hsame⟩ := hplaces b hb
      exact hsame ▸ List.mem_map_of_mem (List.mem_of_getElem? hd)
    have hle := (horder.once.subperm hlisted).length_le
    rw [List.length_map, List.length_map] at hle
    rwa [List.length_map]
  · rw [List.length_map]
    exact hwalked.iterate_step
  · exact (hmem p depth).trans hwalked.exists_depth_iff
  · exact hfst ▸ horder
  · intro s hs
    obtain ⟨b, hb, rfl⟩ := List.mem_map.1 hs
    obtain ⟨d, hd, hpid⟩ := hplaces b hb
    have hentry := List.mem_of_getElem? (getElem?_entries hd)
    exact ⟨_, hentry, hpid, (entryOf_eq_some_iff hnodup).2 ⟨hentry, hpid⟩⟩
  · have hlength := length_mapM_entryLabel ((branches.map shape).map fun s => l.entryOf s.1) w
    rw [List.length_map] at hlength
    exact ⟨hlength, count_printedTree_eq_length_iff hlength⟩

/-- Two roots, of which one is its own parent, processes below the other that are listed in no
order, and a loop. One was started with a text of two lines, and of one nothing can be read. From
the last to the first they give the same text. -/
theorem treeText_preorder_out_of_order :
    let told : List (Pid × Option Pid) :=
      [(7, some 1), (3, some 7), (5, some 5), (1, none), (4, some 6), (6, some 4), (2, some 1)]
    let started (pid : Pid) : ProcessArguments :=
      { arguments := if pid = 5 then [] else if pid = 2 then ["a\nb", "c"] else ["p", "q"] }
    let l : Listing Unit :=
      ⟨told.map fun (pid, ppid) => { pid, ppid, log := {} }, fun _ pid => pure (.ok (started pid))⟩
    let reversed : Listing Unit := { l with processes := l.processes.reverse }
    (l.processes.map ProcessDescriptor.pid).Nodup ∧
      (l.treeText.run ()).value = some ("      1  p q\n" ++ "      2    a\nb c\n" ++
        "      7    p q\n" ++ "      3      p q\n" ++ "      5  [unreadable]\n") ∧
      reversed.treeText = l.treeText := by
  intro told started l reversed
  have hnodup : (l.processes.map ProcessDescriptor.pid).Nodup := by decide
  obtain ⟨⟨branches, -, -, hpre, -, -, -, htext, -⟩, hsame⟩ := treeText_preorder l hnodup
  have hroots : l.forest.roots = [⟨3, 1, none⟩, ⟨2, 5, none⟩] := by cbv
  have hone : l.forest.children 1 = [⟨6, 2, some 1⟩, ⟨0, 7, some 1⟩] := by cbv
  have hseven : l.forest.children 7 = [⟨1, 3, some 7⟩] := by cbv
  have hleaf : l.forest.children 2 = [] ∧ l.forest.children 3 = [] ∧ l.forest.children 5 = [] := by
    decide +kernel
  have hreverse : reversed.entries = l.entries.reverse := rfl
  refine ⟨hnodup, ?_, hsame _ (hreverse ▸ List.reverse_perm _)⟩
  obtain rfl : branches = [⟨⟨3, 1, none⟩, 0⟩, ⟨⟨6, 2, some 1⟩, 1⟩, ⟨⟨0, 7, some 1⟩, 1⟩,
      ⟨⟨1, 3, some 7⟩, 2⟩, ⟨⟨2, 5, none⟩, 0⟩] := by
    simpa [hroots, hone, hseven, hleaf, ProcessForest.preorder_cons_iff,
      ProcessForest.preorder_nil_iff] using hpre
  rw [htext]
  decide +kernel

/-- A process that was started with a text of two lines: the tree shows one process in two
lines. -/
theorem treeText_line_feed :
    let l : Listing Unit :=
      ⟨[{ pid := 1, ppid := none, log := {} }], fun _ _ => pure (.ok { arguments := ["a\nb"] })⟩
    let text := "      1  a\nb\n"
    (l.processes.map ProcessDescriptor.pid).Nodup ∧ ProcessForest.Rooted l.parents 0 1 ∧
      (l.treeText.run ()).value = some text ∧ l.processes.length = 1 ∧
      text.toList.count '\n' = 2 := by
  refine ⟨by decide, .root ⟨none, by decide, by simp⟩, by decide +kernel, rfl, by decide⟩

end Listing

end HostAccess
