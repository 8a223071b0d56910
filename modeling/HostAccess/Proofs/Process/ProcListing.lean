import HostAccess.Proofs.Process.ProcTree
import HostAccess.Proofs.Process.Questions
import Mathlib.Data.List.Nodup

/-!
# What a process directory tells

A listing of a process directory and the questions about its processes take different ways to
the same files. The listing goes from entry to entry and reads the number of a process off a
name, and the questions write the number out again and look for the entry of that name. The
two ways meet if a name that stands for a number is the name that the number is given
(`HostAccess.ProcTree.WellNamed`): then what is told of a process comes from its own entry,
whatever is the matter with any of the others.

The directory is only looked at, so it answers alike whenever it is asked
(`HostAccess.ArgumentSource.Steady`), and the order of the questions does not matter.

* `HostAccess.ProcessDescriptor.readAll_steady`: questions to a source that answers alike;
* `HostAccess.ProcTree.enumerate_shows`: which entries are listed, and what is told of them.
-/

namespace HostAccess

/-! ### Sources that answer alike -/

variable {W : Type}

/-- A source that answers alike about a process whenever it is asked, and leaves the world as
it finds it. -/
structure ArgumentSource.Steady (source : ArgumentSource W) (w : W)
    (answer : Pid → Except HostError ProcessArguments) : Prop where
  value : ∀ pid, ((source pid).run w).value = answer pid
  world : ∀ pid, ((source pid).run w).world = w

namespace ProcessDescriptor

section Steady

variable {source : ArgumentSource W} {w : W} {answer : Pid → Except HostError ProcessArguments}
  {ds : List ProcessDescriptor} {before : List (Reading W)}

/-- A question leaves the world of a steady source, and it hears the source's answer. -/
theorem steady_of_faithful {r : Reading W} (h : source.Steady w answer)
    (hr : r.Faithful source ds before) (hworld : r.world = w) :
    r.left = w ∧ ∀ call ∈ r.calls, call.answer = answer call.pid := by
  by_cases hquiet : r.accessor.needsArguments = true →
      Reading.Asked r.place before ∨ ds[r.place]? = none
  · obtain ⟨hcalls, -, hleft⟩ := hr.quiet hquiet
    exact ⟨hleft.trans hworld, by simp [hcalls]⟩
  · obtain ⟨hneeds, hasked, d, hd⟩ := first_of_not_quiet hquiet
    obtain ⟨hcalls, -, hleft⟩ := hr.first d hd hneeds hasked
    rw [hworld] at hcalls hleft
    exact ⟨hleft.trans (h.world d.pid), by simp [hcalls, h.value]⟩

/-- Whatever has been asked, the world is the same and all that was heard is the source's
answer. -/
theorem steady_of_split (h : source.Steady w answer)
    (hsplit : ∀ earlier r later, before = earlier ++ r :: later →
      r.world = Reading.worldAfter w earlier ∧ r.Faithful source ds earlier) :
    Reading.worldAfter w before = w ∧
      ∀ r ∈ before, ∀ call ∈ r.calls, call.answer = answer call.pid := by
  induction before using List.reverseRecOn with
  | nil => exact ⟨rfl, by simp⟩
  | append_singleton before r ih =>
    obtain ⟨hworld, hcalls⟩ := ih fun earlier r' later heq =>
      hsplit earlier r' (later ++ [r]) (by simp [heq])
    obtain ⟨hfound, hfaithful⟩ := hsplit before r [] rfl
    obtain ⟨hleft, hheard⟩ := steady_of_faithful h hfaithful (hfound.trans hworld)
    refine ⟨by simpa [Reading.worldAfter] using hleft, fun r' hr' => ?_⟩
    rcases List.mem_append.1 hr' with hold | hnew
    · exact hcalls r' hold
    · rw [List.mem_singleton.1 hnew]
      exact hheard

/-- What is known of a process that was asked about is what the source answers. -/
theorem Kept.known_eq {place : Nat} {d : ProcessDescriptor} (h : Kept ds before)
    (hheard : ∀ r ∈ before, ∀ call ∈ r.calls, call.answer = answer call.pid)
    (hd : ds[place]? = some d) (hasked : Reading.Asked place before) :
    Reading.known place before = some (SourceCall.told ⟨d.pid, answer d.pid⟩) := by
  have hcalls := h.calls place d hd
  rw [if_pos hasked] at hcalls
  obtain ⟨call, hcall, hpid⟩ := List.map_eq_singleton_iff.1 hcalls
  have hmem : call ∈ Reading.callsAbout place before := by rw [hcall]; exact List.mem_cons_self
  obtain ⟨r, hr, hmade⟩ := List.mem_flatMap.1 hmem
  have hanswer := hheard r (List.mem_filter.1 hr).1 call hmade
  rw [Reading.known, hcall, List.head?_cons, Option.map_some, ← hpid, ← hanswer]

/-- The questions to the descriptors of a fresh listing, told by their readings. -/
theorem readAll_of_fresh (source : ArgumentSource W) (questions : List (Nat × Accessor)) (w : W)
    (fresh : ∀ d ∈ ds, d.kept = none) :
    let rs := readings source questions ds w
    (readAll source questions ds).run w =
        ⟨(rs.map Reading.datum, remembering rs ds), rs.flatMap Reading.log,
          Reading.worldAfter w rs⟩ ∧
      ∀ earlier r later, rs = earlier ++ r :: later →
        r.world = Reading.worldAfter w earlier ∧ r.Faithful source ds earlier := by
  have hnil : Kept ds ([] : List (Reading W)) := .nil
  have hrun := (hnil.run_readAll source questions w).1
  have hsplit : ∀ earlier r later,
      readings source questions (remembering ([] : List (Reading W)) ds) w =
        earlier ++ r :: later →
      r.world = Reading.worldAfter w earlier ∧ r.Faithful source ds earlier :=
    fun _ _ _ heq => hnil.readings_split source questions w heq
  rw [remembering_nil fresh] at hrun hsplit
  exact ⟨hrun, hsplit⟩

/-- **Questions to a source that answers alike**, in any order: one about the arguments of a
process is answered with what the source says of it, and the world stays as it is. -/
theorem readAll_steady (h : source.Steady w answer) (fresh : ∀ d ∈ ds, d.kept = none)
    (questions : List (Nat × Accessor)) :
    let asked := (readAll source questions ds).run w
    asked.world = w ∧ ∀ earlier place accessor later,
      questions = earlier ++ (place, accessor) :: later → ∀ d, ds[place]? = some d →
        accessor.needsArguments = true → asked.value.1[earlier.length]? =
          some (some (accessor.answer d (some (SourceCall.told ⟨d.pid, answer d.pid⟩)))) := by
  intro asked
  obtain ⟨hrun, hsplit⟩ := readAll_of_fresh source questions w fresh
  rw [show asked = _ from hrun]
  refine ⟨(steady_of_split h hsplit).1, ?_⟩
  intro earlier place accessor later hquestions d hd hneeds
  -- The reading of the question, with those before and after it.
  obtain ⟨past, rest, hrs, hpast, hrest⟩ :=
    List.map_eq_append_iff.1 ((map_readings source questions ds w).trans hquestions)
  obtain ⟨r, future, rfl, hr, -⟩ := List.map_eq_cons_iff.1 hrest
  obtain ⟨rfl, rfl⟩ := Prod.mk.inj hr
  have hsofar : ∀ earlier r' later, past ++ [r] = earlier ++ r' :: later →
      r'.world = Reading.worldAfter w earlier ∧ r'.Faithful source ds earlier := by
    intro earlier r' later heq
    refine hsplit earlier r' (later ++ future) ?_
    rw [hrs, List.append_cons, heq, List.append_assoc, List.cons_append]
  have hkept : Kept ds (past ++ [r]) :=
    .of_faithful source fun earlier r' later heq => (hsofar earlier r' later heq).2
  have hknown := hkept.known_eq (steady_of_split h hsofar).2 hd
    (Reading.asked_append_singleton.2 (.inr ⟨rfl, hneeds⟩))
  have hdatum := (hsplit past r future hrs).2.datum
  rw [hd, Option.map_some, hknown] at hdatum
  rw [← hpast, List.length_map, hrs, List.map_append, List.map_cons,
    List.getElem?_append_right (by simp), List.length_map, Nat.sub_self, List.getElem?_cons_zero,
    hdatum]

end Steady

end ProcessDescriptor

/-! ### Directories -/

/-- **What the files of an entry tell** of how its process was started: nothing if the
arguments cannot be read. Without the others the environment is empty and the executable
unknown. -/
def ProcEntry.told (entry : ProcEntry) : ProcessArguments :=
  match entry.cmdline with
  | .error _ => {}
  | .ok cmdline =>
    .ofFiles (entry.exe.toOption.map Utf8.decodeLossy) cmdline (entry.environ.toOption.getD [])

theorem ProcEntry.told_arguments (entry : ProcEntry) (pid : Pid) :
    SourceCall.told ⟨pid, entry.arguments⟩ = entry.told := by
  rw [told, ProcEntry.arguments, SourceCall.told]
  cases entry.cmdline <;> rfl

namespace ProcTree

/-- The names in a directory are all different, and those that stand for a number are what the
number is written as. -/
structure WellNamed (entries : List (Bytes × ProcEntry)) : Prop where
  distinct : (entries.map Prod.fst).Nodup
  canonical : ∀ named ∈ entries, ∀ pid ∈ pidOfName? named.1, named.1 = nameOfPid pid

/-- **An entry that shows a process**: its name is a number and its file `stat` is a text. -/
def Shows (named : Bytes × ProcEntry) (pid : Pid) (stat : String) : Prop :=
  named.1 = nameOfPid pid ∧ named.2.stat = .ok (Utf8.encode stat)

/-- The descriptor that is listed for an entry. -/
structure ListedAs (log : Logger) (named : Bytes × ProcEntry) (d : ProcessDescriptor) : Prop where
  shows : ∃ stat, Shows named d.pid stat ∧ d.ppid = statParent? stat
  log : d.log = log
  fresh : d.kept = none

section Directory

variable {entries : List (Bytes × ProcEntry)} {named : Bytes × ProcEntry} {log : Logger}

theorem statText_eq_ok_iff {entry : ProcEntry} {stat : String} :
    entry.statText = .ok stat ↔ entry.stat = .ok (Utf8.encode stat) := by
  cases hstat : entry.stat with
  | error code => simp [ProcEntry.statText, hstat]
  | ok bytes =>
    rw [Except.ok.injEq, ← Utf8.decode?_eq_some]
    simp only [ProcEntry.statText, hstat]
    cases Utf8.decode? bytes <;> simp

/-- An entry has a descriptor if it shows a process. -/
theorem descriptor?_of_shows {pid : Pid} {stat : String} (h : Shows named pid stat) :
    descriptor? log named = some { pid, ppid := statParent? stat, log } := by
  rw [descriptor?, h.1, pidOfName?_nameOfPid, Option.bind_some, statText_eq_ok_iff.2 h.2]
  rfl

/-- An entry that has a descriptor shows the process of the descriptor. -/
theorem WellNamed.listedAs (h : WellNamed entries) (hmem : named ∈ entries)
    {d : ProcessDescriptor} (hd : descriptor? log named = some d) : ListedAs log named d := by
  obtain ⟨pid, hpid, hmap⟩ := Option.bind_eq_some_iff.1 hd
  obtain ⟨stat, hstat, rfl⟩ := Option.map_eq_some_iff.1 hmap
  have htext : named.2.statText = .ok stat := by
    cases hread : named.2.statText with
    | error e => simp [hread, Except.toOption] at hstat
    | ok text => simpa [hread, Except.toOption] using hstat
  exact ⟨⟨stat, ⟨h.canonical named hmem pid hpid, statText_eq_ok_iff.1 htext⟩, rfl⟩, rfl, rfl⟩

/-- The files of a process are those of the entry that shows it. -/
theorem WellNamed.load_eq (h : WellNamed entries) (hmem : named ∈ entries) {pid : Pid}
    (hname : named.1 = nameOfPid pid) : load ⟨.ok entries⟩ pid = named.2.arguments := by
  -- No other entry has the name, so a look-up finds this one.
  obtain ⟨before, after, rfl⟩ := List.append_of_mem hmem
  have hfirst : ∀ other ∈ before, nameOfPid pid != other.1 := by
    intro other hother
    have hdistinct := h.distinct
    rw [List.map_append, List.map_cons, List.nodup_middle] at hdistinct
    have hnot := (List.nodup_cons.1 hdistinct).1
    refine bne_iff_ne.2 fun heq => hnot (List.mem_append_left _ ?_)
    rw [hname, heq]
    exact List.mem_map_of_mem hother
  have hlookup : (before ++ named :: after).lookup (nameOfPid pid) = some named.2 :=
    List.lookup_eq_some_iff.2 ⟨before, after, by rw [← hname], hfirst⟩
  rw [load]
  dsimp only
  rw [hlookup, Option.getD_some]

end Directory

section Listing

variable {entries : List (Bytes × ProcEntry)} (root : String) (log : Logger)

/-- The entries that have a descriptor, with their descriptors. -/
def listed (entries : List (Bytes × ProcEntry)) :
    List ((Bytes × ProcEntry) × ProcessDescriptor) :=
  entries.filterMap fun named => (descriptor? log named).map fun d => (named, d)

theorem map_snd_listed :
    (listed log entries).map Prod.snd = ((enumerate root log).run ⟨.ok entries⟩).value := by
  rw [value_enumerate, listed, List.map_filterMap]
  congr 1
  funext named
  rw [Option.map_map]
  exact Option.map_id'

theorem map_fst_listed : (listed log entries).map Prod.fst =
    entries.filter fun named => (descriptor? log named).isSome := by
  rw [listed, List.map_filterMap, ← List.filterMap_eq_filter]
  congr 1
  funext named
  cases hd : descriptor? log named <;> simp [Option.guard, hd]

theorem WellNamed.listedAs_of_mem (h : WellNamed entries) {named : Bytes × ProcEntry}
    {d : ProcessDescriptor} (hmem : (named, d) ∈ listed log entries) :
    named ∈ entries ∧ ListedAs log named d := by
  obtain ⟨named', hnamed, hmap⟩ := List.mem_filterMap.1 hmem
  obtain ⟨d', hd, heq⟩ := Option.map_eq_some_iff.1 hmap
  obtain ⟨rfl, rfl⟩ := Prod.mk.inj heq
  exact ⟨hnamed, h.listedAs hnamed hd⟩

/-- Exactly the entries that show a process are listed. -/
theorem WellNamed.mem_listed_iff (h : WellNamed entries) {named : Bytes × ProcEntry}
    (hmem : named ∈ entries) :
    named ∈ (listed log entries).map Prod.fst ↔ ∃ pid stat, Shows named pid stat := by
  rw [map_fst_listed, List.mem_filter, and_iff_right hmem]
  constructor
  · intro hsome
    obtain ⟨d, hd⟩ := Option.isSome_iff_exists.1 hsome
    obtain ⟨stat, hshows, -⟩ := (h.listedAs hmem hd).shows
    exact ⟨d.pid, stat, hshows⟩
  · rintro ⟨pid, stat, hshows⟩
    rw [descriptor?_of_shows hshows, Option.isSome_some]

/-- No number is listed twice. -/
theorem WellNamed.nodup_pids (h : WellNamed entries) :
    ((listed log entries).map fun shown => shown.2.pid).Nodup := by
  have hnames : ((listed log entries).map fun shown => shown.1.1).Nodup := by
    have hsub : ((listed log entries).map Prod.fst).Sublist entries := by
      rw [map_fst_listed]
      exact List.filter_sublist
    have hnodup := h.distinct.sublist (hsub.map Prod.fst)
    rwa [List.map_map] at hnodup
  -- The names are those that the numbers are written as.
  refine List.Nodup.of_map nameOfPid ?_
  rw [List.map_map]
  refine (List.map_congr_left fun shown hmem => ?_) ▸ hnames
  obtain ⟨stat, ⟨hname, -⟩, -⟩ := (h.listedAs_of_mem log hmem).2.shows
  exact hname

/-- The directory answers alike about a process whenever it is asked. -/
theorem steady_source (tree : ProcTree) : source.Steady tree tree.load :=
  ⟨fun _ => rfl, fun _ => rfl⟩

/-- **What a process directory tells.** A directory that cannot be listed shows no process.
Otherwise there is a descriptor for each entry that shows a process, in the order of the
directory, and for no other; it has the number that the entry is named for and the parent that
its file tells, and no two have the same number. Questions put to these descriptors, in
whatever order, leave the directory as it is, and one about the arguments of a process is
answered with what the files of its own entry tell. -/
theorem enumerate_shows (h : WellNamed entries) :
    let listing := ((enumerate root log).run ⟨.ok entries⟩).value
    (∀ code, ((enumerate root log).run ⟨.error code⟩).value = []) ∧
    (listing.map ProcessDescriptor.pid).Nodup ∧
    ∃ shown : List ((Bytes × ProcEntry) × ProcessDescriptor),
      shown.map Prod.snd = listing ∧
      (shown.map Prod.fst).Sublist entries ∧
      (∀ named ∈ entries, named ∈ shown.map Prod.fst ↔ ∃ pid stat, Shows named pid stat) ∧
      (∀ named d, (named, d) ∈ shown → ListedAs log named d) ∧
      ∀ questions,
        let asked := (ProcessDescriptor.readAll source questions listing).run ⟨.ok entries⟩
        asked.world = ⟨.ok entries⟩ ∧
        ∀ earlier place accessor later, questions = earlier ++ (place, accessor) :: later →
          ∀ named d, shown[place]? = some (named, d) → accessor.needsArguments = true →
            asked.value.1[earlier.length]? =
              some (some (accessor.answer d (some named.2.told))) := by
  intro listing
  have hlisting : (listed log entries).map Prod.snd = listing := map_snd_listed root log
  refine ⟨fun _ => rfl, ?_, listed log entries, hlisting, ?_, fun named => h.mem_listed_iff log,
    fun named d hmem => (h.listedAs_of_mem log hmem).2, fun questions => ?_⟩
  · rw [← hlisting, List.map_map]
    exact h.nodup_pids log
  · rw [map_fst_listed]
    exact List.filter_sublist
  have fresh : ∀ d ∈ listing, d.kept = none := by
    intro d hd
    rw [← hlisting] at hd
    obtain ⟨⟨named, _⟩, hmem, rfl⟩ := List.mem_map.1 hd
    exact (h.listedAs_of_mem log hmem).2.fresh
  obtain ⟨hworld, hasked⟩ :=
    ProcessDescriptor.readAll_steady (steady_source ⟨.ok entries⟩) fresh questions
  refine ⟨hworld, fun earlier place accessor later heq named d hplace hneeds => ?_⟩
  have hd : listing[place]? = some d := by rw [← hlisting, List.getElem?_map, hplace]; rfl
  obtain ⟨hmem, hlisted⟩ := h.listedAs_of_mem log (List.mem_of_getElem? hplace)
  obtain ⟨stat, ⟨hname, -⟩, -⟩ := hlisted.shows
  rw [hasked earlier place accessor later heq d hd hneeds, h.load_eq hmem hname,
    ProcEntry.told_arguments]

/-- Two processes among other entries, of which the second keeps its arguments to itself. -/
theorem enumerate_shows_among_others :
    let entries : List (Bytes × ProcEntry) :=
      [(Utf8.encode "self", .plainFile),
        (nameOfPid 12,
          { stat := .ok (Utf8.encode "12 (a) b) S 7 12")
            cmdline := .ok (Utf8.encode "a\x00-b\x00") }),
        (nameOfPid 9, { cmdline := .ok (Utf8.encode "gone") }),
        (nameOfPid 7,
          { stat := .ok (Utf8.encode "7 (init) S 1 7")
            environ := .ok (Utf8.encode "A=1\x00") })]
    let listing := ((enumerate "proc" {}).run ⟨.ok entries⟩).value
    let questions := [(1, .environment), (0, .commandLine), (1, .arguments)]
    let asked := (ProcessDescriptor.readAll source questions listing).run ⟨.ok entries⟩
    WellNamed entries ∧ (listing.map ProcessDescriptor.pid).Nodup ∧
      listing.map ProcessDescriptor.pid = [12, 7] ∧
      listing.map ProcessDescriptor.ppid = [some 7, some 1] ∧
      asked.world = ⟨.ok entries⟩ ∧
      asked.value.1 =
        [some (.environment {}), some (.commandLine "a -b"), some (.arguments [])] := by
  intro entries listing questions asked
  have hself : pidOfName? (Utf8.encode "self") = none := by decide +kernel
  have h : WellNamed entries :=
    ⟨by decide +kernel, by simp [entries, hself, pidOfName?_nameOfPid]⟩
  obtain ⟨-, hnodup, shown, -, -, -, -, hasked⟩ := enumerate_shows "proc" {} h
  exact ⟨h, hnodup, by decide +kernel, by decide +kernel, (hasked questions).1, by decide +kernel⟩

end Listing

end ProcTree

end HostAccess
