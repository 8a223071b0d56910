import HostAccess.Process.ProcTree
import HostAccess.Process.Table
import HostAccess.Proofs.File.Routing
import HostAccess.Proofs.Log.Quieter
import HostAccess.Proofs.Process.Questions

/-!
# The level of a logger decides about lines only

Four parts of the library write lines: sized queries, listings from a process table, listings
from a process directory, and chains of file bindings. Each is run twice here, with its logger
at two levels (`HostAccess.Session.Quieter`), and what lies outside of it, a kernel, a source
of arguments or a pair of bindings, keeps a record of what it was asked. The quieter run asks
the same in the same order and yields the same, and it writes those lines of the louder run
that its level admits.

A listing is followed by questions about its processes
(`HostAccess.ProcessDescriptor.survey`), which may fetch arguments and complain of it. The
descriptors carry loggers, so those of the two runs are not the same; but they differ in the levels
only (`HostAccess.ProcessDescriptor.TwoLevels`), and no question tells the level. What stops the
program while it lists does so at either level.

* `HostAccess.SizedQuery.quieter_run`, `HostAccess.TableEnumerator.quieter_survey`,
  `HostAccess.ProcTree.quieter_survey`, `HostAccess.FileBinding.quieter_observed`: the parts;
* `HostAccess.quieter_runs`: the main result.
-/

namespace HostAccess

variable {W : Type} {quiet loud : LogLevel}

/-! ### Queries -/

/-- The same query at another level. -/
def SizedQuery.withLevel (q : SizedQuery) (level : LogLevel) : SizedQuery :=
  { q with log := q.log.withLevel level }

namespace SizedQuery

theorem quieter_attempt (hle : quiet.value ≤ loud.value) (q : SizedQuery) (kernel : Kernel W)
    (key : QueryKey) (left : Nat) :
    Session.Quieter quiet Eq ((q.withLevel quiet).attempt kernel key left)
      ((q.withLevel loud).attempt kernel key left) := by
  induction left using Nat.strongRecOn with
  | ind left ih =>
    -- What the kernel answers is the same in both runs, so they take the same branch.
    rw [attempt, attempt]
    refine .bind_eq (.consult _) fun probed => ?_
    cases probed with
    | error e => exact .pure rfl
    | ok size =>
      dsimp only [withLevel]
      by_cases hlarge : Bytes.capacity < size + q.slack
      · rw [if_pos hlarge, if_pos hlarge]
        exact .pure rfl
      · rw [if_neg hlarge, if_neg hlarge]
        refine .bind_eq (.consult _) fun fetched => ?_
        cases fetched with
        | ok fetched => exact .bind_eq (.log hle q.log _ _) fun _ => .pure rfl
        | error e =>
          cases e with
          | os code => exact .pure rfl
          | undersized =>
            cases left with
            | zero => exact .pure rfl
            | succ left =>
              exact .bind_eq (.log hle q.log _ _) fun _ => ih left (Nat.lt_succ_self left)

theorem quieter_run (hle : quiet.value ≤ loud.value) (q : SizedQuery) (kernel : Kernel W)
    (key : QueryKey) :
    Session.Quieter quiet Eq ((q.withLevel quiet).run kernel key)
      ((q.withLevel loud).run kernel key) :=
  q.quieter_attempt hle kernel key q.maxRetries

end SizedQuery

/-! ### Questions about a listing -/

/-- The same descriptor at another level. -/
def ProcessDescriptor.withLevel (d : ProcessDescriptor) (level : LogLevel) : ProcessDescriptor :=
  { d with log := d.log.withLevel level }

/-- Descriptors that differ in their levels only. -/
def ProcessDescriptor.TwoLevels (quiet loud : LogLevel) (ds ds' : List ProcessDescriptor) :
    Prop :=
  ∃ all : List ProcessDescriptor, ds = all.map (·.withLevel quiet) ∧
    ds' = all.map (·.withLevel loud)

/-- The same source, with its lines heard up to a level. -/
def ArgumentSource.upTo (source : ArgumentSource W) (level : LogLevel) : ArgumentSource W :=
  fun pid => (source pid).upTo level

namespace ProcessDescriptor

/-- The processes of a listing and their parents, and the answers to questions about them. -/
def survey (source : ArgumentSource W) (questions : List (Nat × Accessor))
    (ds : List ProcessDescriptor) :
    Session W (List (Pid × Option Pid) × List (Option Datum)) := do
  let (data, _) ← readAll source questions ds
  return (ds.map fun d => (d.pid, d.ppid), data)

variable {source source' : ArgumentSource W}

theorem quieter_demand (hle : quiet.value ≤ loud.value)
    (hsource : ∀ pid, Session.Quieter quiet Eq (source pid) (source' pid))
    (d : ProcessDescriptor) :
    Session.Quieter quiet
      (fun r r' => r.1 = r'.1 ∧ ∃ d₁, r.2 = withLevel d₁ quiet ∧ r'.2 = withLevel d₁ loud)
      ((d.withLevel quiet).demand source) ((d.withLevel loud).demand source') := by
  obtain ⟨pid, ppid, log, kept⟩ := d
  cases kept with
  | some arguments => exact .pure ⟨rfl, _, rfl, rfl⟩
  | none =>
    refine .bind_eq (hsource pid) fun loaded => ?_
    cases loaded with
    | ok arguments => exact .pure ⟨rfl, ⟨pid, ppid, log, some arguments⟩, rfl, rfl⟩
    | error e =>
      refine .bind_eq (.log hle log _ _) fun _ => ?_
      exact .pure ⟨rfl, ⟨pid, ppid, log, some {}⟩, rfl, rfl⟩

theorem quieter_read (hle : quiet.value ≤ loud.value)
    (hsource : ∀ pid, Session.Quieter quiet Eq (source pid) (source' pid)) (accessor : Accessor)
    (d : ProcessDescriptor) :
    Session.Quieter quiet
      (fun r r' => r.1 = r'.1 ∧ ∃ d₁, r.2 = withLevel d₁ quiet ∧ r'.2 = withLevel d₁ loud)
      ((d.withLevel quiet).read source accessor) ((d.withLevel loud).read source' accessor) := by
  cases accessor with
  | pid | ppid | isDecoded | description => exact .pure ⟨rfl, d, rfl, rfl⟩
  | arguments | environment | commandLine | execPath =>
    refine .bind (quieter_demand hle hsource d) ?_
    rintro ⟨arguments, _⟩ ⟨_, _⟩ ⟨rfl, d₁, rfl, rfl⟩
    exact .pure ⟨rfl, d₁, rfl, rfl⟩

theorem quieter_readAt (hle : quiet.value ≤ loud.value)
    (hsource : ∀ pid, Session.Quieter quiet Eq (source pid) (source' pid)) (place : Nat)
    (accessor : Accessor) {ds ds' : List ProcessDescriptor} (hds : TwoLevels quiet loud ds ds') :
    Session.Quieter quiet (fun r r' => r.1 = r'.1 ∧ TwoLevels quiet loud r.2 r'.2)
      (readAt source place accessor ds) (readAt source' place accessor ds') := by
  obtain ⟨all, rfl, rfl⟩ := hds
  simp only [readAt, List.getElem?_map]
  cases all[place]? with
  | none => exact .pure ⟨rfl, all, rfl, rfl⟩
  | some d =>
    refine .bind (quieter_read hle hsource accessor d) ?_
    rintro ⟨datum, _⟩ ⟨_, _⟩ ⟨rfl, d₁, rfl, rfl⟩
    exact .pure ⟨rfl, all.set place d₁, List.map_set.symm, List.map_set.symm⟩

theorem quieter_readAll (hle : quiet.value ≤ loud.value)
    (hsource : ∀ pid, Session.Quieter quiet Eq (source pid) (source' pid))
    (questions : List (Nat × Accessor)) {ds ds' : List ProcessDescriptor}
    (hds : TwoLevels quiet loud ds ds') :
    Session.Quieter quiet (fun r r' => r.1 = r'.1)
      (readAll source questions ds) (readAll source' questions ds') := by
  induction questions generalizing ds ds' with
  | nil => exact .pure rfl
  | cons question questions ih =>
    refine .bind (quieter_readAt hle hsource question.1 question.2 hds) ?_
    rintro ⟨datum, ds₁⟩ ⟨_, ds₁'⟩ ⟨rfl, hds₁⟩
    refine .bind (ih hds₁) ?_
    rintro ⟨data, _⟩ ⟨_, _⟩ rfl
    exact .pure rfl

theorem quieter_survey (hle : quiet.value ≤ loud.value)
    (hsource : ∀ pid, Session.Quieter quiet Eq (source pid) (source' pid))
    (questions : List (Nat × Accessor)) {ds ds' : List ProcessDescriptor}
    (hds : TwoLevels quiet loud ds ds') :
    Session.Quieter quiet Eq (survey source questions ds) (survey source' questions ds') := by
  refine .bind (quieter_readAll hle hsource questions hds) ?_
  rintro ⟨data, _⟩ ⟨_, _⟩ rfl
  obtain ⟨all, rfl, rfl⟩ := hds
  refine .pure ?_
  rw [List.map_map, List.map_map]
  rfl

end ProcessDescriptor

/-! ### Listings from a table -/

/-- The same enumerator at another level. -/
def TableEnumerator.withLevel (t : TableEnumerator) (level : LogLevel) : TableEnumerator :=
  { t with log := t.log.withLevel level }

namespace TableEnumerator

theorem quieter_source (hle : quiet.value ≤ loud.value) (t : TableEnumerator) (kernel : Kernel W)
    (pid : Pid) :
    Session.Quieter quiet Eq ((t.withLevel quiet).source kernel pid)
      ((t.withLevel loud).source kernel pid) := by
  refine .bind_eq (SizedQuery.quieter_run hle ⟨t.maxRetries, argumentSlack, t.log⟩ kernel _)
    fun area => ?_
  cases area <;> exact .pure rfl

/-- Listings that differ in the levels of their descriptors only, or that both stopped the program
for the same reason. -/
inductive TwoLevels (quiet loud : LogLevel) :
    Except Halt (List ProcessDescriptor) → Except Halt (List ProcessDescriptor) → Prop where
  | halted (why : Halt) : TwoLevels quiet loud (.error why) (.error why)
  | listed {ds ds' : List ProcessDescriptor} (h : ProcessDescriptor.TwoLevels quiet loud ds ds') :
      TwoLevels quiet loud (.ok ds) (.ok ds')

theorem quieter_list (hle : quiet.value ≤ loud.value) (t : TableEnumerator) (table : Bytes) :
    Session.Quieter quiet (TwoLevels quiet loud)
      ((t.withLevel quiet).list table : Session W _) ((t.withLevel loud).list table) := by
  let listed (log : Logger) (record : Pid × Pid) : ProcessDescriptor :=
    { pid := record.1, ppid := some record.2, log }
  have hlisted (records : List (Pid × Pid)) : ProcessDescriptor.TwoLevels quiet loud
      (records.map (listed (t.log.withLevel quiet)))
      (records.map (listed (t.log.withLevel loud))) := by
    refine ⟨records.map (listed t.log), ?_, ?_⟩ <;> rw [List.map_map] <;> rfl
  dsimp only [list, withLevel]
  cases t.layout.records? table with
  | none =>
    split
    · exact .bind_eq (.log hle t.log _ _) fun _ => .pure (.halted _)
    · exact .pure (.halted _)
  | some records =>
    split
    · exact .bind_eq (.log hle t.log _ _) fun _ => .pure (.listed (hlisted records))
    · exact .pure (.listed (hlisted records))

theorem quieter_snapshot (hle : quiet.value ≤ loud.value) (t : TableEnumerator)
    (kernel : Kernel W) :
    Session.Quieter quiet (TwoLevels quiet loud)
      ((t.withLevel quiet).snapshot kernel) ((t.withLevel loud).snapshot kernel) := by
  refine .bind_eq (SizedQuery.quieter_run hle ⟨t.maxRetries, 0, t.log⟩ kernel _) fun table => ?_
  cases table with
  | ok table => exact t.quieter_list hle table
  | error e =>
    dsimp only
    cases e.halt? with
    | some why => exact .pure (.halted why)
    | none => exact .bind_eq (.log hle t.log _ _) fun _ => .pure (.listed ⟨[], rfl, rfl⟩)

/-- A listing of a table and questions about its processes. -/
def survey (t : TableEnumerator) (kernel : Kernel W) (questions : List (Nat × Accessor)) :
    Session W (Except Halt (List (Pid × Option Pid) × List (Option Datum))) := do
  match ← t.snapshot kernel with
  | .error why => return .error why
  | .ok ds => return .ok (← ProcessDescriptor.survey (t.source kernel) questions ds)

theorem quieter_survey (hle : quiet.value ≤ loud.value) (t : TableEnumerator)
    (kernel : Kernel W) (questions : List (Nat × Accessor)) :
    Session.Quieter quiet Eq ((t.withLevel quiet).survey kernel questions)
      ((t.withLevel loud).survey kernel questions) := by
  refine .bind (t.quieter_snapshot hle kernel) ?_
  rintro _ _ (why | hds)
  · exact .pure rfl
  · exact .bind_eq (ProcessDescriptor.quieter_survey hle (t.quieter_source hle kernel) questions
      hds) fun _ => .pure rfl

end TableEnumerator

/-! ### Listings from a directory -/

namespace ProcTree

theorem quieter_descriptors (hle : quiet.value ≤ loud.value) (log : Logger)
    (entries : List (Bytes × ProcEntry)) :
    Session.Quieter quiet (ProcessDescriptor.TwoLevels quiet loud)
      (descriptors (log.withLevel quiet) entries) (descriptors (log.withLevel loud) entries) := by
  induction entries with
  | nil => exact .pure ⟨[], rfl, rfl⟩
  | cons named entries ih =>
    obtain ⟨name, entry⟩ := named
    rw [descriptors, descriptors]
    cases pidOfName? name with
    | none => exact ih
    | some pid =>
      cases entry.statText with
      | error e => exact .bind_eq (.log hle log _ _) fun _ => ih
      | ok stat =>
        refine .bind ih ?_
        rintro _ _ ⟨all, rfl, rfl⟩
        exact .pure ⟨{ pid, ppid := statParent? stat, log } :: all, rfl, rfl⟩

theorem quieter_enumerate (hle : quiet.value ≤ loud.value) (root : String) (log : Logger) :
    Session.Quieter quiet (ProcessDescriptor.TwoLevels quiet loud)
      (enumerate root (log.withLevel quiet)) (enumerate root (log.withLevel loud)) := by
  refine .bind_eq (.look _) fun entries => ?_
  cases entries with
  | error code => exact .bind_eq (.log hle log _ _) fun _ => .pure ⟨[], rfl, rfl⟩
  | ok entries =>
    refine .bind (quieter_descriptors hle log entries) ?_
    rintro _ _ ⟨all, rfl, rfl⟩
    rw [List.length_map, List.length_map]
    exact .bind_eq (.log hle log _ _) fun _ => .pure ⟨all, rfl, rfl⟩

/-- A listing of a directory and questions about its processes, with a source of arguments that
has a world beside the directory. -/
def survey (root : String) (log : Logger) (source : ArgumentSource W)
    (questions : List (Nat × Accessor)) :
    Session (ProcTree × W) (List (Pid × Option Pid) × List (Option Datum)) := do
  let ds ← (enumerate root log).within Prod.fst fun tree (_, w) => (tree, w)
  ProcessDescriptor.survey (fun pid => (source pid).within Prod.snd fun w (tree, _) => (tree, w))
    questions ds

theorem quieter_survey (hle : quiet.value ≤ loud.value) (root : String) (log : Logger)
    {source source' : ArgumentSource W}
    (hsource : ∀ pid, Session.Quieter quiet Eq (source pid) (source' pid))
    (questions : List (Nat × Accessor)) :
    Session.Quieter quiet Eq (survey root (log.withLevel quiet) source questions)
      (survey root (log.withLevel loud) source' questions) :=
  .bind ((quieter_enumerate hle root log).within _ _) fun _ _ hds =>
    ProcessDescriptor.quieter_survey hle (fun pid => (hsource pid).within _ _) questions hds

end ProcTree

/-- A source is asked alike in both runs. -/
theorem ArgumentSource.quieter_traced (hle : quiet.value ≤ loud.value)
    (source : ArgumentSource W) (pid : Pid) :
    Session.Quieter quiet Eq ((source.upTo quiet).traced pid) ((source.upTo loud).traced pid) := by
  have hnoted := (Session.Quieter.upTo hle (source pid)).noting (SourceCall.mk pid)
  exact hnoted

/-! ### Chains of bindings -/

/-- The same binding, with its lines heard up to a level. -/
def FileBinding.upTo (b : FileBinding W) (level : LogLevel) : FileBinding W where
  name := b.name
  chmod path mode := (b.chmod path mode).upTo level
  symlink target link := (b.symlink target link).upTo level
  readlink link := (b.readlink link).upTo level

namespace FileBinding

theorem quieter_perform (hle : quiet.value ≤ loud.value) (b : FileBinding W) (call : FileCall) :
    Session.Quieter quiet Eq ((b.upTo quiet).perform call) ((b.upTo loud).perform call) := by
  cases call with
  | chmod | symlink | readlink => exact .map (.upTo hle _) fun _ _ heq => congrArg _ heq

theorem quieter_asFirst {b b' : FileBinding W} {call : FileCall}
    (h : Session.Quieter quiet Eq (b.perform call) (b'.perform call)) :
    Session.Quieter quiet Eq (b.asFirst.perform call) (b'.asFirst.perform call) := by
  rintro ⟨w, first, second⟩
  have hrun := h w
  rw [run_perform_asFirst, run_perform_asFirst, hrun.value, hrun.world]
  exact ⟨rfl, rfl, hrun.log, hrun.silent⟩

theorem quieter_asSecond {b b' : FileBinding W} {call : FileCall}
    (h : Session.Quieter quiet Eq (b.perform call) (b'.perform call)) :
    Session.Quieter quiet Eq (b.asSecond.perform call) (b'.asSecond.perform call) := by
  rintro ⟨w, first, second⟩
  have hrun := h w
  rw [run_perform_asSecond, run_perform_asSecond, hrun.value, hrun.world]
  exact ⟨rfl, rfl, hrun.log, hrun.silent⟩

theorem quieter_route (hle : quiet.value ≤ loud.value) (log : Logger)
    (operation primary secondary : String) {α : Type} {x x' y y' : Session W (Except HostError α)}
    (hfirst : Session.Quieter quiet Eq x x') (hsecond : Session.Quieter quiet Eq y y') :
    Session.Quieter quiet Eq (route (log.withLevel quiet) operation primary secondary x y)
      (route (log.withLevel loud) operation primary secondary x' y') := by
  refine .bind_eq hfirst fun answer => ?_
  cases answer with
  | ok a => exact .pure rfl
  | error e =>
    dsimp only
    split
    · exact .bind_eq (.log hle log _ _) fun _ => hsecond
    · exact .pure rfl

theorem quieter_performAll {b b' : FileBinding W}
    (h : ∀ call, Session.Quieter quiet Eq (b.perform call) (b'.perform call))
    (calls : List FileCall) :
    Session.Quieter quiet Eq (b.performAll calls) (b'.performAll calls) := by
  induction calls with
  | nil => exact .pure rfl
  | cons call calls ih =>
    exact .bind_eq (h call) fun _ => .bind_eq ih fun _ => .pure rfl

theorem quieter_observed (hle : quiet.value ≤ loud.value) (b b' : FileBinding W) (log : Logger)
    (calls : List FileCall) :
    Session.Quieter quiet Eq
      (((b.upTo quiet).observed (b'.upTo quiet) (log.withLevel quiet)).performAll calls)
      (((b.upTo loud).observed (b'.upTo loud) (log.withLevel loud)).performAll calls) := by
  refine quieter_performAll (fun call => ?_) calls
  rw [observed, observed, perform_orElse, perform_orElse]
  exact quieter_route hle log _ _ _ (quieter_asFirst (b.quieter_perform hle call))
    (quieter_asSecond (b'.quieter_perform hle call))

end FileBinding

/-- **Logging does not interfere.** Whatever answers from outside, two runs whose loggers differ
in their levels only have the same values, put the same calls to the kernel, the source or the
bindings in the same order, and leave the same world; and the lines of the run at the lower
level are those of the other run that are of that level or below, none at the level `off`. -/
theorem quieter_runs (hle : quiet.value ≤ loud.value) :
    (∀ (q : SizedQuery) (kernel : Kernel W) (key : QueryKey),
      Session.Quieter quiet Eq ((q.withLevel quiet).run kernel.traced key)
        ((q.withLevel loud).run kernel.traced key)) ∧
    (∀ (t : TableEnumerator) (kernel : Kernel W) (questions : List (Nat × Accessor)),
      let surveyAt level := (t.withLevel level).survey kernel.traced questions
      Session.Quieter quiet Eq (surveyAt quiet) (surveyAt loud)) ∧
    (∀ (b b' : FileBinding W) (log : Logger) (calls : List FileCall),
      let performedAt level :=
        ((b.upTo level).observed (b'.upTo level) (log.withLevel level)).performAll calls
      Session.Quieter quiet Eq (performedAt quiet) (performedAt loud)) ∧
    ∀ (root : String) (log : Logger) (source : ArgumentSource W)
      (questions : List (Nat × Accessor)),
      let surveyAt level :=
        ProcTree.survey root (log.withLevel level) (source.upTo level).traced questions
      Session.Quieter quiet Eq (surveyAt quiet) (surveyAt loud) := by
  refine ⟨fun q kernel key => ?_, fun t kernel questions => ?_, fun b b' log calls => ?_,
    fun root log source questions => ?_⟩
  · exact q.quieter_run hle kernel.traced key
  · exact t.quieter_survey hle kernel.traced questions
  · exact b.quieter_observed hle b' log calls
  · exact ProcTree.quieter_survey hle root log (source.quieter_traced hle) questions

/-- A query that finds its buffer too small once: the louder run has a line about the retry and
one about the answer, and the quieter run has neither. -/
theorem quieter_runs_retry :
    let q : SizedQuery := { log := {} }
    let kernel : Kernel Nat :=
      { requiredSize := fun _ n => (.ok 2, n)
        fetch := fun _ _ n => (if n = 0 then .error .undersized else .ok ⟨2, [1, 2]⟩, n + 1) }
    let runAt level := ((q.withLevel level).run kernel.traced .allProcesses).run (0, [])
    LogLevel.debug.value ≤ LogLevel.trace.value ∧ (runAt .trace).log.length = 2 ∧
      (runAt .debug).log = [] ∧ (runAt .debug).value.toOption = some [1, 2] ∧
      (runAt .debug).world = (runAt .trace).world := by
  intro q kernel runAt
  have hle : LogLevel.debug.value ≤ LogLevel.trace.value := by decide
  obtain ⟨hquery, -⟩ := quieter_runs (W := Nat) hle
  have hrun := hquery q kernel .allProcesses (0, [])
  refine ⟨hle, by decide +kernel, hrun.log.trans (by decide +kernel), ?_, hrun.world⟩
  exact (congrArg Except.toOption hrun.value).trans (by decide +kernel)

end HostAccess
