import HostAccess.Process.Descriptor
import Mathlib.Data.List.Induction

/-!
# A descriptor asks its source once

A source may answer differently each time it is asked, or fail. Whoever puts questions to
the descriptors of a listing sees nothing of that: the first question about the arguments of
a process asks the source, and all others are answered from what it said then.

The questions are put one after the other, about any processes and in any order, and the
*readings* (`HostAccess.ProcessDescriptor.readings`) record what each of them did: its
answer, the calls of the source it made, its lines, and the world it found. The calls made
on account of one process are the whole memory of its descriptor
(`HostAccess.ProcessDescriptor.remembering`), so what a question does can be said from the
readings before it (`HostAccess.Reading.Faithful`), without the descriptors.

* `HostAccess.ProcessDescriptor.run_read_first`, `HostAccess.ProcessDescriptor.run_read_quiet`:
  what one question does, in the two cases there are;
* `HostAccess.ProcessDescriptor.Kept.faithful`, `HostAccess.ProcessDescriptor.Kept.run_readAt`:
  the descriptors remember the readings, question by question;
* `HostAccess.ProcessDescriptor.Kept.readings_split`,
  `HostAccess.ProcessDescriptor.Kept.run_readAll`: what follows for a run;
* `HostAccess.ProcessDescriptor.readings_faithful`: the main result, for all questions.
-/

namespace HostAccess

variable {W : Type}

/-! ### Sources that keep a record -/

/-- A call of a source, and what it answered. -/
structure SourceCall where
  pid : Pid
  answer : Except HostError ProcessArguments

/-- What a descriptor makes of an answer: a failure tells nothing. -/
def SourceCall.told (call : SourceCall) : ProcessArguments :=
  match call.answer with
  | .ok arguments => arguments
  | .error _ => {}

/-- The same source, with the calls made of it kept beside its world, in order. -/
def ArgumentSource.traced (source : ArgumentSource W) : ArgumentSource (W × List SourceCall) :=
  fun pid (w, calls) =>
    let r := (source pid).run w
    ⟨r.value, r.log, r.world, calls ++ [⟨pid, r.value⟩]⟩

theorem ArgumentSource.run_traced (source : ArgumentSource W) (pid : Pid) (w : W)
    (calls : List SourceCall) :
    (source.traced pid).run (w, calls) =
      ⟨((source pid).run w).value, ((source pid).run w).log, ((source pid).run w).world,
        calls ++ [⟨pid, ((source pid).run w).value⟩]⟩ := rfl

/-! ### Questions -/

/-- Whether a question is about the arguments. -/
def Accessor.needsArguments : Accessor → Bool
  | .arguments | .environment | .commandLine | .execPath => true
  | .pid | .ppid | .isDecoded | .description => false

/-- **The answer to a question** about a process of which some arguments are known. -/
def Accessor.answer (d : ProcessDescriptor) (known : Option ProcessArguments) : Accessor → Datum
  | .pid => .pid d.pid
  | .ppid => .ppid d.ppid
  | .arguments => .arguments (known.getD {}).arguments
  | .environment => .environment (known.getD {}).environment
  | .commandLine => .commandLine (known.getD {}).commandLine
  | .execPath => .execPath (known.getD {}).execPath
  | .isDecoded => .isDecoded known.isSome
  | .description => .description { d with kept := known }.describe

/-- The lines about an answer of the source: there is one about a failure. -/
def ProcessDescriptor.complaint (d : ProcessDescriptor) :
    Except HostError ProcessArguments → List LogRecord
  | .ok _ => []
  | .error e => d.log.records .debug s!"pid {d.pid.toInt}: arguments unavailable: {e.message}"

/-- What one question did. -/
structure Reading (W : Type) where
  /-- The process it was about, by its place in the listing. -/
  place : Nat
  accessor : Accessor
  /-- The world it found. -/
  world : W
  datum : Option Datum
  /-- The calls of the source that it made. -/
  calls : List SourceCall
  log : List LogRecord
  /-- The world it left. -/
  left : W

namespace Reading

/-- The arguments of a process were asked for. -/
def Asked (place : Nat) (readings : List (Reading W)) : Prop :=
  ∃ r ∈ readings, r.place = place ∧ r.accessor.needsArguments = true

instance (place : Nat) (readings : List (Reading W)) : Decidable (Asked place readings) :=
  inferInstanceAs (Decidable (∃ r ∈ readings, r.place = place ∧ r.accessor.needsArguments = true))

/-- The calls made on account of a process. -/
def callsAbout (place : Nat) (readings : List (Reading W)) : List SourceCall :=
  (readings.filter fun r => r.place == place).flatMap Reading.calls

/-- What is known of the arguments of a process: what the first of these calls told. -/
def known (place : Nat) (readings : List (Reading W)) : Option ProcessArguments :=
  (callsAbout place readings).head?.map SourceCall.told

/-- **What a question does**, after those before it: it asks the source only if it is the
first about the arguments of its process, and it is answered by what is known then. -/
structure Faithful (source : ArgumentSource W) (ds : List ProcessDescriptor)
    (before : List (Reading W)) (r : Reading W) : Prop where
  /-- The answer rests on the process as it was listed and on what is known of it. -/
  datum : r.datum = (ds[r.place]?).map fun d =>
    r.accessor.answer d (known r.place (before ++ [r]))
  /-- The first question about the arguments of a process asks for them, and a failure is
  written down. -/
  first : ∀ d, ds[r.place]? = some d → r.accessor.needsArguments = true →
    ¬Asked r.place before →
      let loaded := (source d.pid).run r.world
      r.calls = [⟨d.pid, loaded.value⟩] ∧ r.log = loaded.log ++ d.complaint loaded.value ∧
        r.left = loaded.world
  /-- No other question asks for anything, writes anything or changes the world. -/
  quiet : (r.accessor.needsArguments = true → Asked r.place before ∨ ds[r.place]? = none) →
    r.calls = [] ∧ r.log = [] ∧ r.left = r.world

/-- The world that questions leave. -/
def worldAfter (w : W) (readings : List (Reading W)) : W :=
  readings.foldl (fun _ r => r.left) w

variable {place : Nat} {before : List (Reading W)} {r : Reading W}

theorem not_asked_nil : ¬Asked place ([] : List (Reading W)) := by
  rintro ⟨r, hr, -⟩
  exact List.not_mem_nil hr

theorem asked_append_singleton :
    Asked place (before ++ [r]) ↔
      Asked place before ∨ (r.place = place ∧ r.accessor.needsArguments = true) := by
  simp only [Asked, List.mem_append, List.mem_singleton, or_and_right, exists_or,
    exists_eq_left]

theorem callsAbout_append_singleton :
    callsAbout place (before ++ [r]) =
      callsAbout place before ++ if r.place = place then r.calls else [] := by
  by_cases h : r.place = place <;>
    simp [callsAbout, List.filter_append, h]

/-- A question that asks for nothing adds nothing to what is known. -/
theorem known_append_of_quiet (h : r.calls = []) :
    known place (before ++ [r]) = known place before := by
  rw [known, callsAbout_append_singleton, h, ite_self, List.append_nil, known]

/-- What is known after the first call. -/
theorem known_append_of_first {call : SourceCall} (hcalls : r.calls = [call])
    (hbefore : callsAbout r.place before = []) :
    known r.place (before ++ [r]) = some call.told := by
  rw [known, callsAbout_append_singleton, hbefore, if_pos rfl, hcalls]
  rfl

/-- A question is no news about any other process. -/
theorem known_append_of_ne (h : r.place ≠ place) :
    known place (before ++ [r]) = known place before := by
  rw [known, callsAbout_append_singleton, if_neg h, List.append_nil, known]

end Reading

namespace ProcessDescriptor

/-- Puts questions, one after the other. -/
def readAll (source : ArgumentSource W) :
    List (Nat × Accessor) → List ProcessDescriptor →
      Session W (List (Option Datum) × List ProcessDescriptor)
  | [], ds => pure ([], ds)
  | (place, accessor) :: questions, ds => do
    let (datum, ds') ← readAt source place accessor ds
    let (data, ds'') ← readAll source questions ds'
    return (datum :: data, ds'')

/-- What a question does in a world. -/
def reading (source : ArgumentSource W) (ds : List ProcessDescriptor) (w : W)
    (question : Nat × Accessor) : Reading W :=
  let r := (readAt source.traced question.1 question.2 ds).run (w, [])
  { place := question.1, accessor := question.2, world := w, datum := r.value.1,
    calls := r.world.2, log := r.log, left := r.world.1 }

/-- What questions do, one after the other. -/
def readings (source : ArgumentSource W) :
    List (Nat × Accessor) → List ProcessDescriptor → W → List (Reading W)
  | [], _, _ => []
  | question :: questions, ds, w =>
    let r := (readAt source question.1 question.2 ds).run w
    reading source ds w question :: readings source questions r.value.2 r.world

/-! ### One question -/

section Read

variable {source : ArgumentSource W} {accessor : Accessor} {d : ProcessDescriptor} {w : W}

theorem run_demand_kept {arguments : ProcessArguments} (h : d.kept = some arguments) :
    (d.demand source).run w = ⟨(arguments, d), [], w⟩ := by
  simp only [demand, h, Session.run_pure]

theorem run_demand_first (h : d.kept = none) :
    let loaded := (source d.pid).run w
    let told := SourceCall.told ⟨d.pid, loaded.value⟩
    (d.demand source).run w =
      ⟨(told, { d with kept := some told }), loaded.log ++ d.complaint loaded.value,
        loaded.world⟩ := by
  intro loaded told
  simp only [demand, h, Session.run_bind]
  cases hvalue : ((source d.pid).run w).value with
  | ok arguments =>
    simp only [told, loaded, hvalue, SourceCall.told, complaint, Session.run_pure]
  | error e =>
    simp only [told, loaded, hvalue, SourceCall.told, complaint, Session.run_log_bind,
      Session.run_pure, List.append_nil]

/-- A question about the arguments demands them. -/
theorem run_read_demand (h : accessor.needsArguments = true) :
    let demanded := (d.demand source).run w
    (d.read source accessor).run w =
      ⟨(accessor.answer d (some demanded.value.1), demanded.value.2), demanded.log,
        demanded.world⟩ := by
  intro demanded
  cases accessor with
  | arguments | environment | commandLine | execPath =>
    simp only [read, Session.run_bind, Session.run_pure, List.append_nil]
    rfl
  | pid | ppid | isDecoded | description => exact absurd h Bool.false_ne_true

/-- A question that needs no arguments, or finds them, is answered from the descriptor. -/
theorem run_read_quiet (h : accessor.needsArguments = true → d.kept.isSome = true) :
    (d.read source accessor).run w = ⟨(accessor.answer d d.kept, d), [], w⟩ := by
  cases hneeds : accessor.needsArguments with
  | true =>
    obtain ⟨arguments, hkept⟩ := Option.isSome_iff_exists.1 (h hneeds)
    rw [run_read_demand hneeds, run_demand_kept hkept, hkept]
  | false =>
    cases accessor with
    | pid | ppid | isDecoded | description => rfl
    | arguments | environment | commandLine | execPath =>
      exact absurd hneeds.symm Bool.false_ne_true

/-- A question about arguments that are not kept is answered by the source. -/
theorem run_read_first (h : accessor.needsArguments = true) (hkept : d.kept = none) :
    let loaded := (source d.pid).run w
    let told := some (SourceCall.told ⟨d.pid, loaded.value⟩)
    (d.read source accessor).run w =
      ⟨(accessor.answer d told, { d with kept := told }),
        loaded.log ++ d.complaint loaded.value, loaded.world⟩ := by
  intro loaded told
  rw [run_read_demand h, run_demand_first hkept]

end Read

section ReadAt

variable {source : ArgumentSource W} {place : Nat} {accessor : Accessor}
  {ds : List ProcessDescriptor} {d : ProcessDescriptor} {w : W}

theorem run_readAt_none (h : ds[place]? = none) :
    (readAt source place accessor ds).run w = ⟨(none, ds), [], w⟩ := by
  simp only [readAt, h, Session.run_pure]

theorem run_readAt_some (h : ds[place]? = some d) :
    let r := (d.read source accessor).run w
    (readAt source place accessor ds).run w =
      ⟨(some r.value.1, ds.set place r.value.2), r.log, r.world⟩ := by
  simp only [readAt, h, Session.run_bind, Session.run_pure, List.append_nil]

end ReadAt

/-! ### What the descriptors remember -/

/-- The descriptors of a listing after some questions. -/
def remembering (before : List (Reading W)) (ds : List ProcessDescriptor) :
    List ProcessDescriptor :=
  ds.mapIdx fun place d => { d with kept := Reading.known place before }

/-- The calls made so far are those that the descriptors remember: one for each process whose
arguments were asked for. -/
structure Kept (ds : List ProcessDescriptor) (before : List (Reading W)) : Prop where
  calls : ∀ place d, ds[place]? = some d →
    (Reading.callsAbout place before).map SourceCall.pid =
      if Reading.Asked place before then [d.pid] else []

section Remembering

variable {ds : List ProcessDescriptor} {before : List (Reading W)} {r : Reading W}
  {place : Nat} {d : ProcessDescriptor}

theorem getElem?_remembering :
    (remembering before ds)[place]? =
      (ds[place]?).map fun d => { d with kept := Reading.known place before } := by
  rw [remembering, List.getElem?_mapIdx]

theorem remembering_nil (fresh : ∀ d ∈ ds, d.kept = none) :
    remembering ([] : List (Reading W)) ds = ds := by
  refine List.ext_getElem? fun place => ?_
  rw [getElem?_remembering]
  cases hd : ds[place]? with
  | none => rfl
  | some d =>
    obtain ⟨pid, ppid, log, kept⟩ := d
    obtain rfl : kept = none := fresh _ (List.mem_of_getElem? hd)
    rfl

theorem remembering_append_of_quiet (h : r.calls = []) :
    remembering (before ++ [r]) ds = remembering before ds := by
  simp only [remembering, Reading.known_append_of_quiet h]

/-- After the first call the descriptor of its process has another memory. -/
theorem remembering_append_of_first (hd : ds[r.place]? = some d) :
    remembering (before ++ [r]) ds =
      (remembering before ds).set r.place
        { d with kept := Reading.known r.place (before ++ [r]) } := by
  refine List.ext_getElem? fun place => ?_
  rw [List.getElem?_set', getElem?_remembering, getElem?_remembering]
  by_cases h : r.place = place
  · rw [if_pos h, ← h, hd]
    rfl
  · rw [if_neg h, Reading.known_append_of_ne h]

theorem Kept.nil : Kept ds ([] : List (Reading W)) :=
  ⟨fun _ _ _ => (if_neg Reading.not_asked_nil).symm⟩

theorem Kept.callsAbout_eq_nil (h : Kept ds before) (hd : ds[place]? = some d)
    (hasked : ¬Reading.Asked place before) : Reading.callsAbout place before = [] := by
  have hcalls := h.calls place d hd
  rw [if_neg hasked] at hcalls
  exact List.map_eq_nil_iff.1 hcalls

/-- Something is known of a process exactly if its arguments were asked for. -/
theorem Kept.isSome_known (h : Kept ds before) (hd : ds[place]? = some d) :
    (Reading.known place before).isSome = decide (Reading.Asked place before) := by
  by_cases hasked : Reading.Asked place before
  · have hcalls := h.calls place d hd
    rw [if_pos hasked] at hcalls
    obtain ⟨call, hcall, -⟩ := List.map_eq_singleton_iff.1 hcalls
    rw [Reading.known, hcall, decide_eq_true hasked]
    rfl
  · rw [Reading.known, h.callsAbout_eq_nil hd hasked, decide_eq_false hasked]
    rfl

/-- What is kept has no part in an answer, apart from what is known. -/
theorem answer_kept (accessor : Accessor) (d : ProcessDescriptor)
    (kept known : Option ProcessArguments) :
    accessor.answer { d with kept } known = accessor.answer d known := by
  cases accessor <;> rfl

end Remembering

/-! ### Question by question -/

section Step

variable {source : ArgumentSource W} {ds : List ProcessDescriptor} {before : List (Reading W)}
  {place : Nat} {accessor : Accessor} {d : ProcessDescriptor} {w : W}

/-- A question that is not the first about the arguments of its process. -/
theorem Kept.run_readAt_quiet (h : Kept ds before)
    (hquiet : accessor.needsArguments = true →
      Reading.Asked place before ∨ ds[place]? = none) {V : Type} (source : ArgumentSource V)
    (w : V) :
    (readAt source place accessor (remembering before ds)).run w =
      ⟨((ds[place]?).map fun d => accessor.answer d (Reading.known place before),
        remembering before ds), [], w⟩ := by
  cases hd : ds[place]? with
  | none =>
    refine run_readAt_none ?_
    rw [getElem?_remembering, hd, Option.map_none]
  | some d =>
    have hplace : (remembering before ds)[place]? =
        some { d with kept := Reading.known place before } := by
      rw [getElem?_remembering, hd, Option.map_some]
    have hkept : accessor.needsArguments = true → (Reading.known place before).isSome = true := by
      intro hneeds
      rw [h.isSome_known hd, decide_eq_true_iff]
      exact (hquiet hneeds).resolve_right (by simp [hd])
    have hset : (remembering before ds).set place
        { d with kept := Reading.known place before } = remembering before ds := by
      obtain ⟨hlt, hget⟩ := List.getElem?_eq_some_iff.1 hplace
      rw [← hget, List.set_getElem_self]
    rw [run_readAt_some hplace, run_read_quiet hkept, answer_kept, Option.map_some]
    simp only [hset]

/-- The first question about the arguments of a process. -/
theorem Kept.run_readAt_first (h : Kept ds before) (hd : ds[place]? = some d)
    (hneeds : accessor.needsArguments = true) (hasked : ¬Reading.Asked place before)
    {V : Type} (source : ArgumentSource V) (w : V) :
    (readAt source place accessor (remembering before ds)).run w =
      let loaded := (source d.pid).run w
      let told := some (SourceCall.told ⟨d.pid, loaded.value⟩)
      ⟨(some (accessor.answer d told),
        (remembering before ds).set place { d with kept := told }),
        loaded.log ++ d.complaint loaded.value, loaded.world⟩ := by
  have hkept : Reading.known place before = none := by
    rw [Reading.known, h.callsAbout_eq_nil hd hasked, List.head?_nil, Option.map_none]
  have hplace : (remembering before ds)[place]? = some { d with kept := none } := by
    rw [getElem?_remembering, hd, Option.map_some, hkept]
  rw [run_readAt_some hplace, run_read_first hneeds rfl, answer_kept]
  rfl

/-- The invariant only needs that a question asks for the arguments when it should. -/
theorem Kept.append {r : Reading W} (h : Kept ds before) (hr : r.Faithful source ds before) :
    Kept ds (before ++ [r]) := by
  refine ⟨fun place d hd => ?_⟩
  rw [Reading.callsAbout_append_singleton, List.map_append, h.calls place d hd]
  by_cases hplace : r.place = place
  · subst hplace
    -- Only a first question makes a call, and only it changes what was asked for.
    by_cases hfirst : r.accessor.needsArguments = true ∧ ¬Reading.Asked r.place before
    · obtain ⟨hneeds, hasked⟩ := hfirst
      obtain ⟨hcalls, -, -⟩ := hr.first d hd hneeds hasked
      rw [if_neg hasked, if_pos rfl, hcalls,
        if_pos (Reading.asked_append_singleton.2 (.inr ⟨rfl, hneeds⟩))]
      rfl
    · have hold : r.accessor.needsArguments = true → Reading.Asked r.place before := by tauto
      obtain ⟨hcalls, -, -⟩ := hr.quiet fun hneeds => .inl (hold hneeds)
      have hiff : Reading.Asked r.place (before ++ [r]) ↔ Reading.Asked r.place before := by
        rw [Reading.asked_append_singleton]
        tauto
      rw [if_pos rfl, hcalls, List.map_nil, List.append_nil]
      simp only [hiff]
  · have hiff : Reading.Asked place (before ++ [r]) ↔ Reading.Asked place before := by
      rw [Reading.asked_append_singleton]
      tauto
    rw [if_neg hplace, List.map_nil, List.append_nil]
    simp only [hiff]

theorem Kept.reading_quiet (h : Kept ds before)
    (hquiet : accessor.needsArguments = true →
      Reading.Asked place before ∨ ds[place]? = none) (source : ArgumentSource W) (w : W) :
    reading source (remembering before ds) w (place, accessor) =
      ⟨place, accessor, w,
        (ds[place]?).map fun d => accessor.answer d (Reading.known place before), [], [], w⟩ := by
  simp only [reading, h.run_readAt_quiet hquiet]

theorem Kept.reading_first (h : Kept ds before) (hd : ds[place]? = some d)
    (hneeds : accessor.needsArguments = true) (hasked : ¬Reading.Asked place before)
    (source : ArgumentSource W) (w : W) :
    reading source (remembering before ds) w (place, accessor) =
      let loaded := (source d.pid).run w
      let call : SourceCall := ⟨d.pid, loaded.value⟩
      ⟨place, accessor, w, some (accessor.answer d (some call.told)), [call],
        loaded.log ++ d.complaint loaded.value, loaded.world⟩ := by
  simp only [reading, h.run_readAt_first hd hneeds hasked, ArgumentSource.run_traced,
    List.nil_append]

/-- There are no other questions. -/
theorem first_of_not_quiet
    (h : ¬(accessor.needsArguments = true → Reading.Asked place before ∨ ds[place]? = none)) :
    accessor.needsArguments = true ∧ ¬Reading.Asked place before ∧ ∃ d, ds[place]? = some d := by
  obtain ⟨hneeds, hnew⟩ := Classical.not_imp.1 h
  obtain ⟨hasked, hlisted⟩ := not_or.1 hnew
  exact ⟨hneeds, hasked, Option.ne_none_iff_exists'.1 hlisted⟩

/-- **A step.** The descriptors remember the readings before a question, so the question does
what it should. -/
theorem Kept.faithful (h : Kept ds before) (source : ArgumentSource W)
    (question : Nat × Accessor) (w : W) :
    (reading source (remembering before ds) w question).Faithful source ds before := by
  obtain ⟨place, accessor⟩ := question
  by_cases hquiet : accessor.needsArguments = true →
      Reading.Asked place before ∨ ds[place]? = none
  · rw [h.reading_quiet hquiet]
    refine ⟨?_, fun d hd hneeds hasked => ?_, fun _ => ⟨rfl, rfl, rfl⟩⟩
    · rw [Reading.known_append_of_quiet rfl]
    · rcases hquiet hneeds with hold | hnone
      · exact absurd hold hasked
      · exact absurd (hd.symm.trans hnone) (Option.some_ne_none d)
  · obtain ⟨hneeds, hasked, d, hd⟩ := first_of_not_quiet hquiet
    rw [h.reading_first hd hneeds hasked]
    refine ⟨?_, fun d' hd' _ _ => ?_, fun hold => absurd hold hquiet⟩
    · rw [Reading.known_append_of_first rfl (h.callsAbout_eq_nil hd hasked), hd,
        Option.map_some]
    · obtain rfl : d = d' := Option.some.inj (hd.symm.trans hd')
      exact ⟨rfl, rfl, rfl⟩

/-- The descriptors remember the reading too when the question is answered, and a source that
keeps a record has its calls. -/
theorem Kept.run_readAt (h : Kept ds before) (source : ArgumentSource W)
    (question : Nat × Accessor) (w : W) :
    let r := reading source (remembering before ds) w question
    (readAt source question.1 question.2 (remembering before ds)).run w =
        ⟨(r.datum, remembering (before ++ [r]) ds), r.log, r.left⟩ ∧
      ∀ calls, (readAt source.traced question.1 question.2 (remembering before ds)).run
          (w, calls) =
        ⟨(r.datum, remembering (before ++ [r]) ds), r.log, (r.left, calls ++ r.calls)⟩ := by
  obtain ⟨place, accessor⟩ := question
  intro r
  by_cases hquiet : accessor.needsArguments = true →
      Reading.Asked place before ∨ ds[place]? = none
  · have hr : r = _ := h.reading_quiet hquiet source w
    have hafter : remembering (before ++ [r]) ds = remembering before ds :=
      remembering_append_of_quiet (by rw [hr])
    rw [hafter, hr]
    refine ⟨h.run_readAt_quiet hquiet source w, fun calls => ?_⟩
    rw [h.run_readAt_quiet hquiet, List.append_nil]
  · obtain ⟨hneeds, hasked, d, hd⟩ := first_of_not_quiet hquiet
    have hr : r = _ := h.reading_first hd hneeds hasked source w
    have hafter : remembering (before ++ [r]) ds = (remembering before ds).set place
        { d with kept := some (SourceCall.told ⟨d.pid, ((source d.pid).run w).value⟩) } := by
      rw [hr, remembering_append_of_first hd,
        Reading.known_append_of_first rfl (h.callsAbout_eq_nil hd hasked)]
    rw [hafter, hr]
    exact ⟨h.run_readAt_first hd hneeds hasked source w,
      fun calls => h.run_readAt_first hd hneeds hasked source.traced (w, calls)⟩

end Step

/-! ### All questions -/

section Run

variable {ds : List ProcessDescriptor} {before : List (Reading W)}

/-- There is a reading of each question. -/
theorem map_readings (source : ArgumentSource W) (questions : List (Nat × Accessor)) :
    ∀ (ds : List ProcessDescriptor) (w : W),
      (readings source questions ds w).map (fun r => (r.place, r.accessor)) = questions := by
  induction questions with
  | nil => exact fun _ _ => rfl
  | cons question questions ih => exact fun ds w => congrArg (question :: ·) (ih _ _)

/-- The reading of the first question, and those of the others. -/
theorem Kept.readings_cons (h : Kept ds before) (source : ArgumentSource W)
    (question : Nat × Accessor) (questions : List (Nat × Accessor)) (w : W) :
    let r := reading source (remembering before ds) w question
    readings source (question :: questions) (remembering before ds) w =
      r :: readings source questions (remembering (before ++ [r]) ds) r.left := by
  intro r
  obtain ⟨hrun, -⟩ := h.run_readAt source question w
  simp only [readings, hrun]
  rfl

/-- **A run.** Each question finds the world that the one before it left, and does what it
should. -/
theorem Kept.readings_split (h : Kept ds before) (source : ArgumentSource W)
    (questions : List (Nat × Accessor)) (w : W) {earlier later : List (Reading W)}
    {r : Reading W}
    (hsplit : readings source questions (remembering before ds) w = earlier ++ r :: later) :
    r.world = Reading.worldAfter w earlier ∧ r.Faithful source ds (before ++ earlier) := by
  induction questions generalizing before w earlier with
  | nil => exact absurd hsplit (List.append_ne_nil_of_right_ne_nil _ (List.cons_ne_nil _ _)).symm
  | cons question questions ih =>
    have hfaithful := h.faithful source question w
    rw [h.readings_cons] at hsplit
    cases earlier with
    | nil =>
      obtain ⟨rfl, -⟩ := List.cons.inj hsplit
      rw [List.append_nil]
      exact ⟨rfl, hfaithful⟩
    | cons first earlier =>
      obtain ⟨rfl, hrest⟩ := List.cons.inj hsplit
      have htail := ih (h.append hfaithful) _ hrest
      rwa [List.append_assoc] at htail

/-- The outcome of a run, told by the readings. -/
theorem Kept.run_readAll (h : Kept ds before) (source : ArgumentSource W)
    (questions : List (Nat × Accessor)) (w : W) :
    let rs := readings source questions (remembering before ds) w
    (readAll source questions (remembering before ds)).run w =
        ⟨(rs.map Reading.datum, remembering (before ++ rs) ds), rs.flatMap Reading.log,
          Reading.worldAfter w rs⟩ ∧
      ∀ calls, (readAll source.traced questions (remembering before ds)).run (w, calls) =
        ⟨(rs.map Reading.datum, remembering (before ++ rs) ds), rs.flatMap Reading.log,
          (Reading.worldAfter w rs, calls ++ rs.flatMap Reading.calls)⟩ := by
  induction questions generalizing before w with
  | nil => simp [readAll, readings, Reading.worldAfter]
  | cons question questions ih =>
    obtain ⟨hrun, htraced⟩ := h.run_readAt source question w
    obtain ⟨hrest, hrestTraced⟩ := ih (h.append (h.faithful source question w))
      (reading source (remembering before ds) w question).left
    rw [h.readings_cons]
    refine ⟨?_, fun calls => ?_⟩
    · simp only [readAll, Session.run_bind, Session.run_pure, hrun, hrest, List.append_assoc,
        List.append_nil]
      rfl
    · simp only [readAll, Session.run_bind, Session.run_pure, htraced, hrestTraced,
        List.append_assoc, List.append_nil]
      rfl

/-- Questions that do what they should keep their calls. -/
theorem Kept.of_faithful (source : ArgumentSource W) {readings : List (Reading W)}
    (h : ∀ before r after, readings = before ++ r :: after → r.Faithful source ds before) :
    Kept ds readings := by
  induction readings using List.reverseRecOn with
  | nil => exact .nil
  | append_singleton readings r ih =>
    have hreadings : Kept ds readings := by
      refine ih fun before r' after hsplit => h before r' (after ++ [r]) ?_
      rw [hsplit, List.append_assoc, List.cons_append]
    exact hreadings.append (h readings r [] rfl)

end Run

/-- **A source is asked once about a process, when its arguments are first wanted.** Questions
are put to the descriptors of a fresh listing. The answers, the lines and the world they
leave are those of the readings, and so are the calls that the source gets. Each question
finds the world that the one before it left and does what it should. However many questions
have been put, the source was called once, with its number, for each process whose arguments
were asked for, and for no other; and the arguments of those processes are known. -/
theorem readings_faithful (source : ArgumentSource W) (questions : List (Nat × Accessor))
    (ds : List ProcessDescriptor) (w : W) (fresh : ∀ d ∈ ds, d.kept = none) :
    let rs := readings source questions ds w
    rs.map (fun r => (r.place, r.accessor)) = questions ∧
    (readAll source questions ds).run w =
      ⟨(rs.map Reading.datum, remembering rs ds), rs.flatMap Reading.log,
        Reading.worldAfter w rs⟩ ∧
    (readAll source.traced questions ds).run (w, []) =
      ⟨(rs.map Reading.datum, remembering rs ds), rs.flatMap Reading.log,
        (Reading.worldAfter w rs, rs.flatMap Reading.calls)⟩ ∧
    (∀ before r after, rs = before ++ r :: after →
      r.world = Reading.worldAfter w before ∧ r.Faithful source ds before) ∧
    ∀ before, before <+: rs → ∀ place d, ds[place]? = some d →
      (Reading.callsAbout place before).map SourceCall.pid =
        (if Reading.Asked place before then [d.pid] else []) ∧
      (Reading.known place before).isSome = decide (Reading.Asked place before) := by
  intro rs
  have hstart : remembering ([] : List (Reading W)) ds = ds := remembering_nil fresh
  have hrs : rs = readings source questions (remembering ([] : List (Reading W)) ds) w := by
    rw [hstart]
  have hnil : Kept ds ([] : List (Reading W)) := .nil
  obtain ⟨hrun, htraced⟩ := hnil.run_readAll source questions w
  rw [← hrs, hstart] at hrun htraced
  have hsplit : ∀ before r after, rs = before ++ r :: after →
      r.world = Reading.worldAfter w before ∧ r.Faithful source ds before := by
    intro before r after h
    exact hnil.readings_split source questions w (hrs.symm.trans h)
  refine ⟨map_readings source questions ds w, hrun, htraced [], hsplit,
    fun before hprefix place d hd => ?_⟩
  obtain ⟨rest, hrest⟩ := hprefix
  have hkept : Kept ds before := by
    refine Kept.of_faithful source fun earlier r later h => ?_
    refine (hsplit earlier r (later ++ rest) ?_).2
    rw [← hrest, h, List.append_assoc, List.cons_append]
  exact ⟨hkept.calls place d hd, hkept.isSome_known hd⟩

/-- A source that counts its calls and refuses the first. -/
def refusingFirst : ArgumentSource Nat := fun _ => do
  let calls ← Session.consult fun n => (n, n + 1)
  if calls = 0 then
    return .error (.malformed "record")
  else
    return .ok { arguments := List.replicate calls "again" }

/-- Two descriptors of one number, of which the first was asked when the source refused. -/
theorem readings_faithful_refusingFirst :
    let ds : List ProcessDescriptor :=
      [{ pid := 7, ppid := some 1, log := {} }, { pid := 7, ppid := none, log := {} }]
    let questions := [(0, .commandLine), (1, .isDecoded), (1, .arguments), (0, .arguments),
      (1, .isDecoded), (1, .arguments)]
    (∀ d ∈ ds, d.kept = none) ∧
    ((readAll refusingFirst questions ds).run 0).value.1 =
      [some (.commandLine ""), some (.isDecoded false), some (.arguments ["again"]),
        some (.arguments []), some (.isDecoded true), some (.arguments ["again"])] ∧
    ((readAll refusingFirst.traced questions ds).run (0, [])).world.2.map SourceCall.pid =
      [7, 7] := by
  intro ds questions
  have fresh : ∀ d ∈ ds, d.kept = none := by simp [ds]
  obtain ⟨-, hrun, htraced, -⟩ := readings_faithful refusingFirst questions ds 0 fresh
  refine ⟨fresh, ?_, ?_⟩
  · rw [hrun]
    decide +kernel
  · rw [htraced]
    decide +kernel

end ProcessDescriptor

end HostAccess
