import HostAccess.Proofs.Session
import HostAccess.Proofs.Text.Quoted
import HostAccess.Restart
import Mathlib.Data.List.Basic

/-!
# Restarts that are refused

A restart is refused if the environment cannot hold one of the entries that it is to add, wherever
that entry stands. By then nothing may have happened: no entry in front of it may have been set, and
no descriptor marked. And an entry that is set must be one that an environment can hold
(`HostAccess.Settable`), since the system gives no answer to any other.

That an entry was set need not show in the environment, which may have held it before. So the
entries that are set are noted beside the program (`HostAccess.RestartSteps.noting`), and a restart
that is refused notes none.

* `HostAccess.exists_first_of_not_settable`: the check finds the first entry that cannot be set;
* `HostAccess.RestartSteps.run_restart_of_error`, `HostAccess.RestartSteps.notes_restart_of_error`:
  a refused restart, of any program;
* `HostAccess.RestartSteps.notes_restart_of_ok`: any other sets every entry;
* `HostAccess.restart_refuses_entries`: the main result.
-/

namespace HostAccess

/-! ### Entries -/

/-- **An environment can hold an entry**: its key is not empty and has neither an equals sign nor a
zero character, and its value has no zero character. -/
structure Settable (key value : String) : Prop where
  key_ne_empty : key ≠ ""
  sign_not_mem_key : '=' ∉ key.toList
  zero_not_mem_key : '\x00' ∉ key.toList
  zero_not_mem_value : '\x00' ∉ value.toList

theorem isMalformedEntry_eq_false_iff {key value : String} :
    isMalformedEntry key value = false ↔ Settable key value := by
  simp only [isMalformedEntry, Bool.or_eq_false_iff, String.isEmpty_eq_false_iff,
    List.contains_eq_mem, decide_eq_false_iff_not]
  constructor
  · rintro ⟨⟨⟨hempty, hsign⟩, hzero⟩, hvalue⟩
    exact ⟨hempty, hsign, hzero, hvalue⟩
  · rintro ⟨hempty, hsign, hzero, hvalue⟩
    exact ⟨⟨⟨hempty, hsign⟩, hzero⟩, hvalue⟩

/-- **The first entry that cannot be set** is found wherever it stands, and named. -/
theorem exists_first_of_not_settable {entries : List (String × String)}
    (h : ∃ entry ∈ entries, ¬Settable entry.1 entry.2) :
    ∃ before key value after, entries = before ++ (key, value) :: after ∧
      (∀ entry ∈ before, Settable entry.1 entry.2) ∧ ¬Settable key value ∧
      checkEntries entries = .error (.invalidInput s!"environment entry {Text.quote key}") := by
  cases hfind : entries.find? fun entry => isMalformedEntry entry.1 entry.2 with
  | none =>
    obtain ⟨entry, hentry, hnot⟩ := h
    have hgood := List.find?_eq_none.1 hfind entry hentry
    exact absurd (isMalformedEntry_eq_false_iff.1 (Bool.eq_false_iff.2 hgood)) hnot
  | some entry =>
    obtain ⟨hbad, before, after, hentries, hgood⟩ := List.find?_eq_some_iff_append.1 hfind
    refine ⟨before, entry.1, entry.2, after, hentries, fun e he => ?_, fun hset => ?_, ?_⟩
    · exact isMalformedEntry_eq_false_iff.1 (by simpa using hgood e he)
    · rw [isMalformedEntry_eq_false_iff.2 hset] at hbad
      cases hbad
    · rw [checkEntries, hfind]

theorem settable_of_checkEntries {entries : List (String × String)}
    (h : checkEntries entries = .ok ()) : ∀ entry ∈ entries, Settable entry.1 entry.2 := by
  intro entry hentry
  by_cases hset : Settable entry.1 entry.2
  · exact hset
  · obtain ⟨before, key, value, after, -, -, -, hcheck⟩ :=
      exists_first_of_not_settable ⟨entry, hentry, hset⟩
    rw [hcheck] at h
    cases h

theorem settable_of_checks {entries : List (String × String)} {plan : RestartPlan}
    (h : (checkEntries entries *> plan.check) = .ok ()) :
    ∀ entry ∈ entries, Settable entry.1 entry.2 := by
  refine settable_of_checkEntries ?_
  cases hentries : checkEntries entries with
  | error e =>
    rw [hentries] at h
    cases h
  | ok _ => rfl

/-! ### The steps of a restart -/

namespace RestartSteps

variable {W : Type}

/-- The same steps, with a note of each entry that is set. -/
def noting (steps : RestartSteps W) : RestartSteps (W × List (String × String)) where
  plan := fun w => steps.plan w.1
  setEntry key value := (steps.setEntry key value).noting fun _ => (key, value)
  markDescriptors := steps.markDescriptors.unnoted

variable {steps : RestartSteps W} {log : Logger} {run : RestartPlan → Except Int32 Unit}
  {extra : List (String × String)} {plan : RestartPlan} {w : W}

theorem run_restart_of_none (hplan : steps.plan w = none) :
    (steps.restart log run extra).run w =
      ⟨.error (.invalidInput "executable or arguments of this process unknown"), [], w⟩ := by
  rw [restart, Session.run_bind, Session.run_look, hplan]
  rfl

/-- **A restart that a check refuses** ends there and leaves the program as it is. -/
theorem run_restart_of_error {e : HostError} (hplan : steps.plan w = some plan)
    (hcheck : (checkEntries extra *> plan.check) = .error e) :
    (steps.restart log run extra).run w = ⟨.error e, [], w⟩ := by
  rw [restart, Session.run_bind, Session.run_look, hplan]
  dsimp only
  rw [hcheck]
  rfl

theorem notes_restart_of_none (hplan : steps.plan w = none) :
    Session.Notes (steps.restart log run extra) (steps.noting.restart log run extra) w [] := by
  intro before
  have hplan' : steps.noting.plan (w, before) = none := hplan
  rw [run_restart_of_none hplan, run_restart_of_none hplan', List.append_nil]

/-- A restart that a check refuses sets no entry, -/
theorem notes_restart_of_error {e : HostError} (hplan : steps.plan w = some plan)
    (hcheck : (checkEntries extra *> plan.check) = .error e) :
    Session.Notes (steps.restart log run extra) (steps.noting.restart log run extra) w [] := by
  intro before
  have hplan' : steps.noting.plan (w, before) = some plan := hplan
  rw [run_restart_of_error hplan hcheck, run_restart_of_error hplan' hcheck, List.append_nil]

/-- and one that the checks let through sets them all. -/
theorem notes_restart_of_ok (hplan : steps.plan w = some plan)
    (hcheck : (checkEntries extra *> plan.check) = .ok ()) :
    Session.Notes (steps.restart log run extra) (steps.noting.restart log run extra) w extra := by
  have hset (entry : String × String) (w : W) :
      Session.Notes (steps.setEntry entry.1 entry.2) (steps.noting.setEntry entry.1 entry.2) w
        [(entry.1, entry.2)] :=
    .noting (steps.setEntry entry.1 entry.2) (fun _ => (entry.1, entry.2)) w
  have hall : Session.Notes (steps.restart log run extra) (steps.noting.restart log run extra) w
      ([] ++ (extra.map (fun entry => (entry.1, entry.2)) ++ ([] ++ ([] ++ [])))) := by
    refine (Session.Notes.look steps.plan w).bind ?_
    rw [Session.run_look, hplan]
    dsimp only
    rw [hcheck]
    refine (Session.Notes.forM hset extra w).bind (Session.Notes.bind (.unnoted _ _) ?_)
    refine (Session.Notes.log _ _ _ _).bind ?_
    cases run plan with
    | error code => exact .pure _ _
    | ok _ => exact .pure _ _
  simpa using hall

/-- **A restart sets all entries or none**, and all only if an environment can hold each. -/
theorem exists_notes_restart (steps : RestartSteps W) (log : Logger)
    (run : RestartPlan → Except Int32 Unit) (extra : List (String × String)) (w : W) :
    ∃ set, Session.Notes (steps.restart log run extra) (steps.noting.restart log run extra) w set ∧
      (set = [] ∨ set = extra) ∧ ∀ entry ∈ set, Settable entry.1 entry.2 := by
  cases hplan : steps.plan w with
  | none => exact ⟨[], notes_restart_of_none hplan, Or.inl rfl, List.forall_mem_nil _⟩
  | some plan =>
    cases hcheck : checkEntries extra *> plan.check with
    | error e => exact ⟨[], notes_restart_of_error hplan hcheck, Or.inl rfl, List.forall_mem_nil _⟩
    | ok _ =>
      exact ⟨extra, notes_restart_of_ok hplan hcheck, Or.inr rfl, settable_of_checks hcheck⟩

end RestartSteps

/-- **A refused restart changes nothing.** If an environment cannot hold one of the entries, a
restart of a program that can be run names the first such entry, by a key that no other looks like,
leaves the environment and the descriptors as they are, and sets no entry. Whatever the program
and the entries, all entries are set or none, and each that is set is one that an environment can
hold. -/
theorem restart_refuses_entries (log : Logger) (run : RestartPlan → Except Int32 Unit)
    (extra : List (String × String)) (image : ProcessImage) :
    let noted := ProcessImage.restartSteps.noting.restart log run extra
    (∀ plan, image.plan = some plan → (∃ entry ∈ extra, ¬Settable entry.1 entry.2) →
      ∃ before key value after, extra = before ++ (key, value) :: after ∧
        (∀ entry ∈ before, Settable entry.1 entry.2) ∧ ¬Settable key value ∧
        (restart log run extra).run image =
          ⟨.error (.invalidInput s!"environment entry {Text.quote key}"), [], image⟩ ∧
        (∀ other, Text.quote other = Text.quote key → other = key) ∧
        Session.Notes (restart log run extra) noted image []) ∧
      ∃ set, Session.Notes (restart log run extra) noted image set ∧
        (set = [] ∨ set = extra) ∧ ∀ entry ∈ set, Settable entry.1 entry.2 := by
  intro noted
  constructor
  · intro plan hplan hbad
    obtain ⟨before, key, value, after, hentries, hgood, hnot, hcheck⟩ :=
      exists_first_of_not_settable hbad
    have hchecks : (checkEntries extra *> plan.check) =
        .error (.invalidInput s!"environment entry {Text.quote key}") := by
      rw [hcheck]
      rfl
    refine ⟨before, key, value, after, hentries, hgood, hnot, ?_, fun _ => Text.quote_inj.1, ?_⟩
    · exact RestartSteps.run_restart_of_error hplan hchecks
    · exact RestartSteps.notes_restart_of_error hplan hchecks
  · exact ProcessImage.restartSteps.exists_notes_restart log run extra image

/-- Two entries that can be set stand in front of one with an equals sign in its key, and one
without a key behind it. -/
theorem restart_refuses_entries_sign_in_key :
    let image : ProcessImage :=
      ⟨some ⟨[0x2F, 0x61], [[0x61]]⟩, ⟨[("A", "0")]⟩, [⟨1, false⟩, ⟨7, false⟩], some 64⟩
    let key := "A=B"
    let extra := [("A", "1"), ("B", "2"), (key, "3"), ("", "4")]
    let run : RestartPlan → Except Int32 Unit := fun _ => .ok ()
    image.plan = some ⟨[0x2F, 0x61], [[0x61]]⟩ ∧ (∃ entry ∈ extra, ¬Settable entry.1 entry.2) ∧
      (restart .silent run extra).run image =
        ⟨.error (.invalidInput s!"environment entry {Text.quote key}"), [], image⟩ ∧
      Session.Notes (restart .silent run extra)
        (ProcessImage.restartSteps.noting.restart .silent run extra) image [] := by
  intro image key extra run
  have hplan : image.plan = some ⟨[0x2F, 0x61], [[0x61]]⟩ := rfl
  have hbad : ∃ entry ∈ extra, ¬Settable entry.1 entry.2 :=
    ⟨(key, "3"), by decide, fun h => absurd h.sign_not_mem_key (by decide)⟩
  have hfind : extra.find? (fun entry => isMalformedEntry entry.1 entry.2) = some (key, "3") := by
    decide
  have hcheck : (checkEntries extra *> RestartPlan.check ⟨[0x2F, 0x61], [[0x61]]⟩) =
      .error (.invalidInput s!"environment entry {Text.quote key}") := by
    rw [checkEntries, hfind]
    rfl
  obtain ⟨-, -, -, -, -, -, -, -, -, hnotes⟩ :=
    (restart_refuses_entries .silent run extra image).1 _ hplan hbad
  exact ⟨hplan, hbad, RestartSteps.run_restart_of_error hplan hcheck, hnotes⟩

end HostAccess
