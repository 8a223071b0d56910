import HostAccess.File.Binding
import HostAccess.Proofs.Session

/-!
# Calls of file bindings

A binding has three operations. A call is one of them with its arguments
(`HostAccess.FileCall`), so that a run of a binding is a list of calls
(`HostAccess.FileBinding.performAll`) and whatever holds of all three operations is said once.

The chain of two bindings treats them alike: `HostAccess.FileBinding.perform_orElse`. One of
its calls does one of two things, by whether the first binding was linked
(`HostAccess.FileBinding.run_orElse_of_linked`,
`HostAccess.FileBinding.run_orElse_of_unlinked`).
-/

namespace HostAccess

/-! ### Calls and answers -/

/-- A call of a binding. -/
inductive FileCall where
  | chmod (path : Bytes) (mode : UInt32)
  | symlink (target link : Bytes)
  | readlink (link : Bytes)
  deriving DecidableEq, Repr

/-- The operation that a call asks for. -/
def FileCall.operation : FileCall → String
  | chmod .. => "chmod"
  | symlink .. => "symlink"
  | readlink _ => "readlink"

/-- What a call that succeeds yields. -/
inductive FileResult where
  | done
  /-- The target of a link, or none for what is no link. -/
  | target (found : Option Bytes)
  deriving DecidableEq, Repr

/-- What a call is answered. -/
abbrev FileAnswer := Except HostError FileResult

/-- Whether something could not be linked. -/
def isUnlinked {α : Type} : Except HostError α → Bool
  | .ok _ => false
  | .error e => e.isLinkage

theorem isUnlinked_iff {α : Type} {r : Except HostError α} :
    isUnlinked r = true ↔ ∃ symbol reason, r = .error (.linkage symbol reason) := by
  rcases r with e | a
  · cases e <;> simp [isUnlinked, HostError.isLinkage]
  · simp [isUnlinked]

theorem isUnlinked_map {α β : Type} (f : α → β) (r : Except HostError α) :
    isUnlinked (r.map f) = isUnlinked r := by
  cases r <;> rfl

namespace FileBinding

variable {W : Type}

/-- Puts a call to a binding. -/
def perform (b : FileBinding W) : FileCall → Session W FileAnswer
  | .chmod path mode => Except.map (fun _ => .done) <$> b.chmod path mode
  | .symlink target link => Except.map (fun _ => .done) <$> b.symlink target link
  | .readlink link => Except.map .target <$> b.readlink link

/-- Puts calls to a binding, one after the other. -/
def performAll (b : FileBinding W) : List FileCall → Session W (List FileAnswer)
  | [] => pure []
  | call :: calls => do
    let answer ← b.perform call
    let answers ← b.performAll calls
    return answer :: answers

theorem run_performAll_cons (b : FileBinding W) (call : FileCall) (calls : List FileCall)
    (w : W) :
    let r := (b.perform call).run w
    let rest := (b.performAll calls).run r.world
    (b.performAll (call :: calls)).run w =
      ⟨r.value :: rest.value, r.log ++ rest.log, rest.world⟩ := by
  simp only [performAll, Session.run_bind, Session.run_pure, List.append_nil]

/-! ### Calls of a chain -/

variable {α β : Type} {log : Logger} {operation primary secondary : String}
  {x y : Session W (Except HostError α)} {w : W}

/-- The line about a first binding that could not be linked. -/
def passLine (log : Logger) (operation primary secondary : String) :
    Except HostError α → List LogRecord
  | .ok _ => []
  | .error e => log.records .info
      s!"{operation} via {primary} unavailable ({e.message}); trying {secondary}"

theorem run_route_of_linked (h : isUnlinked (x.run w).value = false) :
    (route log operation primary secondary x y).run w = x.run w := by
  rw [route, Session.run_bind]
  rcases hx : x.run w with ⟨e | a, lines, w'⟩
  · rw [hx] at h
    have he : ¬e.isLinkage = true := by simpa [isUnlinked] using h
    simp only [if_neg he, Session.run_pure, List.append_nil]
  · simp only [Session.run_pure, List.append_nil]

theorem run_route_of_unlinked (h : isUnlinked (x.run w).value = true) :
    let first := x.run w
    let second := y.run first.world
    (route log operation primary secondary x y).run w =
      ⟨second.value,
        first.log ++ (passLine log operation primary secondary first.value ++ second.log),
        second.world⟩ := by
  intro first second
  rw [route, Session.run_bind]
  rcases hx : x.run w with ⟨e | a, lines, w'⟩
  · rw [hx] at h
    have he : e.isLinkage = true := h
    simp only [first, second, hx, if_pos he, Session.run_log_bind, passLine]
  · rw [hx] at h
    exact absurd h Bool.false_ne_true

/-- What is made of an answer may be made of it before or after the choice. -/
theorem map_route (f : α → β) :
    Except.map f <$> route log operation primary secondary x y =
      route log operation primary secondary (Except.map f <$> x) (Except.map f <$> y) := by
  ext w
  have hmap : isUnlinked ((Except.map f <$> x).run w).value = isUnlinked (x.run w).value := by
    rw [Session.run_map, isUnlinked_map]
  cases h : isUnlinked (x.run w).value with
  | false =>
    rw [run_route_of_linked (hmap.trans h), Session.run_map, Session.run_map,
      run_route_of_linked h]
  | true =>
    rw [run_route_of_unlinked (hmap.trans h), Session.run_map, run_route_of_unlinked h]
    simp only [Session.run_map]
    cases (x.run w).value <;> rfl

variable {b b' : FileBinding W} {call : FileCall}

/-- **A chain chooses alike for every call.** -/
theorem perform_orElse (b b' : FileBinding W) (log : Logger) (call : FileCall) :
    (b.orElse b' log).perform call =
      route log call.operation b.name b'.name (b.perform call) (b'.perform call) := by
  cases call <;> exact map_route _

/-- A call that the first binding is linked for is answered by it, and that is all. -/
theorem run_orElse_of_linked (h : isUnlinked ((b.perform call).run w).value = false) :
    ((b.orElse b' log).perform call).run w = (b.perform call).run w := by
  rw [perform_orElse, run_route_of_linked h]

/-- A call that the first binding cannot be linked for is put to the second one. -/
theorem run_orElse_of_unlinked (h : isUnlinked ((b.perform call).run w).value = true) :
    let first := (b.perform call).run w
    let second := (b'.perform call).run first.world
    ((b.orElse b' log).perform call).run w =
      ⟨second.value,
        first.log ++ (passLine log call.operation b.name b'.name first.value ++ second.log),
        second.world⟩ := by
  intro first second
  rw [perform_orElse, run_route_of_unlinked h]

end FileBinding

end HostAccess
