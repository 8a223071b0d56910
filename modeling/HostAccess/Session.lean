import HostAccess.Log

/-!
# Sessions

Operations consult something outside the program: a kernel, a file system, a library. That
outside is a *world*, a value of some type `W`, and whatever answers may also change it, so
an answer can depend on all that happened before. On the way an operation writes log lines.

A session is such an operation seen as a function of the world. It yields a value, the
lines written, and the world it leaves.

* `HostAccess.Session`: the type, a monad;
* `HostAccess.Session.consult`: put a question to the world;
* `HostAccess.Session.log`: write a line;
* `HostAccess.Session.within`: run a session of a part of the world in the whole.
-/

namespace HostAccess

/-- What a session did: its value, the lines it wrote and the world it left. -/
structure Outcome (W α : Type) where
  value : α
  log : List LogRecord
  world : W

/-- An operation that consults a world and writes log lines. -/
def Session (W α : Type) : Type :=
  W → Outcome W α

namespace Session

variable {W V α β : Type}

/-- Runs a session from a world. -/
def run (x : Session W α) (w : W) : Outcome W α :=
  x w

/-- Yields a value and does nothing. -/
protected def pure (a : α) : Session W α := fun w =>
  ⟨a, [], w⟩

/-- Runs one session and then another that depends on its value. -/
protected def bind (x : Session W α) (f : α → Session W β) : Session W β := fun w =>
  let first := x w
  let second := f first.value first.world
  ⟨second.value, first.log ++ second.log, second.world⟩

instance : Monad (Session W) where
  pure := Session.pure
  bind := Session.bind

instance : LawfulMonad (Session W) :=
  LawfulMonad.mk' (Session W)
    (fun x => by
      funext w
      change Outcome.mk (x w).value ((x w).log ++ []) (x w).world = x w
      rw [List.append_nil])
    (fun _ _ => rfl)
    (fun x f g => by
      funext w
      change Outcome.mk _ ((_ ++ _) ++ _) _ = Outcome.mk _ (_ ++ (_ ++ _)) _
      rw [List.append_assoc]
      rfl)

/-- Puts a question to the world. -/
def consult (ask : W → α × W) : Session W α := fun w =>
  let (answer, w') := ask w
  ⟨answer, [], w'⟩

/-- Looks at the world. -/
def look (view : W → α) : Session W α := fun w =>
  ⟨view w, [], w⟩

/-- Changes the world. -/
def change (f : W → W) : Session W Unit := fun w =>
  ⟨(), [], f w⟩

/-- Writes a line to a logger. -/
def log (l : Logger) (level : LogLevel) (message : String) : Session W Unit := fun w =>
  ⟨(), l.records level message, w⟩

/-- Runs a session of a part of the world: `part` reads the part and `put` replaces it. -/
def within (part : W → V) (put : V → W → W) (x : Session V α) : Session W α := fun w =>
  let r := x (part w)
  ⟨r.value, r.log, put r.world w⟩

/-! ### What the parts do -/

@[simp]
theorem run_pure (a : α) (w : W) : (pure a : Session W α).run w = ⟨a, [], w⟩ := rfl

theorem run_bind (x : Session W α) (f : α → Session W β) (w : W) :
    (x >>= f).run w =
      { value := ((f (x.run w).value).run (x.run w).world).value
        log := (x.run w).log ++ ((f (x.run w).value).run (x.run w).world).log
        world := ((f (x.run w).value).run (x.run w).world).world } := rfl

@[simp]
theorem run_consult (ask : W → α × W) (w : W) :
    (consult ask).run w = ⟨(ask w).1, [], (ask w).2⟩ := rfl

@[simp]
theorem run_look (view : W → α) (w : W) : (look view).run w = ⟨view w, [], w⟩ := rfl

@[simp]
theorem run_change (f : W → W) (w : W) : (change f).run w = ⟨(), [], f w⟩ := rfl

@[simp]
theorem run_within (part : W → V) (put : V → W → W) (x : Session V α) (w : W) :
    (x.within part put).run w =
      ⟨(x.run (part w)).value, (x.run (part w)).log, put (x.run (part w)).world w⟩ := rfl

@[simp]
theorem run_log (l : Logger) (level : LogLevel) (message : String) (w : W) :
    (log l level message).run w = ⟨(), l.records level message, w⟩ := rfl

/-- After a question a session goes on with its answer, in the world it left. -/
theorem run_consult_bind {ask : W → α × W} {w w' : W} {a : α} (h : ask w = (a, w'))
    (f : α → Session W β) : (consult ask >>= f).run w = (f a).run w' := by
  rw [run_bind, run_consult, h]
  rfl

theorem run_log_bind (l : Logger) (level : LogLevel) (message : String)
    (f : Unit → Session W β) (w : W) :
    (log l level message >>= f).run w =
      { (f ()).run w with log := l.records level message ++ ((f ()).run w).log } := rfl

end Session

end HostAccess
