import HostAccess.Proofs.Session

/-!
# Runs at two levels

A logger has a level, and with it come two expectations: that it says how much is written,
and that it says nothing else. They are about two runs of one session, with loggers that
differ in their levels only. Beside a louder run, a quieter one
(`HostAccess.Session.Quieter`) leaves the same world and writes those lines of the louder
run that its level admits. Their values are the same too, except that what carries a logger
carries another one; so a relation says how the values compare.

Sessions put together from such pairs are such a pair: there is a lemma for each way of
putting sessions together, as for a single session. Writing a line is the only step in which
the loggers are looked at (`HostAccess.Session.Quieter.log`), and any other step is the same
in both runs.

What lies outside the program may write lines of its own. It is given the same level, and
then what it writes is heard up to that level: `HostAccess.Session.upTo`.
-/

namespace HostAccess

/-! ### Levels -/

/-- Whether lines of a level are admitted at another. -/
def LogLevel.admits (level line : LogLevel) : Bool :=
  line != .off && line.value ≤ level.value

theorem LogLevel.admits_of_le {quiet loud : LogLevel} (hle : quiet.value ≤ loud.value)
    (line : LogLevel) :
    quiet.admits line = (decide (line.value ≤ quiet.value) && loud.admits line) := by
  rw [admits, admits, Bool.eq_iff_iff]
  simp only [Bool.and_eq_true, decide_eq_true_iff]
  constructor
  · rintro ⟨hoff, hline⟩
    exact ⟨hline, hoff, Nat.le_trans hline hle⟩
  · rintro ⟨hline, hoff, -⟩
    exact ⟨hoff, hline⟩

theorem LogLevel.admits_off (line : LogLevel) : LogLevel.off.admits line = false := by
  cases line <;> rfl

/-- The same logger at another level. -/
def Logger.withLevel (l : Logger) (level : LogLevel) : Logger :=
  { l with level }

theorem Logger.records_withLevel (l : Logger) (level line : LogLevel) (message : String) :
    (l.withLevel level).records line message =
      [⟨line, l.tag, message⟩].filter fun r => level.admits r.level := by
  rw [List.filter_cons, List.filter_nil]
  rfl

/-! ### Outcomes -/

/-- **The outcome of a run at a level, beside that of a louder run.** The values compare as they
should and the worlds are the same. The lines are those of the louder run that are of the level
or below it, in order, and at the level `off` there are none. -/
structure Outcome.Quieter {W α β : Type} (level : LogLevel) (R : α → β → Prop) (r : Outcome W α)
    (r' : Outcome W β) : Prop where
  value : R r.value r'.value
  world : r.world = r'.world
  log : r.log = r'.log.filter fun line => line.level.value ≤ level.value
  silent : level = .off → r.log = []

namespace Session

variable {W V α β γ δ κ : Type}

/-- **A run at a level, beside a louder run**, from every world. -/
def Quieter (level : LogLevel) (R : α → β → Prop) (x : Session W α) (y : Session W β) : Prop :=
  ∀ w, Outcome.Quieter level R (x.run w) (y.run w)

/-- A session of which the lines that a level admits are heard. -/
def upTo (x : Session W α) (level : LogLevel) : Session W α := fun w =>
  let r := x.run w
  ⟨r.value, r.log.filter fun line => level.admits line.level, r.world⟩

theorem run_upTo (x : Session W α) (level : LogLevel) (w : W) :
    (x.upTo level).run w = ⟨(x.run w).value,
      (x.run w).log.filter fun line => level.admits line.level, (x.run w).world⟩ := rfl

namespace Quieter

variable {level quiet loud : LogLevel} {R : α → β → Prop} {S : γ → δ → Prop}
  {x : Session W α} {y : Session W β}

/-! ### Single steps -/

/-- A session that writes nothing is the same in both runs. -/
theorem refl (x : Session W α) (h : ∀ w, (x.run w).log = []) : Quieter level Eq x x :=
  fun w => ⟨rfl, rfl, by rw [h w, List.filter_nil], fun _ => h w⟩

theorem pure {a : α} {b : β} (h : R a b) :
    Quieter level R (pure a : Session W α) (pure b) :=
  fun _ => ⟨h, rfl, rfl, fun _ => rfl⟩

theorem consult (ask : W → α × W) : Quieter level Eq (consult ask) (Session.consult ask) :=
  refl _ fun _ => rfl

theorem look (view : W → α) : Quieter level Eq (look view) (Session.look view) :=
  refl _ fun _ => rfl

/-- What lies outside is heard in a quieter run as in a louder one, but for what the level
leaves out. -/
theorem upTo (hle : quiet.value ≤ loud.value) (x : Session W α) :
    Quieter quiet Eq (x.upTo quiet) (x.upTo loud) := by
  refine fun w => ⟨rfl, rfl, ?_, ?_⟩
  · rw [run_upTo, run_upTo, List.filter_filter]
    exact congrArg (List.filter · _) (funext fun line => LogLevel.admits_of_le hle line.level)
  · rintro rfl
    rw [run_upTo]
    refine List.filter_eq_nil_iff.2 fun line _ => ?_
    rw [LogLevel.admits_off]
    exact Bool.false_ne_true

/-- **A line is written in the quieter run if its level admits it**: a logger lets through what
is heard up to its level of a line that is always written. -/
theorem log (hle : quiet.value ≤ loud.value) (l : Logger) (line : LogLevel) (message : String) :
    Quieter quiet Eq (log (l.withLevel quiet) line message : Session W Unit)
      (Session.log (l.withLevel loud) line message) := by
  let written : Session W Unit := fun w => ⟨(), [⟨line, l.tag, message⟩], w⟩
  have hlog (level : LogLevel) :
      Session.log (l.withLevel level) line message = written.upTo level := by
    ext w
    rw [run_log, run_upTo, Logger.records_withLevel]
    rfl
  rw [hlog, hlog]
  exact upTo hle written

/-! ### Sessions put together -/

theorem bind {f : α → Session W γ} {g : β → Session W δ} (h : Quieter level R x y)
    (hnext : ∀ a b, R a b → Quieter level S (f a) (g b)) :
    Quieter level S (x >>= f) (y >>= g) := by
  intro w
  have hfirst := h w
  have hsecond := hnext _ _ hfirst.value (x.run w).world
  rw [run_bind, run_bind, ← hfirst.world]
  refine ⟨hsecond.value, hsecond.world, ?_, fun hoff => ?_⟩
  · rw [List.filter_append, ← hfirst.log, ← hsecond.log]
  · rw [hfirst.silent hoff, hsecond.silent hoff, List.append_nil]

/-- The value of a first session that is the same in both runs can be named once. -/
theorem bind_eq {x y : Session W α} {f : α → Session W γ} {g : α → Session W δ}
    (h : Quieter level Eq x y) (hnext : ∀ a, Quieter level S (f a) (g a)) :
    Quieter level S (x >>= f) (y >>= g) :=
  h.bind fun a _ heq => heq ▸ hnext a

theorem map {f : α → γ} {g : β → δ} (h : Quieter level R x y)
    (hvalue : ∀ a b, R a b → S (f a) (g b)) : Quieter level S (f <$> x) (g <$> y) := by
  rw [← bind_pure_comp, ← bind_pure_comp]
  exact h.bind fun a b hab => .pure (hvalue a b hab)

theorem within {x : Session V α} {y : Session V β} (h : Quieter level R x y) (part : W → V)
    (put : V → W → W) : Quieter level R (x.within part put) (y.within part put) := by
  intro w
  have hpart := h (part w)
  rw [run_within, run_within, hpart.world]
  exact ⟨hpart.value, rfl, hpart.log, hpart.silent⟩

theorem noting {x y : Session W α} (h : Quieter level Eq x y) (note : α → κ) :
    Quieter level Eq (x.noting note) (y.noting note) := by
  rintro ⟨w, notes⟩
  have hrun := h w
  rw [run_noting, run_noting, hrun.value, hrun.world]
  exact ⟨rfl, rfl, hrun.log, hrun.silent⟩

end Quieter

end Session

end HostAccess
