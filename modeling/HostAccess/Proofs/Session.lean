import HostAccess.Session

/-!
# Sessions that keep a record

What a session asked of the outside shows in its value and in the world it leaves, but not
how often it asked, nor whether it asked at all: an answer may leave no trace. So the outside
is given one. `HostAccess.Session.noting` is a session that does what another does and adds
its answer to a list beside the world, and a party whose operations all do so tells from that
list everything it was ever asked.

Such notes add up along the parts of a session: `HostAccess.Session.Notes` says of a session
and of one that takes notes which notes that one takes, and has a lemma for each way in which
sessions are put together.

Two sessions are equal if they do the same from every world (`HostAccess.Session.ext`).
-/

namespace HostAccess

namespace Session

variable {W V α β κ : Type}

@[ext]
theorem ext {x y : Session W α} (h : ∀ w, x.run w = y.run w) : x = y :=
  funext h

@[simp]
theorem run_map (f : α → β) (x : Session W α) (w : W) :
    (f <$> x).run w = ⟨f (x.run w).value, (x.run w).log, (x.run w).world⟩ := by
  rw [← bind_pure_comp, run_bind, run_pure, List.append_nil]

/-- The same session, with a note of its answer added to the notes beside the world. -/
def noting (x : Session W α) (note : α → κ) : Session (W × List κ) α := fun (w, notes) =>
  let r := x.run w
  ⟨r.value, r.log, r.world, notes ++ [note r.value]⟩

@[simp]
theorem run_noting (x : Session W α) (note : α → κ) (w : W) (notes : List κ) :
    (x.noting note).run (w, notes) =
      ⟨(x.run w).value, (x.run w).log, (x.run w).world, notes ++ [note (x.run w).value]⟩ := rfl

/-- The same session beside notes that it does not add to. -/
def unnoted (x : Session W α) : Session (W × List κ) α :=
  x.within Prod.fst fun w (_, notes) => (w, notes)

/-! ### Notes that add up -/

/-- **What a session notes**: from a world, `noted` does what `x` does and adds these notes. -/
def Notes (x : Session W α) (noted : Session (W × List κ) α) (w : W) (notes : List κ) : Prop :=
  ∀ before, noted.run (w, before) =
    ⟨(x.run w).value, (x.run w).log, (x.run w).world, before ++ notes⟩

namespace Notes

variable {x : Session W α} {noted : Session (W × List κ) α} {w : W} {notes : List κ}

theorem pure (a : α) (w : W) :
    Notes (pure a) (pure a : Session (W × List κ) α) w [] := fun before => by
  rw [run_pure, run_pure, List.append_nil]

theorem noting (x : Session W α) (note : α → κ) (w : W) :
    Notes x (x.noting note) w [note (x.run w).value] :=
  fun _ => rfl

theorem unnoted (x : Session W α) (w : W) : Notes x (x.unnoted (κ := κ)) w [] :=
  fun before => by rw [List.append_nil]; rfl

theorem look (view : W → α) (w : W) :
    Notes (look view) (Session.look fun v : W × List κ => view v.1) w [] :=
  fun before => by rw [run_look, run_look, List.append_nil]

theorem log (l : Logger) (level : LogLevel) (message : String) (w : W) :
    Notes (log l level message) (Session.log l level message : Session (W × List κ) Unit) w [] :=
  fun before => by rw [run_log, run_log, List.append_nil]

theorem bind {f : α → Session W β} {g : α → Session (W × List κ) β} {more : List κ}
    (h : Notes x noted w notes)
    (hmore : Notes (f (x.run w).value) (g (x.run w).value) (x.run w).world more) :
    Notes (x >>= f) (noted >>= g) w (notes ++ more) := fun before => by
  rw [run_bind, run_bind, h before, hmore (before ++ notes), List.append_assoc]

theorem bind_of_run {a : α} {lines : List LogRecord} {w' : W} {f : α → Session W β}
    {g : α → Session (W × List κ) β} {more : List κ} (h : Notes x noted w notes)
    (hrun : x.run w = ⟨a, lines, w'⟩) (hmore : Notes (f a) (g a) w' more) :
    Notes (x >>= f) (noted >>= g) w (notes ++ more) :=
  h.bind (by rwa [hrun])

/-- A loop notes what its rounds note. -/
theorem forM {f : β → Session W PUnit} {g : β → Session (W × List κ) PUnit} {note : β → κ}
    (h : ∀ b w, Notes (f b) (g b) w [note b]) (bs : List β) (w : W) :
    Notes (bs.forM f) (bs.forM g) w (bs.map note) := by
  induction bs generalizing w with
  | nil => exact .pure _ w
  | cons b bs ih => exact (h b w).bind (ih _)

theorem map (f : α → β) (h : Notes x noted w notes) : Notes (f <$> x) (f <$> noted) w notes :=
  fun before => by rw [run_map, run_map, h before]

end Notes

end Session

end HostAccess
