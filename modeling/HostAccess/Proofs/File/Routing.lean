import HostAccess.Proofs.File.Calls

/-!
# Which binding of a chain gets which call

A chain of two bindings puts every call to the first, and to the second those that the first
could not be linked for. Either of them may change the world they share and answer by all
that happened before, so what each was asked is kept beside the world
(`HostAccess.FileBinding.observed`), call by call with the answer.

A call of the chain has one of two courses (`HostAccess.RoutedCall`), which one being decided
by the answer of the first binding alone: `HostAccess.FileBinding.exists_routedCall` for one
call and `HostAccess.FileBinding.orElse_routes`, the main result, for all of them. Nothing is
remembered from one call to the next: a first binding that could not be linked is asked again.
-/

namespace HostAccess

/-- A call and its answer. -/
structure FileExchange where
  call : FileCall
  answer : FileAnswer

/-- The course of a call of a chain: what the first binding answered, and what the second one
did if the call was put to it. -/
structure RoutedCall where
  call : FileCall
  first : FileAnswer
  second : Option FileAnswer

namespace RoutedCall

/-- The answer of the chain: that of the second binding, if it was asked. -/
def answer (r : RoutedCall) : FileAnswer :=
  r.second.getD r.first

/-- What was exchanged with the first binding. -/
def firstExchange (r : RoutedCall) : FileExchange :=
  ⟨r.call, r.first⟩

/-- What was exchanged with the second binding. -/
def secondExchange (r : RoutedCall) : Option FileExchange :=
  r.second.map fun answer => ⟨r.call, answer⟩

end RoutedCall

/-- The world of two bindings, and what was exchanged with each of them, in order. -/
structure Observed (W : Type) where
  world : W
  first : List FileExchange
  second : List FileExchange

namespace FileBinding

variable {W V : Type}

/-! ### Bindings that are observed -/

/-- The same binding, in a part of the world. -/
def within (b : FileBinding V) (part : W → V) (put : V → W → W) : FileBinding W where
  name := b.name
  chmod path mode := (b.chmod path mode).within part put
  symlink target link := (b.symlink target link).within part put
  readlink link := (b.readlink link).within part put

/-- The same binding, with every exchange added to those beside its world. -/
def recorded (b : FileBinding W) : FileBinding (W × List FileExchange) where
  name := b.name
  chmod path mode :=
    (b.chmod path mode).noting fun r => ⟨.chmod path mode, r.map fun _ => .done⟩
  symlink target link :=
    (b.symlink target link).noting fun r => ⟨.symlink target link, r.map fun _ => .done⟩
  readlink link := (b.readlink link).noting fun r => ⟨.readlink link, r.map .target⟩

/-- A binding as the first one of a chain that is observed. -/
def asFirst (b : FileBinding W) : FileBinding (Observed W) :=
  b.recorded.within (fun o => (o.world, o.first)) fun (world, first) o => { o with world, first }

/-- A binding as the second one. -/
def asSecond (b : FileBinding W) : FileBinding (Observed W) :=
  b.recorded.within (fun o => (o.world, o.second)) fun (world, second) o =>
    { o with world, second }

/-- **A chain of two bindings, with what it exchanged with each of them.** -/
def observed (b b' : FileBinding W) (log : Logger) : FileBinding (Observed W) :=
  b.asFirst.orElse b'.asSecond log

theorem run_perform_within (b : FileBinding V) (part : W → V) (put : V → W → W)
    (call : FileCall) (w : W) :
    let r := (b.perform call).run (part w)
    ((b.within part put).perform call).run w = ⟨r.value, r.log, put r.world w⟩ := by
  cases call <;> simp only [perform, within, Session.run_map, Session.run_within]

theorem run_perform_recorded (b : FileBinding W) (call : FileCall) (w : W)
    (exchanges : List FileExchange) :
    let r := (b.perform call).run w
    (b.recorded.perform call).run (w, exchanges) =
      ⟨r.value, r.log, r.world, exchanges ++ [⟨call, r.value⟩]⟩ := by
  cases call <;> simp only [perform, recorded, Session.run_map, Session.run_noting]

theorem run_perform_asFirst (b : FileBinding W) (call : FileCall) (w : W)
    (first second : List FileExchange) :
    let r := (b.perform call).run w
    (b.asFirst.perform call).run ⟨w, first, second⟩ =
      ⟨r.value, r.log, r.world, first ++ [⟨call, r.value⟩], second⟩ := by
  rw [asFirst, run_perform_within, run_perform_recorded]

theorem run_perform_asSecond (b : FileBinding W) (call : FileCall) (w : W)
    (first second : List FileExchange) :
    let r := (b.perform call).run w
    (b.asSecond.perform call).run ⟨w, first, second⟩ =
      ⟨r.value, r.log, r.world, first, second ++ [⟨call, r.value⟩]⟩ := by
  rw [asSecond, run_perform_within, run_perform_recorded]

/-! ### One call -/

/-- **A call of a chain** is put to the first binding, and to the second one if the first
could not be linked. -/
theorem exists_routedCall (b b' : FileBinding W) (log : Logger) (call : FileCall) (w : W) :
    ∃ (r : RoutedCall) (lines : List LogRecord) (w' : W),
      r.call = call ∧
      (r.second.isSome = true ↔ ∃ symbol reason, r.first = .error (.linkage symbol reason)) ∧
      ((b.orElse b' log).perform call).run w = ⟨r.answer, lines, w'⟩ ∧
      ∀ first second, ((b.observed b' log).perform call).run ⟨w, first, second⟩ =
        ⟨r.answer, lines, w', first ++ [r.firstExchange],
          second ++ r.secondExchange.toList⟩ := by
  rcases hr : (b.perform call).run w with ⟨answer, lines, w₁⟩
  cases h : isUnlinked answer with
  | false =>
    have hlinked : ¬∃ symbol reason, answer = .error (.linkage symbol reason) :=
      mt isUnlinked_iff.2 (Bool.eq_false_iff.1 h)
    refine ⟨⟨call, answer, none⟩, lines, w₁, rfl, iff_of_false Bool.false_ne_true hlinked, ?_,
      fun first second => ?_⟩
    · rw [run_orElse_of_linked (by rw [hr]; exact h), hr]
      rfl
    · have hfirst := b.run_perform_asFirst call w first second
      rw [hr] at hfirst
      rw [observed, run_orElse_of_linked (by rw [hfirst]; exact h), hfirst]
      exact congrArg (Outcome.mk _ _ <| Observed.mk _ _ ·) (List.append_nil second).symm
  | true =>
    rcases hr' : (b'.perform call).run w₁ with ⟨answer', lines', w₂⟩
    refine ⟨⟨call, answer, some answer'⟩,
      lines ++ (passLine log call.operation b.name b'.name answer ++ lines'), w₂, rfl,
      iff_of_true rfl (isUnlinked_iff.1 h), ?_, fun first second => ?_⟩
    · rw [run_orElse_of_unlinked (by rw [hr]; exact h), hr, hr']
      rfl
    · have hfirst := b.run_perform_asFirst call w first second
      have hsecond := b'.run_perform_asSecond call w₁ (first ++ [⟨call, answer⟩]) second
      rw [hr] at hfirst
      rw [hr'] at hsecond
      rw [observed, run_orElse_of_unlinked (by rw [hfirst]; exact h), hfirst, hsecond]
      rfl

/-! ### All calls -/

/-- **Which binding of a chain gets which call.** Whatever the two bindings do, the first is
asked for every call, once and in order; the second is asked for just those calls that the
first answered with a failure to link, in order; and the chain answers each call as the second
one did if it was asked, an answer that it could not be linked either included, and else as the
first one did. Observing the bindings changes nothing about the chain. -/
theorem orElse_routes (b b' : FileBinding W) (log : Logger) (calls : List FileCall) (w : W) :
    ∃ (course : List RoutedCall) (lines : List LogRecord) (w' : W),
      course.map RoutedCall.call = calls ∧
      (∀ r ∈ course, r.second.isSome = true ↔
        ∃ symbol reason, r.first = .error (.linkage symbol reason)) ∧
      ((b.orElse b' log).performAll calls).run w = ⟨course.map RoutedCall.answer, lines, w'⟩ ∧
      ∀ first second, ((b.observed b' log).performAll calls).run ⟨w, first, second⟩ =
        ⟨course.map RoutedCall.answer, lines, w',
          first ++ course.map RoutedCall.firstExchange,
          second ++ course.filterMap RoutedCall.secondExchange⟩ := by
  induction calls generalizing w with
  | nil =>
    refine ⟨[], [], w, rfl, fun r hr => absurd hr List.not_mem_nil, rfl, fun first second => ?_⟩
    simp only [performAll, Session.run_pure, List.map_nil, List.filterMap_nil, List.append_nil]
  | cons call calls ih =>
    obtain ⟨r, lines, w₁, hcall, hasked, hrun, hobserved⟩ := exists_routedCall b b' log call w
    obtain ⟨course, rest, w', hcalls, hall, hruns, hobserveds⟩ := ih w₁
    refine ⟨r :: course, lines ++ rest, w', ?_, List.forall_mem_cons.2 ⟨hasked, hall⟩, ?_,
      fun first second => ?_⟩
    · rw [List.map_cons, hcall, hcalls]
    · rw [run_performAll_cons, hrun, hruns, List.map_cons]
    · have hsecond : (r :: course).filterMap RoutedCall.secondExchange =
          r.secondExchange.toList ++ course.filterMap RoutedCall.secondExchange := by
        rw [List.filterMap_cons]
        cases r.secondExchange <;> rfl
      rw [run_performAll_cons, hobserved, hobserveds, List.map_cons, List.map_cons, hsecond,
        List.append_assoc, List.append_assoc]
      rfl

end FileBinding

end HostAccess
