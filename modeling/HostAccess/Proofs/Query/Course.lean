import HostAccess.Proofs.Bytes
import HostAccess.Query

/-!
# The course of a sized query

A kernel may answer each call differently, so what a query does is described by the answers
it got. All its attempts but the last found their buffer too small
(`HostAccess.SizedQuery.TooSmall`), and the last one ended in one of five ways
(`HostAccess.SizedQuery.Ending`). The two together are a course
(`HostAccess.SizedQuery.Course`), which says what was called, written and answered.

One of the five ways is no answer: the probe asks for `2 ^ 63` bytes or more, and the program
stops before the fetch.

* `HostAccess.SizedQuery.nonempty_course`: from every world there is a course within the
  bound, whatever the kernel;
* `HostAccess.SizedQuery.Course.run_attempt`: the query does what a course says;
* `HostAccess.SizedQuery.Course.traced`: the kernel that keeps a record of its calls has
  the same courses, and records exactly their calls;
* `HostAccess.SizedQuery.run_alternates`: the main result, for a whole query.

The query itself counts the retries that are left, while a course counts those done. Both
are kept below the bound, so the subtractions never saturate.
-/

namespace HostAccess

/-- What a call asks about. -/
def KernelCall.key : KernelCall → QueryKey
  | .probe key => key
  | .fetch key _ => key

/-- Whether a call asks for a size. -/
@[simp]
def KernelCall.isProbe : KernelCall → Bool
  | .probe _ => true
  | .fetch _ _ => false

/-- Whether a call asks for the data. -/
@[simp]
def KernelCall.isFetch : KernelCall → Bool
  | .probe _ => false
  | .fetch _ _ => true

namespace SizedQuery

variable {W : Type} (q : SizedQuery) (kernel : Kernel W) (key : QueryKey)

/-! ### Attempts -/

/-- **Attempts that all find their buffer too small**, with the sizes of the buffers: each
probe is answered, and the fetch after it gets what was probed and the slack. -/
inductive TooSmall : W → List Nat → W → Prop where
  | none (w : W) : TooSmall w [] w
  | attempt {w w₁ w₂ w' : W} {size : Nat} {sizes : List Nat}
      (probe : kernel.requiredSize key w = (.ok size, w₁)) (fits : size + q.slack < 2 ^ 63)
      (fetch : kernel.fetch key (size + q.slack) w₁ = (.error .undersized, w₂))
      (more : TooSmall w₂ sizes w') : TooSmall w ((size + q.slack) :: sizes) w'

/-- The code of a failed probe; one that claims to be too small stands for lack of memory. -/
def probeCode : QueryError → Int32
  | .undersized => 12
  | .os code => code

/-- The line of a query that delivers `answer` from a buffer of `size` bytes. -/
def deliveryLine (size retries : Nat) (answer : Bytes) : List LogRecord :=
  q.log.records .trace
    s!"{key.operation}: {(⟨size, answer.length, retries⟩ : QueryState).describe}"

/-- **The last attempt of a query**, after `retries` that found their buffer too small: its
calls, its lines, the answer, and the world it leaves. -/
inductive Ending (retries : Nat) (w : W) :
    List KernelCall → List LogRecord → Except HostError Bytes → W → Prop where
  | unprobed {w₁ : W} {e : QueryError} (probe : kernel.requiredSize key w = (.error e, w₁)) :
      Ending retries w [.probe key] []
        (.error (.os key.operation (probeCode e) (Errno.message (probeCode e)))) w₁
  | halted {w₁ : W} {size : Nat} (probe : kernel.requiredSize key w = (.ok size, w₁))
      (large : 2 ^ 63 ≤ size + q.slack) :
      Ending retries w [.probe key] [] (.error (.halted .capacityOverflow)) w₁
  | delivered {w₁ w₂ : W} {size : Nat} {fetched : Fetched} {answer : Bytes}
      (probe : kernel.requiredSize key w = (.ok size, w₁)) (fits : size + q.slack < 2 ^ 63)
      (fetch : kernel.fetch key (size + q.slack) w₁ = (.ok fetched, w₂))
      (front : answer = (Bytes.zeroExtend (size + q.slack) fetched.written).take
        (min fetched.reported (size + q.slack))) :
      Ending retries w [.probe key, .fetch key (size + q.slack)]
        (q.deliveryLine key (size + q.slack) retries answer) (.ok answer) w₂
  | refused {w₁ w₂ : W} {size : Nat} {code : Int32}
      (probe : kernel.requiredSize key w = (.ok size, w₁)) (fits : size + q.slack < 2 ^ 63)
      (fetch : kernel.fetch key (size + q.slack) w₁ = (.error (.os code), w₂)) :
      Ending retries w [.probe key, .fetch key (size + q.slack)] []
        (.error (.os key.operation code (Errno.message code))) w₂
  | exhausted {w₁ w₂ : W} {size : Nat} (bound : retries = q.maxRetries)
      (probe : kernel.requiredSize key w = (.ok size, w₁)) (fits : size + q.slack < 2 ^ 63)
      (fetch : kernel.fetch key (size + q.slack) w₁ = (.error .undersized, w₂)) :
      Ending retries w [.probe key, .fetch key (size + q.slack)] []
        (.error (.retriesExhausted key.operation ⟨size + q.slack, 0, q.maxRetries⟩)) w₂

/-- The calls of attempts with buffers of the given sizes. -/
def rounds (sizes : List Nat) : List KernelCall :=
  sizes.flatMap fun size => [.probe key, .fetch key size]

/-- The line of the retry with a given number, after a buffer of `size` bytes. -/
def retryLine (number size : Nat) : List LogRecord :=
  q.log.records .trace s!"{key.operation}: undersized at {size} bytes, retry {number}"

/-- The lines about retries, numbered from `first`. -/
def retryLines (first : Nat) (sizes : List Nat) : List LogRecord :=
  (sizes.zipIdx first).flatMap fun (size, number) => q.retryLine key number size

/-- **The course of a query** from a world, after `done` retries. -/
structure Course (done : Nat) (w : W) where
  /-- The sizes of the buffers that were too small. -/
  sizes : List Nat
  /-- The world of the last attempt. -/
  middle : W
  /-- The calls of the last attempt. -/
  last : List KernelCall
  /-- The lines of the last attempt. -/
  log : List LogRecord
  value : Except HostError Bytes
  after : W
  tooSmall : q.TooSmall kernel key w sizes middle
  bounded : done + sizes.length ≤ q.maxRetries
  ending : q.Ending kernel key (done + sizes.length) middle last log value after

namespace Course

variable {q kernel key} {done : Nat} {w : W}

/-- All calls of a course. -/
def calls (c : q.Course kernel key done w) : List KernelCall :=
  rounds key c.sizes ++ c.last

/-- All lines of a course. -/
def lines (c : q.Course kernel key done w) : List LogRecord :=
  q.retryLines key (done + 1) c.sizes ++ c.log

end Course

/-! ### Attempts that fail -/

section TooSmall

variable {q kernel key} {w w' : W}

/-- Attempts that fail can be cut anywhere. -/
theorem tooSmall_append_iff {front back : List Nat} :
    q.TooSmall kernel key w (front ++ back) w' ↔
      ∃ mid, q.TooSmall kernel key w front mid ∧ q.TooSmall kernel key mid back w' := by
  induction front generalizing w with
  | nil =>
    refine ⟨fun h => ⟨w, .none w, h⟩, ?_⟩
    rintro ⟨mid, ⟨⟩, h⟩
    exact h
  | cons size front ih =>
    constructor
    · rintro (_ | ⟨probe, fits, fetch, more⟩)
      obtain ⟨mid, hfront, hback⟩ := ih.1 more
      exact ⟨mid, .attempt probe fits fetch hfront, hback⟩
    · rintro ⟨mid, _ | ⟨probe, fits, fetch, hfront⟩, hback⟩
      exact .attempt probe fits fetch (ih.2 ⟨mid, hfront, hback⟩)

theorem tooSmall_singleton_iff {size : Nat} :
    q.TooSmall kernel key w [size] w' ↔ ∃ probed w₁,
      kernel.requiredSize key w = (.ok probed, w₁) ∧ probed + q.slack < 2 ^ 63 ∧
      kernel.fetch key (probed + q.slack) w₁ = (.error .undersized, w') ∧
      size = probed + q.slack := by
  constructor
  · rintro (_ | ⟨probe, fits, fetch, more⟩)
    cases more
    exact ⟨_, _, probe, fits, fetch, rfl⟩
  · rintro ⟨probed, w₁, probe, fits, fetch, rfl⟩
    exact .attempt probe fits fetch (.none w')

end TooSmall

/-! ### One attempt -/

section Attempt

variable {q kernel key} {left size : Nat} {w w₁ w₂ : W}

theorem run_attempt_of_unprobed {e : QueryError}
    (probe : kernel.requiredSize key w = (.error e, w₁)) :
    (q.attempt kernel key left).run w =
      ⟨.error (.os key.operation (probeCode e) (Errno.message (probeCode e))), [], w₁⟩ := by
  rw [attempt, Session.run_consult_bind probe]
  cases e <;> rfl

theorem run_attempt_of_large (probe : kernel.requiredSize key w = (.ok size, w₁))
    (large : 2 ^ 63 ≤ size + q.slack) :
    (q.attempt kernel key left).run w = ⟨.error (.halted .capacityOverflow), [], w₁⟩ := by
  rw [attempt, Session.run_consult_bind probe]
  dsimp only
  rw [if_pos (Bytes.capacity_lt_iff.2 large), Session.run_pure]

theorem run_attempt_of_delivered {fetched : Fetched}
    (probe : kernel.requiredSize key w = (.ok size, w₁)) (fits : size + q.slack < 2 ^ 63)
    (fetch : kernel.fetch key (size + q.slack) w₁ = (.ok fetched, w₂)) :
    (q.attempt kernel key left).run w =
      ⟨.ok (fetched.delivered (size + q.slack)),
        q.deliveryLine key (size + q.slack) (q.maxRetries - left)
          (fetched.delivered (size + q.slack)), w₂⟩ := by
  rw [attempt, Session.run_consult_bind probe]
  dsimp only
  rw [if_neg (Bytes.not_capacity_lt fits), Session.run_consult_bind fetch]
  dsimp only
  rw [Session.run_log_bind, Session.run_pure, List.append_nil]
  rfl

theorem run_attempt_of_refused {code : Int32}
    (probe : kernel.requiredSize key w = (.ok size, w₁)) (fits : size + q.slack < 2 ^ 63)
    (fetch : kernel.fetch key (size + q.slack) w₁ = (.error (.os code), w₂)) :
    (q.attempt kernel key left).run w =
      ⟨.error (.os key.operation code (Errno.message code)), [], w₂⟩ := by
  rw [attempt, Session.run_consult_bind probe]
  dsimp only
  rw [if_neg (Bytes.not_capacity_lt fits), Session.run_consult_bind fetch]
  rfl

theorem run_attempt_zero (probe : kernel.requiredSize key w = (.ok size, w₁))
    (fits : size + q.slack < 2 ^ 63)
    (fetch : kernel.fetch key (size + q.slack) w₁ = (.error .undersized, w₂)) :
    (q.attempt kernel key 0).run w =
      ⟨.error (.retriesExhausted key.operation ⟨size + q.slack, 0, q.maxRetries⟩), [], w₂⟩ := by
  rw [attempt, Session.run_consult_bind probe]
  dsimp only
  rw [if_neg (Bytes.not_capacity_lt fits), Session.run_consult_bind fetch]
  rfl

theorem run_attempt_succ (probe : kernel.requiredSize key w = (.ok size, w₁))
    (fits : size + q.slack < 2 ^ 63)
    (fetch : kernel.fetch key (size + q.slack) w₁ = (.error .undersized, w₂)) :
    (q.attempt kernel key (left + 1)).run w =
      ⟨((q.attempt kernel key left).run w₂).value,
        q.retryLine key (q.maxRetries - (left + 1) + 1) (size + q.slack) ++
          ((q.attempt kernel key left).run w₂).log,
        ((q.attempt kernel key left).run w₂).world⟩ := by
  rw [attempt, Session.run_consult_bind probe]
  dsimp only
  rw [if_neg (Bytes.not_capacity_lt fits), Session.run_consult_bind fetch]
  dsimp only
  rw [Session.run_log_bind]
  rfl

theorem retryLines_cons (first size : Nat) (sizes : List Nat) :
    q.retryLines key first (size :: sizes) =
      q.retryLine key first size ++ q.retryLines key (first + 1) sizes := rfl

/-- Attempts that fail only shift the bound and write their lines. -/
theorem run_attempt_of_tooSmall (left : Nat) {sizes : List Nat} {mid : W}
    (small : q.TooSmall kernel key w sizes mid) (h : left + sizes.length ≤ q.maxRetries) :
    (q.attempt kernel key (left + sizes.length)).run w =
      ⟨((q.attempt kernel key left).run mid).value,
        q.retryLines key (q.maxRetries - (left + sizes.length) + 1) sizes ++
          ((q.attempt kernel key left).run mid).log,
        ((q.attempt kernel key left).run mid).world⟩ := by
  induction small with
  | none w => rfl
  | @attempt w w₁ w₂ w' size sizes probe fits fetch more ih =>
    rw [List.length_cons] at h ⊢
    have hfirst : q.maxRetries - (left + sizes.length) + 1 =
        q.maxRetries - (left + (sizes.length + 1)) + 1 + 1 := by omega
    rw [← Nat.add_assoc left, run_attempt_succ probe fits fetch, ih (by omega),
      retryLines_cons, hfirst, List.append_assoc]
    rfl

/-- The last attempt, with the retries that are left as the bound less those done. -/
theorem run_attempt_of_ending {last : List KernelCall} {log : List LogRecord}
    {value : Except HostError Bytes} {after : W}
    (ending : q.Ending kernel key (q.maxRetries - left) w last log value after)
    (h : left ≤ q.maxRetries) :
    (q.attempt kernel key left).run w = ⟨value, log, after⟩ := by
  cases ending with
  | unprobed probe => exact run_attempt_of_unprobed probe
  | halted probe large => exact run_attempt_of_large probe large
  | @delivered w₁ _ size fetched answer probe fits fetch front =>
    rw [Bytes.take_zeroExtend (Nat.min_le_right ..)] at front
    rw [front]
    exact run_attempt_of_delivered probe fits fetch
  | refused probe fits fetch => exact run_attempt_of_refused probe fits fetch
  | exhausted bound probe fits fetch =>
    -- The bound is reached only if no retry is left.
    obtain rfl : left = 0 := by omega
    exact run_attempt_zero probe fits fetch

end Attempt

/-! ### Courses -/

section Courses

variable {done : Nat} {w : W}

/-- An attempt is the last one, or it finds its buffer too small and there is a retry left. -/
theorem ending_or_tooSmall (retries : Nat) (w : W) :
    (∃ last log value after, q.Ending kernel key retries w last log value after) ∨
      (retries ≠ q.maxRetries ∧ ∃ size w', q.TooSmall kernel key w [size] w') := by
  rcases probe : kernel.requiredSize key w with ⟨e | size, w₁⟩
  · exact .inl ⟨_, _, _, _, .unprobed probe⟩
  · rcases Nat.lt_or_ge (size + q.slack) (2 ^ 63) with fits | large
    · rcases fetch : kernel.fetch key (size + q.slack) w₁ with ⟨(_ | code) | fetched, w₂⟩
      · by_cases bound : retries = q.maxRetries
        · exact .inl ⟨_, _, _, _, .exhausted bound probe fits fetch⟩
        · exact .inr ⟨bound, _, _, tooSmall_singleton_iff.2 ⟨_, _, probe, fits, fetch, rfl⟩⟩
      · exact .inl ⟨_, _, _, _, .refused probe fits fetch⟩
      · exact .inl ⟨_, _, _, _, .delivered probe fits fetch rfl⟩
    · exact .inl ⟨_, _, _, _, .halted probe large⟩

/-- **There is a course from every world**, by induction on the retries that are left. -/
theorem nonempty_course (h : done ≤ q.maxRetries) (w : W) :
    Nonempty (q.Course kernel key done w) := by
  generalize hleft : q.maxRetries - done = left
  induction left generalizing done w with
  | zero =>
    obtain ⟨_, _, _, _, ending⟩ | ⟨hne, -⟩ := ending_or_tooSmall q kernel key done w
    · exact ⟨⟨[], w, _, _, _, _, .none w, h, ending⟩⟩
    · omega
  | succ left ih =>
    obtain ⟨_, _, _, _, ending⟩ | ⟨hne, size, w', small⟩ :=
      ending_or_tooSmall q kernel key done w
    · exact ⟨⟨[], w, _, _, _, _, .none w, h, ending⟩⟩
    · -- The attempt costs one retry, and the rest of the course starts where it ended.
      have hdone : done + 1 ≤ q.maxRetries := by omega
      obtain ⟨c⟩ := ih hdone w' (by omega)
      have hlength : done + (size :: c.sizes).length = done + 1 + c.sizes.length := by
        rw [List.length_cons]
        omega
      exact ⟨⟨size :: c.sizes, c.middle, c.last, c.log, c.value, c.after,
        tooSmall_append_iff.2 ⟨w', small, c.tooSmall⟩, hlength ▸ c.bounded,
        hlength ▸ c.ending⟩⟩

namespace Course

variable {q kernel key}

/-- **A query does what its course says.** -/
theorem run_attempt (c : q.Course kernel key done w) :
    (q.attempt kernel key (q.maxRetries - done)).run w = ⟨c.value, c.lines, c.after⟩ := by
  -- The query counts down what the course counts up.
  have hbound := c.bounded
  have hleft : q.maxRetries - (done + c.sizes.length) + c.sizes.length =
      q.maxRetries - done := by omega
  have hending := c.ending
  rw [show done + c.sizes.length = q.maxRetries - (q.maxRetries - (done + c.sizes.length)) by
    omega] at hending
  rw [← hleft, run_attempt_of_tooSmall _ c.tooSmall (by omega),
    run_attempt_of_ending hending (by omega), hleft, lines,
    show q.maxRetries - (q.maxRetries - done) + 1 = done + 1 by omega]

end Course

end Courses

/-! ### The calls -/

section Calls

variable {q kernel key} {done : Nat} {w w' : W} (calls : List KernelCall)

theorem requiredSize_traced {answer : Except QueryError Nat}
    (probe : kernel.requiredSize key w = (answer, w')) :
    kernel.traced.requiredSize key (w, calls) = (answer, w', calls ++ [.probe key]) := by
  simp only [Kernel.traced, probe]

theorem fetch_traced {size : Nat} {answer : Except QueryError Fetched}
    (fetch : kernel.fetch key size w = (answer, w')) :
    kernel.traced.fetch key size (w, calls) = (answer, w', calls ++ [.fetch key size]) := by
  simp only [Kernel.traced, fetch]

theorem TooSmall.traced {sizes : List Nat} (small : q.TooSmall kernel key w sizes w') :
    q.TooSmall kernel.traced key (w, calls) sizes (w', calls ++ rounds key sizes) := by
  induction small generalizing calls with
  | none w =>
    rw [rounds, List.flatMap_nil, List.append_nil]
    exact .none _
  | attempt probe fits fetch more ih =>
    rw [rounds, List.flatMap_cons, ← List.append_assoc]
    refine .attempt (requiredSize_traced calls probe) fits ?_ (ih _)
    rw [fetch_traced _ fetch, List.append_assoc, List.singleton_append]

theorem Ending.traced {retries : Nat} {last : List KernelCall} {log : List LogRecord}
    {value : Except HostError Bytes} (ending : q.Ending kernel key retries w last log value w') :
    q.Ending kernel.traced key retries (w, calls) last log value (w', calls ++ last) := by
  cases ending with
  | unprobed probe => exact .unprobed (requiredSize_traced calls probe)
  | halted probe large => exact .halted (requiredSize_traced calls probe) large
  | delivered probe fits fetch front =>
    refine .delivered (requiredSize_traced calls probe) fits ?_ front
    rw [fetch_traced _ fetch, List.append_assoc, List.singleton_append]
  | refused probe fits fetch =>
    refine .refused (requiredSize_traced calls probe) fits ?_
    rw [fetch_traced _ fetch, List.append_assoc, List.singleton_append]
  | exhausted bound probe fits fetch =>
    refine .exhausted bound (requiredSize_traced calls probe) fits ?_
    rw [fetch_traced _ fetch, List.append_assoc, List.singleton_append]

theorem Ending.key_of_mem {retries : Nat} {last : List KernelCall} {log : List LogRecord}
    {value : Except HostError Bytes} (ending : q.Ending kernel key retries w last log value w')
    {call : KernelCall} (h : call ∈ last) : call.key = key := by
  cases ending <;> simp only [List.mem_cons, List.not_mem_nil, or_false] at h <;>
    rcases h with rfl | rfl <;> rfl

namespace Course

/-- **The course of a kernel that keeps a record**: the same, with its calls added. -/
def traced (c : q.Course kernel key done w) : q.Course kernel.traced key done (w, calls) where
  sizes := c.sizes
  middle := (c.middle, calls ++ rounds key c.sizes)
  last := c.last
  log := c.log
  value := c.value
  after := (c.after, calls ++ c.calls)
  tooSmall := c.tooSmall.traced calls
  bounded := c.bounded
  ending := by
    rw [Course.calls, ← List.append_assoc]
    exact c.ending.traced _

/-- All calls of a course are about one key. -/
theorem key_of_mem_calls (c : q.Course kernel key done w) {call : KernelCall}
    (h : call ∈ c.calls) : call.key = key := by
  rw [Course.calls, List.mem_append, rounds, List.mem_flatMap] at h
  rcases h with ⟨size, -, h⟩ | h
  · simp only [List.mem_cons, List.not_mem_nil, or_false] at h
    rcases h with rfl | rfl <;> rfl
  · exact c.ending.key_of_mem h

end Course

end Calls

/-! ### Whole queries -/

section Run

variable {q kernel key} {retries : Nat} {w : W}

variable (key) in
theorem countP_rounds (sizes : List Nat) :
    (rounds key sizes).countP KernelCall.isProbe = sizes.length ∧
      (rounds key sizes).countP KernelCall.isFetch = sizes.length := by
  induction sizes with
  | nil => exact ⟨rfl, rfl⟩
  | cons size sizes ih => simpa [rounds, List.countP_cons] using ih

theorem Ending.countP_last {last : List KernelCall} {log : List LogRecord}
    {value : Except HostError Bytes} {after : W}
    (ending : q.Ending kernel key retries w last log value after) :
    last.countP KernelCall.isProbe = 1 ∧ last.countP KernelCall.isFetch ≤ 1 := by
  cases ending <;> simp [List.countP_cons]

/-- An ending that gives up found its buffer too small, with no retry left. -/
theorem Ending.tooSmall_of_retriesExhausted {last : List KernelCall} {log : List LogRecord}
    {operation : String} {state : QueryState} {after : W}
    (ending : q.Ending kernel key retries w last log
      (.error (.retriesExhausted operation state)) after) :
    retries = q.maxRetries ∧ operation = key.operation ∧
      ∃ size, q.TooSmall kernel key w [size] after ∧ state = ⟨size, 0, q.maxRetries⟩ := by
  cases ending with
  | exhausted bound probe fits fetch =>
    exact ⟨bound, rfl, _, tooSmall_singleton_iff.2 ⟨_, _, probe, fits, fetch, rfl⟩, rfl⟩

/-- An ending stops the program if its probe asks for more than a buffer can hold. -/
theorem Ending.halted_iff {last : List KernelCall} {log : List LogRecord}
    {value : Except HostError Bytes} {after : W}
    (ending : q.Ending kernel key retries w last log value after) (why : Halt) :
    value = .error (.halted why) ↔ why = .capacityOverflow ∧
      ∃ size w₁, kernel.requiredSize key w = (.ok size, w₁) ∧ 2 ^ 63 ≤ size + q.slack := by
  -- Where the probe asks for less, its size is that of the ending.
  have less {size : Nat} {w₁ : W} (probe : kernel.requiredSize key w = (.ok size, w₁))
      (fits : size + q.slack < 2 ^ 63) :
      ¬∃ size w₁, kernel.requiredSize key w = (.ok size, w₁) ∧ 2 ^ 63 ≤ size + q.slack := by
    rintro ⟨size', w', probe', large⟩
    rw [probe] at probe'
    cases probe'
    omega
  cases ending with
  | unprobed probe => simp [probe]
  | halted probe large =>
    refine ⟨?_, ?_⟩
    · rintro ⟨⟩
      exact ⟨rfl, _, _, probe, large⟩
    · rintro ⟨rfl, -⟩
      rfl
  | delivered probe fits => exact iff_of_false (by simp) fun h => less probe fits h.2
  | refused probe fits => exact iff_of_false (by simp) fun h => less probe fits h.2
  | exhausted _ probe fits => exact iff_of_false (by simp) fun h => less probe fits h.2

/-- A query gives up if one attempt more than it may retry finds its buffer too small. -/
theorem run_of_tooSmall {tried : List Nat} {size : Nat} {w' : W}
    (hlength : tried.length = q.maxRetries)
    (small : q.TooSmall kernel key w (tried ++ [size]) w') :
    ((q.run kernel key).run w).value =
      .error (.retriesExhausted key.operation ⟨size, 0, q.maxRetries⟩) := by
  obtain ⟨mid, hfront, hlast⟩ := tooSmall_append_iff.1 small
  obtain ⟨probed, w₁, probe, fits, fetch, rfl⟩ := tooSmall_singleton_iff.1 hlast
  have hrun := run_attempt_of_tooSmall 0 hfront (by omega)
  rw [Nat.zero_add, hlength, run_attempt_zero probe fits fetch] at hrun
  rw [run, hrun]

variable (q kernel key)

/-- A query follows a course, and if the kernel keeps a record the course is recorded. -/
theorem exists_course (w : W) (calls : List KernelCall) :
    ∃ c : q.Course kernel key 0 w,
      (q.run kernel key).run w = ⟨c.value, c.lines, c.after⟩ ∧
      (q.run kernel.traced key).run (w, calls) = ⟨c.value, c.lines, c.after, calls ++ c.calls⟩ := by
  obtain ⟨c⟩ := nonempty_course q kernel key (Nat.zero_le _) w
  exact ⟨c, c.run_attempt, (c.traced calls).run_attempt⟩

/-- **A query alternates probes and fetches.** From every world it follows a course: each
answered probe is followed by a fetch with exactly the probed size and the slack, the
attempts whose buffer is too small are no more than the bound, and the last attempt is of
one of the five kinds. It gives up only if one attempt more than the bound finds its buffer
too small, and then says the size of the last. It stops the program only if the last probe asks
for `2 ^ 63` bytes or more, slack included; as long as every probe asks for less, it never
does. -/
theorem run_alternates (w : W) (calls : List KernelCall) :
    ∃ c : q.Course kernel key 0 w,
      (q.run kernel key).run w = ⟨c.value, c.lines, c.after⟩ ∧
      (q.run kernel.traced key).run (w, calls) = ⟨c.value, c.lines, c.after, calls ++ c.calls⟩ ∧
      c.calls.countP KernelCall.isProbe ≤ q.maxRetries + 1 ∧
      c.calls.countP KernelCall.isFetch ≤ q.maxRetries + 1 ∧
      (∀ operation state, c.value = .error (.retriesExhausted operation state) ↔
        operation = key.operation ∧ ∃ tried size w', tried.length = q.maxRetries ∧
          q.TooSmall kernel key w (tried ++ [size]) w' ∧ state = ⟨size, 0, q.maxRetries⟩) ∧
      ∀ why, c.value = .error (.halted why) ↔ why = .capacityOverflow ∧
        ∃ size w', kernel.requiredSize key c.middle = (.ok size, w') ∧
          2 ^ 63 ≤ size + q.slack := by
  obtain ⟨c, hrun, htraced⟩ := exists_course q kernel key w calls
  have hbound := c.bounded
  obtain ⟨hprobes, hfetches⟩ := countP_rounds key c.sizes
  obtain ⟨hprobe, hfetch⟩ := c.ending.countP_last
  refine ⟨c, hrun, htraced, ?_, ?_, fun operation state => ⟨?_, ?_⟩, c.ending.halted_iff⟩
  · rw [Course.calls, List.countP_append]
    omega
  · rw [Course.calls, List.countP_append]
    omega
  · intro hvalue
    have hending := c.ending
    rw [hvalue] at hending
    obtain ⟨hretries, hoperation, size, small, hstate⟩ := hending.tooSmall_of_retriesExhausted
    exact ⟨hoperation, c.sizes, size, c.after, by omega,
      tooSmall_append_iff.2 ⟨c.middle, c.tooSmall, small⟩, hstate⟩
  · rintro ⟨rfl, tried, size, w', hlength, small, rfl⟩
    rw [← run_of_tooSmall hlength small, hrun]

/-- A kernel that asks for `2 ^ 63` bytes is probed, and there is no fetch. -/
theorem no_fetch_beyond_capacity :
    let kernel : Kernel Unit := ⟨fun _ w => (.ok (2 ^ 63), w), fun _ _ w => (.ok ⟨0, []⟩, w)⟩
    let q : SizedQuery := { log := .silent }
    2 ^ 63 + q.slack < 2 ^ 64 ∧
      (q.run kernel.traced .allProcesses).run ((), []) =
        ⟨.error (.halted .capacityOverflow), [], (), [.probe .allProcesses]⟩ := by
  intro kernel q
  have probe : kernel.traced.requiredSize .allProcesses ((), []) =
      (.ok (2 ^ 63), (), [.probe .allProcesses]) := rfl
  exact ⟨by decide, run_attempt_of_large probe (Nat.le_add_right _ _)⟩

end Run

end SizedQuery

end HostAccess
