import HostAccess.Proofs.Query.Growing
import Mathlib.Data.List.Nodup

/-!
# All that a read with a growing buffer asks and answers

A read with a growing buffer puts the same question again and again, each time with the double
of the last buffer, and whoever answers may answer differently each time. What it does is told
by the answers it got, each with the size of the buffer (`HostAccess.BufferReading`). An answer that
refuses, finds nothing or leaves room settles the matter (`HostAccess.BufferReading.verdict?`), and
one that fills its buffer settles nothing.

`HostAccess.BufferReadings` says which answers a read can have got and what it makes of them. It
has a constructor for each way to go on, and every read is one of these:
`HostAccess.exists_bufferReadings`. A size within the limit that no buffer can have stops the
program, so the sizes never come to an end because one cannot be doubled: what is tried is below
`2 ^ 63`, and its double is a machine word.

* `HostAccess.BufferReadings.sizes`, `HostAccess.BufferReadings.stops`,
  `HostAccess.BufferReadings.exhausts`: the sizes, where the read stops, and what it has tried if
  nothing was settled;
* `HostAccess.readGrowing_untruncated`: the main result, for any answers and for an object of
  which each answer copies what fits.
-/

namespace HostAccess

/-! ### Answers -/

/-- An answer, and the size of the buffer that it was given. -/
structure BufferReading where
  size : Nat
  answer : Except HostError GrowingRead

/-- What an answer settles: a refusal, that there is nothing, or the front of the buffer, as
many bytes as were reported. An answer that fills its buffer settles nothing. -/
def BufferReading.verdict? (r : BufferReading) : Option (Except HostError (Option Bytes)) :=
  match r.answer with
  | .error e => some (.error e)
  | .ok .absent => some (.ok none)
  | .ok (.filled reported written) =>
    if reported < r.size then
      some (.ok (some ((Bytes.zeroExtend r.size written).take reported)))
    else none

theorem BufferReading.verdict?_of_room {size reported : Nat} (h : reported < size)
    (written : Bytes) : verdict? ⟨size, .ok (.filled reported written)⟩ =
      some (.ok (some (Bytes.zeroExtend reported written))) :=
  (if_pos h).trans (by rw [Bytes.take_zeroExtend (Nat.le_of_lt h)])

theorem BufferReading.verdict?_of_full {size reported : Nat} (h : ¬reported < size)
    (written : Bytes) : verdict? ⟨size, .ok (.filled reported written)⟩ = none :=
  if_neg h

theorem BufferReading.verdict?_eq_error_iff {r : BufferReading} {e : HostError} :
    r.verdict? = some (.error e) ↔ r.answer = .error e := by
  obtain ⟨size, answer⟩ := r
  rcases answer with e' | ⟨reported, written⟩ | _
  · simp [verdict?]
  · by_cases hroom : reported < size
    · simp [verdict?_of_room hroom]
    · simp [verdict?_of_full hroom]
  · simp [verdict?]

variable {W : Type} {what : String} {smallest largest size : Nat}
  {read : Nat → Session W (Except HostError GrowingRead)} {w w' : W}

theorem le_doubles (size j : Nat) : size ≤ size * 2 ^ j :=
  Nat.le_mul_of_pos_right _ (Nat.two_pow_pos j)

/-- The same reads, with a note of each. -/
def recorded (read : Nat → Session W (Except HostError GrowingRead)) (size : Nat) :
    Session (W × List BufferReading) (Except HostError GrowingRead) :=
  (read size).noting fun answer => ⟨size, answer⟩

/-- **What a read asks, and what it makes of the answers**, from buffers of `size` bytes on. -/
inductive BufferReadings (what : String) (largest : Nat)
    (read : Nat → Session W (Except HostError GrowingRead)) :
    Nat → List BufferReading → Except HostError (Option Bytes) → Prop where
  /-- The buffer would be above the limit. -/
  | beyond {size : Nat} (lt : largest < size) :
      BufferReadings what largest read size [] (.error (.pathTooLong what largest))
  /-- The buffer would be within the limit, and no buffer is so large. -/
  | halted {size : Nat} (le : size ≤ largest) (large : 2 ^ 63 ≤ size) :
      BufferReadings what largest read size [] (.error (.halted .capacityOverflow))
  /-- The answer settles the matter. -/
  | settled {size : Nat} {r : BufferReading} {value : Except HostError (Option Bytes)}
      (size_eq : r.size = size) (le : size ≤ largest) (fits : size < 2 ^ 63)
      (asked : ∃ w, ((read size).run w).value = r.answer) (verdict : r.verdict? = some value) :
      BufferReadings what largest read size [r] value
  /-- The answer fills the buffer. -/
  | full {size : Nat} {r : BufferReading} {more : List BufferReading}
      {value : Except HostError (Option Bytes)}
      (size_eq : r.size = size) (le : size ≤ largest) (fits : size < 2 ^ 63)
      (asked : ∃ w, ((read size).run w).value = r.answer) (verdict : r.verdict? = none)
      (next : BufferReadings what largest read (2 * size) more value) :
      BufferReadings what largest read size (r :: more) value

namespace BufferReadings

variable {readings : List BufferReading} {value : Except HostError (Option Bytes)}

/-- The sizes are the doubles of the first, without gaps. -/
theorem sizes (h : BufferReadings what largest read size readings value) :
    readings.map BufferReading.size = (List.range readings.length).map fun j => size * 2 ^ j := by
  induction h with
  | beyond => rfl
  | halted => rfl
  | settled size_eq => simp [size_eq]
  | @full size r more value size_eq _ _ _ _ _ ih =>
    have hdouble : (fun j => 2 * size * 2 ^ j) = (fun j => size * 2 ^ j) ∘ Nat.succ := by
      funext j
      rw [Function.comp_apply, Nat.succ_eq_add_one, pow_succ]
      ring
    rw [List.map_cons, ih, List.length_cons, List.range_succ_eq_map, List.map_cons, List.map_map,
      hdouble, size_eq, pow_zero, Nat.mul_one]

/-- What is tried is within the limit, and a buffer can be so large. -/
theorem within (h : BufferReadings what largest read size readings value) :
    ∀ r ∈ readings, r.size ≤ largest ∧ r.size < 2 ^ 63 := by
  induction h with
  | beyond => simp
  | halted => simp
  | settled size_eq le fits =>
    rintro r hr
    rw [List.mem_singleton.1 hr, size_eq]
    exact ⟨le, fits⟩
  | full size_eq le fits _ _ _ ih => exact List.forall_mem_cons.2 ⟨size_eq ▸ ⟨le, fits⟩, ih⟩

theorem asked (h : BufferReadings what largest read size readings value) :
    ∀ r ∈ readings, ∃ w, ((read r.size).run w).value = r.answer := by
  induction h with
  | beyond => simp
  | halted => simp
  | settled size_eq _ _ asked =>
    rintro r hr
    rw [List.mem_singleton.1 hr, size_eq]
    exact asked
  | full size_eq _ _ asked _ _ ih => exact List.forall_mem_cons.2 ⟨size_eq ▸ asked, ih⟩

/-- **The read stops where the matter is settled**, and its value is what was settled. -/
theorem stops (h : BufferReadings what largest read size readings value)
    {before after : List BufferReading} {r : BufferReading} {v : Except HostError (Option Bytes)}
    (hr : readings = before ++ r :: after) (hv : r.verdict? = some v) :
    after = [] ∧ value = v := by
  induction h generalizing before with
  | beyond => simp at hr
  | halted => simp at hr
  | settled _ _ _ _ verdict =>
    obtain ⟨rfl, hcons⟩ := List.append_eq_singleton_iff.1 hr.symm |>.resolve_right (by simp)
    obtain ⟨rfl, rfl⟩ := List.cons.inj hcons
    exact ⟨rfl, Option.some.inj (verdict.symm.trans hv)⟩
  | full _ _ _ _ verdict _ ih =>
    cases before with
    | nil =>
      obtain ⟨rfl, -⟩ := List.cons.inj hr
      rw [verdict] at hv
      cases hv
    | cons _ before => exact ih (List.cons.inj hr).2

/-- **If nothing was settled**, the limit was reached with sizes that buffers can have, or else
the program stopped. -/
theorem unsettled (h : BufferReadings what largest read size readings value)
    (hfull : ∀ r ∈ readings, r.verdict? = none) :
    (value = .error (.pathTooLong what largest) ∧
      ∀ j, size * 2 ^ j ≤ largest → size * 2 ^ j < 2 ^ 63) ∨
    (value = .error (.halted .capacityOverflow) ∧
      ∃ j, size * 2 ^ j ≤ largest ∧ 2 ^ 63 ≤ size * 2 ^ j) := by
  induction h with
  | @beyond size lt =>
    refine .inl ⟨rfl, fun j hj => ?_⟩
    have hsize := le_doubles size j
    omega
  | @halted size le large =>
    exact .inr ⟨rfl, 0, by rwa [pow_zero, Nat.mul_one], by rwa [pow_zero, Nat.mul_one]⟩
  | settled _ _ _ _ verdict =>
    rw [hfull _ List.mem_cons_self] at verdict
    cases verdict
  | @full size r more value _ _ fits _ _ _ ih =>
    -- The sizes but the first are those of the read with the double.
    have hpow (j : Nat) : size * 2 ^ (j + 1) = 2 * size * 2 ^ j := by ring
    obtain ⟨rfl, hless⟩ | ⟨rfl, j, hle, hlarge⟩ :=
      ih fun r hr => hfull r (List.mem_cons_of_mem _ hr)
    · refine .inl ⟨rfl, fun j => ?_⟩
      cases j with
      | zero => exact fun _ => by rwa [pow_zero, Nat.mul_one]
      | succ j => exact hpow j ▸ hless j
    · exact .inr ⟨rfl, j + 1, hpow j ▸ hle, hpow j ▸ hlarge⟩

/-- **If nothing was settled, every size was tried** that is within the limit and that a buffer
can have. -/
theorem exhausts (h : BufferReadings what largest read size readings value)
    (hfull : ∀ r ∈ readings, r.verdict? = none) {j : Nat} (hj : size * 2 ^ j ≤ largest)
    (hfits : size * 2 ^ j < 2 ^ 63) : ∃ r ∈ readings, r.size = size * 2 ^ j := by
  induction h generalizing j with
  | @beyond size lt =>
    have hsize := le_doubles size j
    omega
  | @halted size le large =>
    have hsize := le_doubles size j
    omega
  | settled _ _ _ _ verdict =>
    rw [hfull _ List.mem_cons_self] at verdict
    cases verdict
  | @full size r more value size_eq _ _ _ _ _ ih =>
    cases j with
    | zero => exact ⟨r, List.mem_cons_self, by rw [size_eq, pow_zero, Nat.mul_one]⟩
    | succ j =>
      have hpow : size * 2 ^ (j + 1) = 2 * size * 2 ^ j := by ring
      rw [hpow] at hj hfits ⊢
      obtain ⟨r', hr', hsize⟩ := ih (fun r hr => hfull r (List.mem_cons_of_mem _ hr)) hj hfits
      exact ⟨r', List.mem_cons_of_mem _ hr', hsize⟩

theorem exists_size (h : BufferReadings what largest read size readings value) {r : BufferReading}
    (hr : r ∈ readings) : ∃ j, r.size = size * 2 ^ j := by
  obtain ⟨j, -, hj⟩ := List.mem_map.1 (h.sizes ▸ List.mem_map_of_mem hr)
  exact ⟨j, hj.symm⟩

/-- No size is tried twice. -/
theorem eq_of_size_eq (h : BufferReadings what largest read size readings value) (pos : 0 < size)
    {r r' : BufferReading} (hr : r ∈ readings) (hr' : r' ∈ readings) (heq : r.size = r'.size) :
    r = r' := by
  have hinj : Function.Injective fun j => size * 2 ^ j := fun i j hij =>
    Nat.pow_right_injective (Nat.le_refl 2) (Nat.eq_of_mul_eq_mul_left pos hij)
  have hnodup : (readings.map BufferReading.size).Nodup :=
    h.sizes ▸ List.Nodup.map hinj List.nodup_range
  exact List.inj_on_of_nodup_map hnodup hr hr' heq

/-- The limit lets some size be tried. -/
theorem ne_nil (h : BufferReadings what largest read size readings value) (hle : size ≤ largest)
    (hfits : size < 2 ^ 63) : readings ≠ [] := by
  cases h with
  | beyond lt => exact absurd hle (Nat.not_le.2 lt)
  | halted _ large => exact absurd hfits (Nat.not_lt.2 large)
  | settled => exact List.cons_ne_nil _ _
  | full => exact List.cons_ne_nil _ _

/-- **Few sizes are tried**: one more than the limit has doubles of one below it. -/
theorem length_le (h : BufferReadings what largest read size readings value) (pos : 0 < size)
    {k : Nat} (hlargest : largest ≤ 2 ^ k) : readings.length ≤ k + 1 := by
  rcases hlength : readings.length with _ | n
  · exact Nat.zero_le _
  · have hlast : size * 2 ^ n ∈ readings.map BufferReading.size := by
      rw [h.sizes, hlength]
      exact List.mem_map_of_mem (List.mem_range.2 (Nat.lt_succ_self n))
    obtain ⟨r, hr, hsize⟩ := List.mem_map.1 hlast
    have hpow : 2 ^ n ≤ 2 ^ k := calc
      2 ^ n ≤ size * 2 ^ n := Nat.le_mul_of_pos_left _ pos
      _ = r.size := hsize.symm
      _ ≤ largest := (h.within r hr).1
      _ ≤ 2 ^ k := hlargest
    exact Nat.succ_le_succ ((Nat.pow_le_pow_iff_right (by decide)).1 hpow)

/-- Nothing was settled exactly if every size within the limit that a buffer can have was tried
and found full. -/
theorem forall_full_iff (h : BufferReadings what largest read size readings value)
    (pos : 0 < size) : (∀ r ∈ readings, r.verdict? = none) ↔
      ∀ j, size * 2 ^ j ≤ largest → size * 2 ^ j < 2 ^ 63 →
        ∃ r ∈ readings, r.size = size * 2 ^ j ∧ r.verdict? = none := by
  constructor
  · intro hfull j hj hfits
    obtain ⟨r, hr, hsize⟩ := h.exhausts hfull hj hfits
    exact ⟨r, hr, hsize, hfull r hr⟩
  · intro htried r hr
    obtain ⟨j, hj⟩ := h.exists_size hr
    obtain ⟨hle, hfits⟩ := h.within r hr
    obtain ⟨r', hr', hsize, hnone⟩ := htried j (hj ▸ hle) (hj ▸ hfits)
    rwa [h.eq_of_size_eq pos hr hr' (hj.trans hsize.symm)]

/-- A failure is what an answer said, unless nothing was settled. -/
theorem value_eq_error_iff (h : BufferReadings what largest read size readings value)
    {e : HostError} : value = .error e ↔
      ((∀ r ∈ readings, r.verdict? = none) ∧ value = .error e) ∨
        ∃ r ∈ readings, r.answer = .error e := by
  constructor
  · rintro rfl
    by_cases hfull : ∀ r ∈ readings, r.verdict? = none
    · exact .inl ⟨hfull, rfl⟩
    · push Not at hfull
      obtain ⟨r, hr, hsome⟩ := hfull
      obtain ⟨v, hv⟩ := Option.ne_none_iff_exists'.1 hsome
      obtain ⟨before, after, hreadings⟩ := List.append_of_mem hr
      obtain ⟨-, rfl⟩ := h.stops hreadings hv
      exact .inr ⟨r, hr, BufferReading.verdict?_eq_error_iff.1 hv⟩
  · rintro (⟨-, hvalue⟩ | ⟨r, hr, hanswer⟩)
    · exact hvalue
    · obtain ⟨before, after, hreadings⟩ := List.append_of_mem hr
      exact (h.stops hreadings (BufferReading.verdict?_eq_error_iff.2 hanswer)).2

/-- **The value is that the limit was reached** exactly if nothing was settled with sizes that
buffers can have, unless that is what an answer said. -/
theorem value_eq_tooLong_iff (h : BufferReadings what largest read size readings value) :
    value = .error (.pathTooLong what largest) ↔
      ((∀ r ∈ readings, r.verdict? = none) ∧
        ∀ j, size * 2 ^ j ≤ largest → size * 2 ^ j < 2 ^ 63) ∨
      ∃ r ∈ readings, r.answer = .error (.pathTooLong what largest) := by
  refine h.value_eq_error_iff.trans (or_congr_left (and_congr_right fun hfull => ?_))
  obtain ⟨rfl, hless⟩ | ⟨rfl, j, hle, hlarge⟩ := h.unsettled hfull
  · exact iff_of_true rfl hless
  · exact iff_of_false (by simp) fun hless => Nat.not_lt.2 hlarge (hless j hle)

/-- **The program stops** exactly if nothing was settled and a size within the limit is larger
than a buffer can be, unless an answer stopped it. -/
theorem value_eq_halted_iff (h : BufferReadings what largest read size readings value) :
    value = .error (.halted .capacityOverflow) ↔
      ((∀ r ∈ readings, r.verdict? = none) ∧
        ∃ j, size * 2 ^ j ≤ largest ∧ 2 ^ 63 ≤ size * 2 ^ j) ∨
      ∃ r ∈ readings, r.answer = .error (.halted .capacityOverflow) := by
  refine h.value_eq_error_iff.trans (or_congr_left (and_congr_right fun hfull => ?_))
  obtain ⟨rfl, hless⟩ | ⟨rfl, hlarge⟩ := h.unsettled hfull
  · refine iff_of_false (by simp) ?_
    rintro ⟨j, hle, hlarge⟩
    exact Nat.not_lt.2 hlarge (hless j hle)
  · exact iff_of_true rfl hlarge

end BufferReadings

/-! ### Every read is one of these -/

theorem run_recorded (before : List BufferReading) : (recorded read size).run (w, before) =
    ⟨((read size).run w).value, ((read size).run w).log, ((read size).run w).world,
      before ++ [⟨size, ((read size).run w).value⟩]⟩ := rfl

section Step

variable {answer : Except HostError GrowingRead} {lines : List LogRecord}

/-- An answer that settles the matter ends the read. -/
theorem run_readFrom_settled {value : Except HostError (Option Bytes)} (pos : 0 < size)
    (hle : size ≤ largest) (hfits : size < 2 ^ 63)
    (h : (read size).run w = ⟨answer, lines, w'⟩)
    (hverdict : BufferReading.verdict? ⟨size, answer⟩ = some value) :
    (readFrom what largest read size pos).run w = ⟨value, lines, w'⟩ := by
  rcases answer with e | ⟨reported, written⟩ | _
  · obtain rfl := Option.some.inj hverdict
    exact run_readFrom_error pos hle hfits h
  · by_cases hroom : reported < size
    · rw [BufferReading.verdict?_of_room hroom] at hverdict
      obtain rfl := Option.some.inj hverdict
      exact run_readFrom_room pos hle hfits h hroom
    · rw [BufferReading.verdict?_of_full hroom] at hverdict
      cases hverdict
  · obtain rfl := Option.some.inj hverdict
    exact run_readFrom_absent pos hle hfits h

/-- An answer that settles nothing leaves all to the read with the double. -/
theorem run_readFrom_unsettled (pos : 0 < size) (hle : size ≤ largest) (hfits : size < 2 ^ 63)
    (h : (read size).run w = ⟨answer, lines, w'⟩)
    (hverdict : BufferReading.verdict? ⟨size, answer⟩ = none) :
    let rest := (readFrom what largest read (2 * size) (by omega)).run w'
    (readFrom what largest read size pos).run w =
      ⟨rest.value, lines ++ rest.log, rest.world⟩ := by
  rcases answer with e | ⟨reported, written⟩ | _
  · cases hverdict
  · have hfull : ¬reported < size := fun hroom => by
      rw [BufferReading.verdict?_of_room hroom] at hverdict
      cases hverdict
    exact run_readFrom_full pos hle hfits h (Nat.not_lt.1 hfull)
  · cases hverdict

end Step

/-- **Every read asks and answers in one of these ways**, and a record of its answers holds
just these. -/
theorem exists_bufferReadings (what : String) (largest : Nat)
    (read : Nat → Session W (Except HostError GrowingRead)) (pos : 0 < size) (w : W) :
    ∃ readings,
      BufferReadings what largest read size readings
        ((readFrom what largest read size pos).run w).value ∧
      Session.Notes (readFrom what largest read size pos)
        (readFrom what largest (recorded read) size pos) w readings := by
  -- on how far the size is from the limit, which each double comes nearer
  induction hn : largest + 1 - size using Nat.strong_induction_on generalizing size w with
  | _ n ih =>
    rcases Nat.lt_or_ge largest size with hbeyond | hle
    · refine ⟨[], ?_, fun before => ?_⟩
      · rw [run_readFrom_beyond pos hbeyond]
        exact .beyond hbeyond
      · rw [run_readFrom_beyond pos hbeyond, run_readFrom_beyond pos hbeyond, List.append_nil]
    rcases Nat.lt_or_ge size (2 ^ 63) with hfits | hlarge
    case inr =>
      refine ⟨[], ?_, fun before => ?_⟩
      · rw [run_readFrom_large pos hle hlarge]
        exact .halted hle hlarge
      · rw [run_readFrom_large pos hle hlarge, run_readFrom_large pos hle hlarge,
          List.append_nil]
    obtain ⟨answer, lines, w', hread⟩ : ∃ answer lines w', (read size).run w =
      ⟨answer, lines, w'⟩ := ⟨_, _, _, rfl⟩
    have hasked : ∃ w, ((read size).run w).value = answer := ⟨w, congrArg Outcome.value hread⟩
    have hnoted (before : List BufferReading) : (recorded read size).run (w, before) =
        ⟨answer, lines, w', before ++ [⟨size, answer⟩]⟩ := by
      rw [run_recorded, hread]
    cases hverdict : BufferReading.verdict? ⟨size, answer⟩ with
    | some value =>
      refine ⟨[⟨size, answer⟩], ?_, fun before => ?_⟩
      · rw [run_readFrom_settled pos hle hfits hread hverdict]
        exact .settled rfl hle hfits hasked hverdict
      · rw [run_readFrom_settled pos hle hfits hread hverdict,
          run_readFrom_settled pos hle hfits (hnoted before) hverdict]
    | none =>
      obtain ⟨more, hmore, hnotes⟩ := ih (largest + 1 - 2 * size) (by omega) (by omega) w' rfl
      refine ⟨⟨size, answer⟩ :: more, ?_, fun before => ?_⟩
      · rw [run_readFrom_unsettled pos hle hfits hread hverdict]
        exact .full rfl hle hfits hasked hverdict hmore
      · rw [run_readFrom_unsettled pos hle hfits hread hverdict,
          run_readFrom_unsettled pos hle hfits (hnoted before) hverdict, hnotes,
          List.append_assoc, List.singleton_append]

/-! ### Objects -/

section Object

variable {object : Bytes} {readings : List BufferReading} {value : Except HostError (Option Bytes)}

/-- **Each answer copies what fits of an object**, and reports how much that is. -/
def Copies (read : Nat → Session W (Except HostError GrowingRead)) (object : Bytes) : Prop :=
  ∀ size w, ((read size).run w).value =
    .ok (.filled (min object.length size) (object.take size))

/-- A buffer larger than the object holds all of it, and any other is full. -/
theorem Copies.verdict?_eq (h : Copies read object) {r : BufferReading}
    (hasked : ∃ w, ((read r.size).run w).value = r.answer) :
    r.verdict? = if object.length < r.size then some (.ok (some object)) else none := by
  obtain ⟨size, answer⟩ := r
  obtain ⟨w, hanswer⟩ := hasked
  obtain rfl := (h size w).symm.trans hanswer
  by_cases hroom : object.length < size
  · rw [if_pos hroom, BufferReading.verdict?_of_room (by omega), zeroExtend_min_take hroom]
  · rw [if_neg hroom, BufferReading.verdict?_of_full (by omega)]

/-- The read stops at the first buffer that is larger than the object. -/
theorem BufferReadings.length_of_least (h : BufferReadings what largest read size readings value)
    (hcopies : Copies read object) {j : Nat} (hroom : object.length < size * 2 ^ j)
    (hle : size * 2 ^ j ≤ largest) (hfits : size * 2 ^ j < 2 ^ 63)
    (hleast : ∀ i < j, size * 2 ^ i ≤ object.length) : readings.length = j + 1 := by
  induction h generalizing j with
  | @beyond size lt =>
    have hsize := le_doubles size j
    omega
  | @halted size le large =>
    have hsize := le_doubles size j
    omega
  | settled size_eq _ _ asked verdict =>
    rw [hcopies.verdict?_eq (size_eq ▸ asked), size_eq, Option.ite_none_right_eq_some] at verdict
    cases j with
    | zero => rfl
    | succ j =>
      have hfirst := hleast 0 (Nat.succ_pos j)
      omega
  | @full size r more value size_eq _ _ asked verdict _ ih =>
    rw [hcopies.verdict?_eq (size_eq ▸ asked), size_eq, ite_eq_right_iff] at verdict
    have hpow (i : Nat) : size * 2 ^ (i + 1) = 2 * size * 2 ^ i := by ring
    cases j with
    | zero =>
      rw [pow_zero, Nat.mul_one] at hroom
      exact absurd (verdict hroom) (Option.some_ne_none _)
    | succ j =>
      rw [hpow] at hroom hle hfits
      rw [List.length_cons, ih hroom hle hfits fun i hi =>
        hpow i ▸ hleast (i + 1) (Nat.succ_lt_succ hi)]

/-- If some buffer that may be tried is larger than the object, the object is read as a whole. -/
theorem BufferReadings.whole (h : BufferReadings what largest read size readings value)
    (hcopies : Copies read object) {j : Nat} (hroom : object.length < size * 2 ^ j)
    (hle : size * 2 ^ j ≤ largest) (hfits : size * 2 ^ j < 2 ^ 63) :
    value = .ok (some object) := by
  by_cases hfull : ∀ r ∈ readings, r.verdict? = none
  · obtain ⟨r, hr, hsize⟩ := h.exhausts hfull hle hfits
    have hnone := hfull r hr
    rw [hcopies.verdict?_eq (h.asked r hr), hsize, if_pos hroom] at hnone
    cases hnone
  · push Not at hfull
    obtain ⟨r, hr, hsome⟩ := hfull
    obtain ⟨before, after, hreadings⟩ := List.append_of_mem hr
    have hverdict : r.verdict? = some (.ok (some object)) := by
      rw [hcopies.verdict?_eq (h.asked r hr)] at hsome ⊢
      exact if_pos (by_contra fun hroom => hsome (if_neg hroom))
    exact (h.stops hreadings hverdict).2

/-- If no buffer that may be tried is larger than the object, each of them is full. -/
theorem BufferReadings.full_of_not_fits
    (h : BufferReadings what largest read size readings value) (hcopies : Copies read object)
    (hnone : ¬∃ j, object.length < size * 2 ^ j ∧ size * 2 ^ j ≤ largest ∧ size * 2 ^ j < 2 ^ 63) :
    ∀ r ∈ readings, r.verdict? = none := by
  intro r hr
  obtain ⟨j, hj⟩ := h.exists_size hr
  rw [hcopies.verdict?_eq (h.asked r hr)]
  exact if_neg fun hroom => hnone ⟨j, hj ▸ hroom, hj ▸ h.within r hr⟩

end Object

/-- **A read with a growing buffer cuts nothing off and does not give up early**, whatever is
answered. The sizes are the doubles of the first, without gaps, up to the limit and below
`2 ^ 63`. The first answer that settles the matter is the last one and gives the value. Nothing is
settled exactly if all these sizes were tried and found full. Then the value is that the limit was
reached, unless the next size is within the limit: no buffer is so large, and the program stops.
It is either of the two in no other case, unless an answer said so itself. In particular an object
of which each answer copies what fits is read as a whole exactly if one of the sizes is larger than
it, namely with the least of those, and else the limit is reached or the program stops. -/
theorem readGrowing_untruncated (what : String) (smallest largest : Nat)
    (read : Nat → Session W (Except HostError GrowingRead)) (w : W) :
    let first := max smallest 1
    let value := ((readGrowing what smallest largest read).run w).value
    let room := ∀ j, first * 2 ^ j ≤ largest → first * 2 ^ j < 2 ^ 63
    ∃ readings : List BufferReading,
      Session.Notes (readGrowing what smallest largest read)
        (readGrowing what smallest largest (recorded read)) w readings ∧
      readings.map BufferReading.size = (List.range readings.length).map (fun j => first * 2 ^ j) ∧
      (∀ r ∈ readings, r.size ≤ largest ∧ r.size < 2 ^ 63) ∧
      (∀ before r after v, readings = before ++ r :: after → r.verdict? = some v →
        after = [] ∧ value = v) ∧
      ((∀ r ∈ readings, r.verdict? = none) ↔
        ∀ j, first * 2 ^ j ≤ largest → first * 2 ^ j < 2 ^ 63 →
          ∃ r ∈ readings, r.size = first * 2 ^ j ∧ r.verdict? = none) ∧
      (value = .error (.pathTooLong what largest) ↔
        ((∀ r ∈ readings, r.verdict? = none) ∧ room) ∨
          ∃ r ∈ readings, r.answer = .error (.pathTooLong what largest)) ∧
      (value = .error (.halted .capacityOverflow) ↔
        ((∀ r ∈ readings, r.verdict? = none) ∧ ¬room) ∨
          ∃ r ∈ readings, r.answer = .error (.halted .capacityOverflow)) ∧
      ∀ object, Copies read object →
        let fits := fun j => object.length < first * 2 ^ j ∧ first * 2 ^ j ≤ largest ∧
          first * 2 ^ j < 2 ^ 63
        (value = .ok (some object) ↔ ∃ j, fits j) ∧
        (∀ j, fits j → (∀ i < j, first * 2 ^ i ≤ object.length) → readings.length = j + 1) ∧
        ((¬∃ j, fits j) → room → value = .error (.pathTooLong what largest)) ∧
        ((¬∃ j, fits j) → ¬room → value = .error (.halted .capacityOverflow)) := by
  intro first value room
  have pos : 0 < first := by omega
  obtain ⟨readings, h, hnotes⟩ := exists_bufferReadings what largest read pos w
  have hroom : ¬room ↔ ∃ j, first * 2 ^ j ≤ largest ∧ 2 ^ 63 ≤ first * 2 ^ j := by
    simp only [room]
    push Not
    rfl
  have hhalted := h.value_eq_halted_iff
  rw [← hroom] at hhalted
  refine ⟨readings, hnotes, h.sizes, h.within, fun _ _ _ _ => h.stops, h.forall_full_iff pos,
    h.value_eq_tooLong_iff, hhalted, fun object hcopies => ?_⟩
  intro fits
  have hfull (hnone : ¬∃ j, fits j) := h.full_of_not_fits hcopies hnone
  refine ⟨⟨fun hvalue => ?_, ?_⟩, ?_,
    fun hnone hall => h.value_eq_tooLong_iff.2 (.inl ⟨hfull hnone, hall⟩),
    fun hnone hlarge => hhalted.2 (.inl ⟨hfull hnone, hlarge⟩)⟩
  · by_contra hnone
    -- Without a buffer that is larger, the read ends in one of two failures.
    obtain ⟨herror, -⟩ | ⟨herror, -⟩ := h.unsettled (hfull hnone)
    · exact absurd (hvalue.symm.trans herror) (by simp)
    · exact absurd (hvalue.symm.trans herror) (by simp)
  · rintro ⟨j, hlong, hle, hless⟩
    exact h.whole hcopies hlong hle hless
  · rintro j ⟨hlong, hle, hless⟩
    exact h.length_of_least hcopies hlong hle hless

/-- Four bytes behind a call that counts how often it is asked: a buffer of four bytes is full,
so the object is read with one of eight. -/
theorem readGrowing_untruncated_full_buffer :
    let object : Bytes := [1, 2, 3, 4]
    let read (size : Nat) : Session Nat (Except HostError GrowingRead) :=
      .consult fun n => (.ok (.filled (min 4 size) (object.take size)), n + 1)
    Copies read object ∧
      ((readGrowing "/link" 2 8 read).run 0).value = .ok (some object) ∧
      ∃ readings, readings.map BufferReading.size = [2, 4, 8] ∧
        Session.Notes (readGrowing "/link" 2 8 read) (readGrowing "/link" 2 8 (recorded read)) 0
          readings := by
  intro object read
  have hcopies : Copies read object := fun _ _ => rfl
  obtain ⟨readings, hnotes, hsizes, -, -, -, -, -, hobject⟩ :=
    readGrowing_untruncated "/link" 2 8 read 0
  obtain ⟨hwhole, hleast, -⟩ := hobject object hcopies
  have hlength : readings.length = 3 := hleast 2 ⟨by decide, by decide, by decide⟩ (by decide)
  refine ⟨hcopies, hwhole.2 ⟨2, by decide, by decide, by decide⟩, readings, ?_, hnotes⟩
  rw [hsizes, hlength]
  rfl

/-- A first buffer of `2 ^ 63` bytes is within the limit and larger than an object of three
bytes, and still it is not read. -/
theorem no_read_beyond_capacity :
    let object : Bytes := [1, 2, 3]
    let read (size : Nat) : Session Unit (Except HostError GrowingRead) :=
      pure (.ok (.filled (min 3 size) (object.take size)))
    Copies read object ∧ object.length < 2 ^ 63 ∧ 2 ^ 63 ≤ 2 ^ 64 - 1 ∧
      (readGrowing "/link" (2 ^ 63) (2 ^ 64 - 1) read).run () =
        ⟨.error (.halted .capacityOverflow), [], ()⟩ := by
  intro object read
  exact ⟨fun _ _ => rfl, by decide, by decide,
    run_readFrom_large (by decide) (by decide) (by decide)⟩

end HostAccess
