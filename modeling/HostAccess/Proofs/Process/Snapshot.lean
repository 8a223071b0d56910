import HostAccess.Process.Table
import HostAccess.Proofs.Process.RecordTable
import HostAccess.Proofs.Query.Course

/-!
# A listing shows one moment

Processes start and exit while a listing is made: between any two calls the table of the
kernel may grow, shrink or change altogether. A listing still shows the table of a single
moment, that of the first fetch whose table is no longer than the one probed just before.

An honest kernel (`HostAccess.Kernel.Honest`) has a table in every world, probes its
length, and copies all of it or refuses; what its calls do to the world is left open. The
worlds that its calls see are `HostAccess.Kernel.probedAt` and
`HostAccess.Kernel.fetchedAt`.

Two things stop the program while it lists: a probe that asks for `2 ^ 63` bytes or more, and a
layout that is accepted though one of its fields ends at `2 ^ 64` or beyond
(`HostAccess.TableEnumerator.no_listing_beyond_bounds`). Without them every listing comes to an
end.

* `HostAccess.TableEnumerator.run_snapshot`: a listing is one query, read as a table;
* `HostAccess.Kernel.Honest.run_of_fits`, `HostAccess.Kernel.Honest.run_of_not_fits`: what
  a query gets from an honest kernel;
* `HostAccess.TableEnumerator.snapshot_consistent`: the main result.
-/

namespace HostAccess

variable {W : Type}

/-! ### Honest kernels -/

namespace Kernel

/-- **An honest kernel**: in every world its table tells the processes, a probe answers the
length of the table, and a fetch copies all of it unless the buffer is shorter. -/
structure Honest (kernel : Kernel W) (l : RecordLayout) (processes : W → List (Pid × Pid))
    (table : W → Bytes) : Prop where
  isTable (w : W) : l.IsTable (processes w) (table w)
  probe (w : W) : (kernel.requiredSize .allProcesses w).1 = .ok (table w).length
  fetch (size : Nat) (w : W) : (kernel.fetch .allProcesses size w).1 =
    if size < (table w).length then .error .undersized else .ok ⟨(table w).length, table w⟩

/-- The world of a probe, after a number of attempts with buffers of just the probed size. -/
def probedAt (kernel : Kernel W) (table : W → Bytes) (w : W) : Nat → W
  | 0 => w
  | n + 1 =>
    let probed := kernel.probedAt table w n
    (kernel.fetch .allProcesses (table probed).length
      (kernel.requiredSize .allProcesses probed).2).2

/-- The world of the fetch after that probe. -/
def fetchedAt (kernel : Kernel W) (table : W → Bytes) (w : W) (n : Nat) : W :=
  (kernel.requiredSize .allProcesses (kernel.probedAt table w n)).2

/-- The table of a fetch is no longer than the one probed just before. -/
def Fits (kernel : Kernel W) (table : W → Bytes) (w : W) (n : Nat) : Prop :=
  (table (kernel.fetchedAt table w n)).length ≤ (table (kernel.probedAt table w n)).length

instance (kernel : Kernel W) (table : W → Bytes) (w : W) (n : Nat) :
    Decidable (kernel.Fits table w n) :=
  inferInstanceAs (Decidable (_ ≤ _))

/-- A kernel that answers from a table, with a world that goes on after each call. -/
def ofTable (table : W → Bytes) (next : W → W) : Kernel W where
  requiredSize _ := fun w => (.ok (table w).length, next w)
  fetch _ size := fun w =>
    (if size < (table w).length then .error .undersized else .ok ⟨(table w).length, table w⟩,
      next w)

theorem honest_ofTable {l : RecordLayout} {processes : W → List (Pid × Pid)} {table : W → Bytes}
    (h : ∀ w, l.IsTable (processes w) (table w)) (next : W → W) :
    (ofTable table next).Honest l processes table :=
  ⟨h, fun _ => rfl, fun _ _ => rfl⟩

namespace Honest

variable {kernel : Kernel W} {l : RecordLayout} {processes : W → List (Pid × Pid)}
  {table : W → Bytes} {q : SizedQuery} {w : W} {n : Nat}

theorem requiredSize_probedAt (h : kernel.Honest l processes table) :
    kernel.requiredSize .allProcesses (kernel.probedAt table w n) =
      (.ok (table (kernel.probedAt table w n)).length, kernel.fetchedAt table w n) :=
  Prod.ext (h.probe _) rfl

theorem fetch_of_not_fits (h : kernel.Honest l processes table) (hfit : ¬kernel.Fits table w n) :
    kernel.fetch .allProcesses (table (kernel.probedAt table w n)).length
      (kernel.fetchedAt table w n) = (.error .undersized, kernel.probedAt table w (n + 1)) := by
  refine Prod.ext ?_ rfl
  rw [h.fetch, if_pos (Nat.lt_of_not_le hfit)]

/-- Attempts that do not fit find their buffer too small, one after the other. -/
theorem exists_tooSmall (h : kernel.Honest l processes table)
    (hless : ∀ w, (table w).length < 2 ^ 63) (hslack : q.slack = 0)
    (hfit : ∀ m < n, ¬kernel.Fits table w m) : ∃ sizes, sizes.length = n ∧
      q.TooSmall kernel .allProcesses w sizes (kernel.probedAt table w n) := by
  induction n with
  | zero => exact ⟨[], rfl, .none w⟩
  | succ n ih =>
    obtain ⟨sizes, hlength, small⟩ := ih fun m hm => hfit m (by omega)
    have hlast := h.fetch_of_not_fits (hfit n (by omega))
    refine ⟨sizes ++ [(table (kernel.probedAt table w n)).length], by simp [hlength],
      SizedQuery.tooSmall_append_iff.2 ⟨_, small, SizedQuery.tooSmall_singleton_iff.2
        ⟨_, _, h.requiredSize_probedAt, ?_, ?_, by rw [hslack, Nat.add_zero]⟩⟩⟩
    · rw [hslack, Nat.add_zero]
      exact hless _
    · rwa [hslack, Nat.add_zero]

/-- A fetch that fits delivers the table of its moment, whole. -/
theorem delivered_of_fits (h : kernel.Honest l processes table) (hfits : kernel.Fits table w n) :
    ∃ fetched after, kernel.fetch .allProcesses (table (kernel.probedAt table w n)).length
        (kernel.fetchedAt table w n) = (.ok fetched, after) ∧
      fetched.delivered (table (kernel.probedAt table w n)).length =
        table (kernel.fetchedAt table w n) := by
  refine ⟨⟨(table (kernel.fetchedAt table w n)).length, table (kernel.fetchedAt table w n)⟩, _,
    Prod.ext ?_ rfl, ?_⟩
  · rw [h.fetch, if_neg (Nat.not_lt.2 hfits)]
  · rw [Fetched.delivered, Nat.min_eq_left hfits, Bytes.zeroExtend, Nat.sub_self,
      List.replicate_zero, List.append_nil, List.take_length]

/-- **A query gets the table of the first fetch that fits.** -/
theorem run_of_fits (h : kernel.Honest l processes table)
    (hless : ∀ w, (table w).length < 2 ^ 63) (hslack : q.slack = 0)
    (hn : n ≤ q.maxRetries) (hfirst : ∀ m < n, ¬kernel.Fits table w m)
    (hfits : kernel.Fits table w n) :
    ((q.run kernel .allProcesses).run w).value = .ok (table (kernel.fetchedAt table w n)) := by
  -- The attempts before the first fit use up retries and leave the rest of the query as it is.
  obtain ⟨sizes, hlength, small⟩ := h.exists_tooSmall hless hslack hfirst
  obtain ⟨fetched, after, hfetch, hdelivered⟩ := h.delivered_of_fits hfits
  have hsize : (table (kernel.probedAt table w n)).length =
      (table (kernel.probedAt table w n)).length + q.slack := by rw [hslack, Nat.add_zero]
  have hlast := hless (kernel.probedAt table w n)
  rw [hsize] at hfetch hdelivered hlast
  have hrun := SizedQuery.run_attempt_of_tooSmall (q.maxRetries - n) small (by omega)
  rw [hlength, Nat.sub_add_cancel hn,
    SizedQuery.run_attempt_of_delivered h.requiredSize_probedAt hlast hfetch, hdelivered] at hrun
  rw [SizedQuery.run, hrun]

/-- **A query gives up if no fetch fits.** -/
theorem run_of_not_fits (h : kernel.Honest l processes table)
    (hless : ∀ w, (table w).length < 2 ^ 63) (hslack : q.slack = 0)
    (hfit : ∀ n ≤ q.maxRetries, ¬kernel.Fits table w n) :
    ∃ state, ((q.run kernel .allProcesses).run w).value =
      .error (.retriesExhausted "kern.proc.all" state) := by
  -- One attempt more than there are retries: the last of their sizes is the one reported.
  obtain ⟨sizes, hlength, small⟩ :=
    h.exists_tooSmall (w := w) hless hslack fun m (hm : m < q.maxRetries + 1) =>
      hfit m (by omega)
  rcases List.eq_nil_or_concat sizes with rfl | ⟨tried, size, rfl⟩
  · simp at hlength
  · rw [List.length_concat, Nat.add_right_cancel_iff] at hlength
    rw [List.concat_eq_append] at small
    exact ⟨_, SizedQuery.run_of_tooSmall hlength small⟩

end Honest

end Kernel

/-! ### Listings -/

namespace TableEnumerator

/-- The query of a listing. -/
def query (t : TableEnumerator) : SizedQuery :=
  { maxRetries := t.maxRetries, log := t.log }

/-- The descriptor of a process with a known parent. -/
def descriptor (t : TableEnumerator) (process : Pid × Pid) : ProcessDescriptor :=
  { pid := process.1, ppid := some process.2, log := t.log }

/-- What a listing makes of the answer to its query. -/
def listing (t : TableEnumerator) : Except HostError Bytes → Except Halt (List ProcessDescriptor)
  | .error e => match e.halt? with
    | some why => .error why
    | none => .ok []
  | .ok buffer => match t.layout.records? buffer with
    | none => .error .outsideRecord
    | some processes => .ok (processes.map t.descriptor)

/-- The lines of a listing about the answer to its query. -/
def remarks (t : TableEnumerator) : Except HostError Bytes → List LogRecord
  | .error e => match e.halt? with
    | some _ => []
    | none => t.log.records .warn s!"process table unavailable: {e.message}"
  | .ok buffer =>
    let trailing := buffer.length % t.layout.stride.toNat
    if trailing ≠ 0 then
      t.log.records .debug s!"process table: {trailing} trailing bytes ignored"
    else []

variable (t : TableEnumerator)

theorem run_list (buffer : Bytes) (w : W) :
    (t.list buffer).run w = ⟨t.listing (.ok buffer), t.remarks (.ok buffer), w⟩ := by
  rw [list, listing, remarks]
  by_cases htrailing : buffer.length % t.layout.stride.toNat ≠ 0
  · rw [if_pos htrailing, if_pos htrailing, Session.run_log_bind]
    cases t.layout.records? buffer with
    | none => rw [Session.run_pure, List.append_nil]
    | some processes => rw [Session.run_pure, List.append_nil]; rfl
  · rw [if_neg htrailing, if_neg htrailing]
    cases t.layout.records? buffer with
    | none => rfl
    | some processes => rfl

/-- **A listing is one query, read as a table.** -/
theorem run_snapshot {kernel : Kernel W} {w after : W} {value : Except HostError Bytes}
    {log : List LogRecord} (h : (t.query.run kernel .allProcesses).run w = ⟨value, log, after⟩) :
    (t.snapshot kernel).run w = ⟨t.listing value, log ++ t.remarks value, after⟩ := by
  rw [query] at h
  rw [snapshot, Session.run_bind, h]
  cases value with
  | ok buffer =>
    dsimp only
    rw [t.run_list]
  | error e =>
    rw [listing, remarks]
    dsimp only
    cases e.halt? with
    | some why => rw [Session.run_pure]
    | none => rw [Session.run_log_bind, Session.run_pure, List.append_nil]

theorem value_snapshot (kernel : Kernel W) (w : W) :
    ((t.snapshot kernel).run w).value =
      t.listing ((t.query.run kernel .allProcesses).run w).value :=
  congrArg Outcome.value (t.run_snapshot rfl)

variable {t}

theorem listing_of_error {e : HostError} (h : ∀ why, e ≠ .halted why) :
    t.listing (.error e) = .ok [] := by
  rw [listing]
  cases hhalt : e.halt? with
  | some why => exact absurd (HostError.halt?_eq_some_iff.1 hhalt) (h why)
  | none => rfl

/-- A listing of a buffer describes the processes of its whole records. -/
theorem exists_listing (husable : t.layout.Usable) (buffer : Bytes) :
    ∃ processes table rest, buffer = table ++ rest ∧ rest.length < t.layout.stride.toNat ∧
      t.layout.IsTable processes table ∧ t.layout.records? buffer = some processes ∧
      t.listing (.ok buffer) = .ok (processes.map t.descriptor) := by
  obtain ⟨processes, table, rest, rfl, hrest, htable⟩ := RecordLayout.exists_isTable husable buffer
  have hrecords := RecordLayout.records?_append husable htable hrest
  exact ⟨processes, table, rest, rfl, hrest, htable, hrecords, by rw [listing, hrecords]⟩

theorem listing_of_isTable (husable : t.layout.Usable) {processes : List (Pid × Pid)}
    {table : Bytes} (h : t.layout.IsTable processes table) :
    t.listing (.ok table) = .ok (processes.map t.descriptor) := by
  have hrest : ([] : Bytes).length < t.layout.stride.toNat := husable.stride_pos
  have hrecords := RecordLayout.records?_append husable h hrest
  rw [List.append_nil] at hrecords
  rw [listing, hrecords]

/-- An enumerator has the layout it was asked for and the bound of the settings. -/
theorem eq_of_ofSettings {layout : RecordLayout} {s : Settings}
    (h : ofSettings layout s = .ok t) :
    t.layout = layout ∧ t.maxRetries = s.queryMaxRetries.toNat := by
  unfold ofSettings at h
  split at h
  · cases h
  · cases h
    exact ⟨rfl, rfl⟩

/-- If every probe asks for less than `2 ^ 63` bytes, no query of a listing stops. -/
theorem query_ne_halted {kernel : Kernel W} (hprobe : ∀ w size,
      (kernel.requiredSize .allProcesses w).1 = .ok size → size < 2 ^ 63) (w : W) (why : Halt) :
    ((t.query.run kernel .allProcesses).run w).value ≠ .error (.halted why) := by
  obtain ⟨c, hrun, -⟩ := t.query.exists_course kernel .allProcesses w []
  rw [hrun]
  intro hvalue
  obtain ⟨-, size, w₁, hsize, hlarge⟩ := (c.ending.halted_iff why).1 hvalue
  exact absurd (hprobe c.middle size (congrArg Prod.fst hsize)) (Nat.not_lt.2 hlarge)

/-- **A listing is consistent**, if no field of the layout ends beyond `2 ^ 64` and every probe
asks for less than `2 ^ 63` bytes. Whatever else the kernel does, it asks for the table only; the
listing is empty if the query fails, and otherwise describes the whole records of the buffer that
the query delivered, in order. If the kernel is honest, it shows the processes of one moment,
that of the first fetch that fits, and is empty if none does within the bound. -/
theorem snapshot_consistent {layout : RecordLayout} {s : Settings} {t : TableEnumerator}
    (h : ofSettings layout s = .ok t) (hpid : layout.pidOffset.toNat + 4 < 2 ^ 64)
    (hppid : layout.ppidOffset.toNat + 4 < 2 ^ 64) (kernel : Kernel W)
    (hprobe : ∀ w size, (kernel.requiredSize .allProcesses w).1 = .ok size → size < 2 ^ 63)
    (w : W) (calls : List KernelCall) :
    (∃ made, (∀ call ∈ made, call.key = .allProcesses) ∧
      (t.snapshot kernel.traced).run (w, calls) =
        ⟨((t.snapshot kernel).run w).value, ((t.snapshot kernel).run w).log,
          ((t.snapshot kernel).run w).world, calls ++ made⟩) ∧
    (∀ e, ((t.query.run kernel .allProcesses).run w).value = .error e →
      ((t.snapshot kernel).run w).value = .ok []) ∧
    (∀ buffer, ((t.query.run kernel .allProcesses).run w).value = .ok buffer →
      ∃ processes table rest, buffer = table ++ rest ∧ rest.length < layout.stride.toNat ∧
        layout.IsTable processes table ∧ layout.records? buffer = some processes ∧
        ((t.snapshot kernel).run w).value = .ok (processes.map t.descriptor)) ∧
    ∀ processes table, kernel.Honest layout processes table →
      (∀ n ≤ s.queryMaxRetries.toNat, (∀ m < n, ¬kernel.Fits table w m) →
        kernel.Fits table w n → ((t.snapshot kernel).run w).value =
          .ok ((processes (kernel.fetchedAt table w n)).map t.descriptor)) ∧
      ((∀ n ≤ s.queryMaxRetries.toNat, ¬kernel.Fits table w n) →
        ((t.snapshot kernel).run w).value = .ok []) := by
  obtain ⟨rfl, hbound⟩ := eq_of_ofSettings h
  have husable : t.layout.Usable := (RecordLayout.accepted_iff hpid hppid).1 t.accepted
  rw [← hbound, t.value_snapshot kernel w]
  refine ⟨?_, ?_, ?_, ?_⟩
  · -- A record of calls changes nothing about a course, and a course is about one key.
    obtain ⟨c, hrun, htraced⟩ := t.query.exists_course kernel .allProcesses w calls
    refine ⟨c.calls, fun call hcall => c.key_of_mem_calls hcall, ?_⟩
    rw [t.run_snapshot htraced, t.run_snapshot hrun, hrun]
  · intro e he
    rw [he]
    exact listing_of_error fun why hwhy => query_ne_halted hprobe w why (hwhy ▸ he)
  · intro buffer hbuffer
    rw [hbuffer]
    exact exists_listing husable buffer
  · intro processes table honest
    have hless : ∀ w, (table w).length < 2 ^ 63 := fun w => hprobe w _ (honest.probe w)
    refine ⟨fun n hn hfirst hfits => ?_, fun hfit => ?_⟩
    · rw [honest.run_of_fits hless rfl hn hfirst hfits]
      exact listing_of_isTable husable (honest.isTable _)
    · obtain ⟨state, hstate⟩ := honest.run_of_not_fits (q := t.query) hless rfl hfit
      rw [hstate]
      rfl

/-- The processes at each call when a second one starts right after the first. -/
def startingProcesses : Nat → List (Pid × Pid)
  | 0 => [(1, 0)]
  | _ + 1 => [(1, 0), (7, 1)]

/-- The table at each of these calls. -/
def startingTable (now : Nat) : Bytes :=
  RecordLayout.bareTable (startingProcesses now)

/-- The first attempt is refused, and the second one shows both processes. -/
theorem snapshot_consistent_starting :
    ∃ t, ofSettings .bare {} = .ok t ∧
      (Kernel.ofTable startingTable (· + 1)).Honest .bare startingProcesses startingTable ∧
      ¬(Kernel.ofTable startingTable (· + 1)).Fits startingTable 0 0 ∧
      ((t.snapshot (Kernel.ofTable startingTable (· + 1))).run 0).value =
        .ok ([(1, 0), (7, 1)].map t.descriptor) := by
  have h : ofSettings .bare {} = .ok ⟨.bare, 16, Logger.named {} "snapshot", rfl⟩ := rfl
  have honest : (Kernel.ofTable startingTable (· + 1)).Honest .bare startingProcesses
      startingTable :=
    Kernel.honest_ofTable (fun now => RecordLayout.isTable_bareTable (startingProcesses now)) _
  have hfit : ¬(Kernel.ofTable startingTable (· + 1)).Fits startingTable 0 0 := by decide
  have hprobe : ∀ now size, ((Kernel.ofTable startingTable (· + 1)).requiredSize
      .allProcesses now).1 = .ok size → size < 2 ^ 63 := by
    rintro (_ | now) size ⟨⟩
    · decide
    · exact (by decide : 16 < 2 ^ 63)
  obtain ⟨-, -, -, hshown⟩ := snapshot_consistent h (by decide) (by decide)
    (.ofTable startingTable (· + 1)) hprobe 0 []
  refine ⟨_, h, honest, hfit, (hshown _ _ honest).1 1 (by decide) ?_ (by decide)⟩
  intro m hm
  obtain rfl : m = 0 := by omega
  exact hfit

/-- A probe of `2 ^ 63` bytes stops a listing, and a layout with a field that ends at `2 ^ 64` is
accepted and stops the listing of a single record. -/
theorem no_listing_beyond_bounds :
    let large : Kernel Unit := ⟨fun _ w => (.ok (2 ^ 63), w), fun _ _ w => (.ok ⟨0, []⟩, w)⟩
    let single : Kernel Unit := .ofTable (fun _ => List.replicate 8 0) id
    (∃ t, ofSettings .darwin64 {} = .ok t ∧
      ((t.snapshot large).run ()).value = .error .capacityOverflow) ∧
    ∃ t, ofSettings ⟨8, .ofNat (2 ^ 64 - 4), 0⟩ {} = .ok t ∧
      ((t.snapshot single).run ()).value = .error .outsideRecord := by
  intro large single
  have hlarge (q : SizedQuery) : ((q.run large .allProcesses).run ()).value =
      .error (.halted .capacityOverflow) := by
    have probe : large.requiredSize .allProcesses () = (.ok (2 ^ 63), ()) := rfl
    rw [SizedQuery.run, SizedQuery.run_attempt_of_large probe (Nat.le_add_right _ _)]
  have hsingle (t : TableEnumerator) : ((t.query.run single .allProcesses).run ()).value =
      .ok (List.replicate 8 0) := by
    have probe : single.requiredSize .allProcesses () = (.ok 8, ()) := rfl
    have fits : 8 + t.query.slack < 2 ^ 63 := (by decide : 8 < 2 ^ 63)
    have fetch : single.fetch .allProcesses (8 + t.query.slack) () =
        (.ok ⟨8, List.replicate 8 0⟩, ()) := rfl
    rw [SizedQuery.run, SizedQuery.run_attempt_of_delivered probe fits fetch]
    rfl
  have haccepted : RecordLayout.Accepted ⟨8, .ofNat (2 ^ 64 - 4), 0⟩ := rfl
  have hrecords : RecordLayout.records? ⟨8, .ofNat (2 ^ 64 - 4), 0⟩ (List.replicate 8 0) =
      none := by decide
  refine ⟨⟨⟨.darwin64, 16, Logger.named {} "snapshot", rfl⟩, rfl, ?_⟩,
    ⟨⟨8, .ofNat (2 ^ 64 - 4), 0⟩, 16, Logger.named {} "snapshot", haccepted⟩, rfl, ?_⟩
  · rw [value_snapshot, hlarge]
    rfl
  · rw [value_snapshot, hsingle, listing, hrecords]

end TableEnumerator

end HostAccess
