import HostAccess.Proofs.File.Transparency

/-!
# Paths with a zero byte

A path with a zero byte cannot be passed to the system: it ends where a path ends. Both bindings
of a chain look for the byte before they ask for anything, so the files stay as they are
(`HostAccess.Host.fileChain_zero_path`, the main result). What they answer differs:

| call | linked binding | portable binding |
|---|---|---|
| `chmod` | the path is refused | the operation is refused |
| `symlink` | the first such path is refused | the operation is refused |
| `readlink` | the path is refused | no link is there |

The last answer is no refusal. The code for an argument that makes no sense is also the one for
a file that is no link, and the portable binding takes it for that. So whether a link with such
a path is reported as missing depends on whether the entry points of the chain were found.
-/

namespace HostAccess

/-- The first path of a call that has a zero byte. -/
def FileCall.zeroPath? (call : FileCall) : Option Bytes :=
  call.paths.find? holdsZero

variable {F W : Type} {call : FileCall} {path : Bytes}

theorem FileCall.exists_zeroPath? (h : ∃ path ∈ call.paths, holdsZero path = true) :
    ∃ path, call.zeroPath? = some path :=
  Option.isSome_iff_exists.1 (List.find?_isSome.2 h)

/-! ### The portable binding -/

/-- The answer of the portable binding to a call with a zero byte in a path. -/
def FileBinding.zeroAnswer : FileCall → FileAnswer
  | .readlink _ => .ok (.target none)
  | call => .error (zeroInPath call.operation)

theorem FileBinding.zeroAnswer_eq_error_iff :
    (∃ e, zeroAnswer call = .error e) ↔ ∀ link, call ≠ .readlink link := by
  cases call <;> simp [zeroAnswer]

/-- **The portable binding asks the system nothing** if a path has a zero byte. -/
theorem FileBinding.run_perform_portable_of_zero (system : FileSystemCalls F)
    (host : FileHost F W) (h : call.zeroPath? = some path) :
    ((portable system).perform call).run host = ⟨zeroAnswer call, [], host⟩ := by
  have hzero : holdsZero path = true := List.find?_some h
  have hmem : path ∈ call.paths := List.mem_of_find?_eq_some h
  cases call with
  | chmod path' mode =>
    obtain rfl := List.mem_singleton.1 hmem
    simp only [perform, portable, hzero, if_true, Session.run_map, Session.run_pure]
    rfl
  | symlink target link =>
    have heither : (holdsZero target || holdsZero link) = true := by
      rcases List.mem_cons.1 hmem with rfl | hmem
      · rw [hzero, Bool.true_or]
      · obtain rfl := List.mem_singleton.1 hmem
        rw [hzero, Bool.or_true]
    simp only [perform, portable, heither, if_true, Session.run_map, Session.run_pure]
    rfl
  | readlink link =>
    obtain rfl := List.mem_singleton.1 hmem
    simp only [perform, portable, hzero, if_true, Session.run_map, Session.run_look]
    rfl

namespace NativeFiles

variable {b : NativeFiles F W} {host : FileHost F W}

/-! ### The linked binding -/

/-- The refusal of a path by the linked binding. -/
def refusal (path : Bytes) : HostError :=
  .invalidInput s!"path contains NUL: {shownPath path}"

theorem unlessZero_of_zero {α : Type} (h : holdsZero path = true)
    (x : Session (FileHost F W) (Except HostError α)) :
    unlessZero path x = pure (.error (refusal path)) :=
  if_pos h

theorem unlessZero_of_not_zero {α : Type} (h : ¬holdsZero path = true)
    (x : Session (FileHost F W) (Except HostError α)) : unlessZero path x = x :=
  if_neg h

/-- **The entry points are given no path with a zero byte.** -/
theorem run_direct_of_zero (h : call.zeroPath? = some path) :
    (b.direct call).run host = ⟨.error (refusal path), [], host⟩ := by
  have hzero : holdsZero path = true := List.find?_some h
  have hmem : path ∈ call.paths := List.mem_of_find?_eq_some h
  cases call with
  | chmod path' mode =>
    obtain rfl := List.mem_singleton.1 hmem
    rw [direct, unlessZero_of_zero hzero, Session.run_map]
    rfl
  | symlink target link =>
    -- The target is looked at before the link.
    by_cases htarget : holdsZero target = true
    · obtain rfl : target = path := Option.some.inj ((List.find?_cons_of_pos htarget).symm.trans h)
      rw [direct, unlessZero_of_zero hzero, Session.run_map]
      rfl
    · obtain rfl : link = path := by
        rcases List.mem_cons.1 hmem with rfl | hmem
        · exact absurd hzero htarget
        · exact (List.mem_singleton.1 hmem).symm
      rw [direct, unlessZero_of_not_zero htarget, unlessZero_of_zero hzero, Session.run_map]
      rfl
  | readlink link =>
    obtain rfl := List.mem_singleton.1 hmem
    rw [direct, unlessZero_of_zero hzero, Session.run_map]
    rfl

/-! ### The chain -/

/-- **A call with a zero byte in a path only settles where the entry points are.** -/
theorem run_perform_chain_of_zero (h : call.zeroPath? = some path) :
    ∃ lines, (b.chain.perform call).run host =
      ⟨match b.found host with
        | .ok () => .error (refusal path)
        | .error _ => FileBinding.zeroAnswer call,
        lines, b.settle host⟩ := by
  rcases hfound : b.found host with ⟨symbol, reason⟩ | _
  · obtain ⟨lines, hfirst⟩ := run_perform_of_missing hfound call
    have hsecond := FileBinding.run_perform_portable_of_zero b.system (b.settle host) h
    rw [chain, FileBinding.run_orElse_of_unlinked (by rw [hfirst]; rfl), hfirst, hsecond]
    exact ⟨_, rfl⟩
  · have hdirect : (b.direct call).run (b.settle host) = _ := run_direct_of_zero h
    obtain ⟨lines, hfirst⟩ := run_resolved_of_found (x := b.direct call) hfound
    rw [hdirect, ← perform_binding] at hfirst
    rw [chain, FileBinding.run_orElse_of_linked (by rw [hfirst]; rfl), hfirst]
    exact ⟨_, rfl⟩

end NativeFiles

namespace Host

/-- **A path with a zero byte changes no file**, whatever the system, and the call is refused unless
a link is to be read and the entry points of the chain are missing. A linked chain names the first
such path in its refusal; one that is not linked refuses to set permissions or to make a link, and
answers the reading of a link that there is none. -/
theorem fileChain_zero_path {F : Type} (system : FileSystemCalls F) (linker : Linker)
    (library : Option String) (settings : Settings) (host : FileHost F Unit) (call : FileCall)
    (hzero : ∃ path ∈ call.paths, holdsZero path = true) :
    let b := nativeFiles system linker library settings
    let r := ((fileChain system linker library settings).perform call).run host
    r.world.files = host.files ∧
      ((∃ e, r.value = .error e) ↔
        b.found host = .ok () ∨ ∀ link, call ≠ .readlink link) ∧
      (b.found host = .ok () → ∃ path ∈ call.paths, holdsZero path = true ∧
        r.value = .error (.invalidInput s!"path contains NUL: {shownPath path}")) ∧
      ∀ missing, b.found host = .error missing →
        r.value = match call with
          | .readlink _ => .ok (.target none)
          | _ => .error (.os call.operation 0
              "file name contained an unexpected NUL byte") := by
  intro b r
  obtain ⟨path, hpath⟩ := FileCall.exists_zeroPath? hzero
  obtain ⟨lines, hrun⟩ : ∃ lines, r = ⟨_, lines, b.settle host⟩ :=
    NativeFiles.run_perform_chain_of_zero hpath
  rw [hrun]
  refine ⟨rfl, ?_, fun hfound => ?_, fun missing hfound => ?_⟩
  · rcases hfound : b.found host with missing | _
    · simp only [FileBinding.zeroAnswer_eq_error_iff, reduceCtorEq, false_or]
    · exact iff_of_true ⟨_, rfl⟩ (.inl rfl)
  · rw [hfound]
    exact ⟨path, List.mem_of_find?_eq_some hpath, List.find?_some hpath, rfl⟩
  · rw [hfound]
    cases call <;> rfl

/-- A link whose path has a zero byte is read, by a chain that is linked to the program and by
one whose library is missing, and such a link is made by the latter. -/
theorem fileChain_zero_path_linkedFiles :
    let path : Bytes := [0x61, 0, 0x62]
    let host : FileHost FileSystem Unit := ⟨linkedFiles, none, ()⟩
    let unlinked := fileChain FileSystem.calls bareLinker (some "libc.so") {}
    let linked := fileChain FileSystem.calls bareLinker none {}
    holdsZero path = true ∧
      (((linked.perform (.readlink path)).run host).value =
        .error (.invalidInput "path contains NUL: a\x00b")) ∧
      (((unlinked.perform (.readlink path)).run host).value = .ok (.target none)) ∧
      (((unlinked.perform (.symlink [0x66] path)).run host).value =
        .error (.os "symlink" 0 "file name contained an unexpected NUL byte")) ∧
      ((unlinked.perform (.symlink [0x66] path)).run host).world.files = linkedFiles := by
  intro path host unlinked linked
  have hzero : holdsZero path = true := by decide
  have hfound : (nativeFiles FileSystem.calls bareLinker none {}).found host = .ok () := rfl
  have hmissing : (nativeFiles FileSystem.calls bareLinker (some "libc.so") {}).found host =
      .error ("libc.so", "no such file") := rfl
  have hlink : ∃ p ∈ (FileCall.readlink path).paths, holdsZero p :=
    ⟨path, List.mem_singleton_self path, hzero⟩
  obtain ⟨-, -, hrefused, -⟩ :=
    fileChain_zero_path FileSystem.calls bareLinker none {} host (.readlink path) hlink
  obtain ⟨-, -, -, hread⟩ :=
    fileChain_zero_path FileSystem.calls bareLinker (some "libc.so") {} host (.readlink path) hlink
  obtain ⟨hfiles, -, -, hmade⟩ :=
    fileChain_zero_path FileSystem.calls bareLinker (some "libc.so") {} host
      (.symlink [0x66] path) ⟨path, by decide, hzero⟩
  obtain ⟨path', hmem, -, hvalue⟩ := hrefused hfound
  obtain rfl := List.mem_singleton.1 hmem
  exact ⟨hzero, hvalue, hread _ hmissing, hmade _ hmissing, hfiles⟩

/-- A chain that is not linked reports a path that it could not pass on as one without a link. -/
theorem no_link_at_zero_path :
    let path : Bytes := [0x61, 0, 0x62]
    holdsZero path = true ∧
      (((fileChain FileSystem.calls bareLinker (some "libc.so") {}).perform (.readlink path)).run
        ⟨linkedFiles, none, ()⟩).value = .ok (.target none) :=
  ⟨by decide, rfl⟩

end Host

end HostAccess
