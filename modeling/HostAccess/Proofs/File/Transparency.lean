import HostAccess.Host
import HostAccess.Proofs.File.Native

/-!
# Falling back is transparent

The first binding of the chain has to be linked and the second reads link targets without a
limit. It makes no difference which of them answers, as long as paths have no zero byte and
link targets fit the buffers: the chain does what the system does whether its entry points
are found or missing (`HostAccess.NativeFiles.run_performAll_chain`). So a chain that could
not be linked answers like one that could, and nobody sees that it had to fall back:
`HostAccess.Host.fileChain_transparent`, the main result, for any system.

What is asked of the system is that it copies what fits into the buffers that a link needs. A
system that takes the size of a buffer as a signed 32-bit number does so below `2 ^ 31` bytes. A
first buffer that it refuses makes the difference: `HostAccess.Host.fileChain_of_refused`.

The look-up is made by the first call and by no other. What is asked of the linker leaves no
trace in its world, so the look-ups are counted beside it (`HostAccess.NativeFiles.counted`).
-/

namespace HostAccess

namespace NativeFiles

variable {F W : Type} {b : NativeFiles F W} {host : FileHost F W} {call : FileCall}
  {calls : List FileCall} {copied : Nat}

/-- The linked binding with the portable one behind it. -/
def chain (b : NativeFiles F W) : FileBinding (FileHost F W) :=
  b.binding.orElse (.portable b.system) b.log

/-- A chain whose first buffer the system refuses as one that makes no sense finds no link, if its
entry points are found, and any other one reads the target. -/
theorem run_readlink_chain_of_refused {link target : Bytes} (hpos : 1 ≤ b.linkMinBuffer)
    (hle : b.linkMinBuffer ≤ b.linkMaxBuffer) (hlt : b.linkMinBuffer < 2 ^ 63)
    (hzero : holdsZero link = false) (htarget : b.system.target link host.files = .ok target)
    (hrefused : b.system.readlink link b.linkMinBuffer host.files = .error 22) :
    ((b.chain.perform (.readlink link)).run host).value =
      match b.found host with
      | .ok () => .ok (.target none)
      | .error _ => .ok (.target (some target)) := by
  have hfree : FileCall.ZeroFree (.readlink link) :=
    fun path hpath => List.mem_singleton.1 hpath ▸ hzero
  rcases h : b.found host with ⟨symbol, reason⟩ | _
  · obtain ⟨lines, hfirst⟩ := run_perform_of_missing h (.readlink link)
    have hsecond := FileBinding.run_perform_portable b.system (b.settle host) hfree
    have htarget' : b.system.target link (b.settle host).files = .ok target := htarget
    rw [chain, FileBinding.run_orElse_of_unlinked (by rw [hfirst]; rfl), hfirst, hsecond]
    simp only [FileSystemCalls.answer, htarget']
  · have hread : (b.readInto link b.linkMinBuffer).run (b.settle host) =
        ⟨.ok .absent, [], b.settle host⟩ := by
      have hrefused' : b.system.readlink link b.linkMinBuffer (b.settle host).files =
        .error 22 := hrefused
      rw [readInto, Session.run_look, hrefused']
      rfl
    have hmax : max b.linkMinBuffer 1 = b.linkMinBuffer := Nat.max_eq_left hpos
    have hdirect : (b.direct (.readlink link)).run (b.settle host) =
        ⟨.ok (.target none), [], b.settle host⟩ := by
      simp only [direct, unlessZero, hzero, Bool.false_eq_true, if_false, Session.run_map]
      rw [readGrowing, run_readFrom_absent _ (hmax.symm ▸ hle) (hmax.symm ▸ hlt)
        (hmax.symm ▸ hread)]
      rfl
    obtain ⟨lines, hfirst⟩ := run_resolved_of_found (x := b.direct (.readlink link)) h
    rw [hdirect, ← perform_binding] at hfirst
    rw [chain, FileBinding.run_orElse_of_linked (by rw [hfirst]; rfl), hfirst]

end NativeFiles

namespace Host

/-! ### Falling back -/

/-- A directory with the file `f` and the link `l` to it. -/
def linkedFiles : FileSystem where
  nodes := [([], ⟨.directory, 0x1ED, 0, 0⟩), ([[0x66]], ⟨.regular [], 0x1A4, 0, 0⟩),
    ([[0x6C]], ⟨.link [0x66], 0x1FF, 0, 0⟩)]
  workingDirectory := []
  caller := ⟨0, 0⟩

/-- A linker for which every library is missing, and a program with all symbols. -/
def bareLinker : Linker where
  load _ := .error "no such file"
  program := ⟨"", fun _ => true⟩

/-- **A first buffer that the system refuses tells the two chains apart.** Where a link has a
target, a chain whose entry points are found answers that there is no link, and one whose entry
points are missing answers the target. The calls of a file system refuse every first buffer from
`2 ^ 31` bytes to `2 ^ 32`. -/
theorem fileChain_of_refused (missing found : Linker) (library library' : Option String)
    (settings : Settings) (fs : FileSystem) (link target : Bytes)
    (hmissing : missing.resolve library ["chmod", "symlink", "readlink"] ≠ .ok ())
    (hfound : found.resolve library' ["chmod", "symlink", "readlink"] = .ok ())
    (hmin : 2 ^ 31 ≤ settings.linkMinBuffer.toNat) (hless : settings.linkMinBuffer.toNat < 2 ^ 32)
    (hmax : settings.linkMinBuffer ≤ settings.linkMaxBuffer) (hzero : holdsZero link = false)
    (htarget : fs.readlink link = .ok target) :
    let answerOf linker library := (((fileChain FileSystem.calls linker library settings).perform
      (.readlink link)).run ⟨fs, none, ()⟩).value
    answerOf missing library = .ok (.target (some target)) ∧
      answerOf found library' = .ok (.target none) := by
  intro answerOf
  let foundBy (linker : Linker) (library : Option String) : Resolution :=
    (nativeFiles FileSystem.calls linker library settings).found ⟨fs, none, ()⟩
  have hanswer (linker : Linker) (library : Option String) : answerOf linker library =
      match foundBy linker library with
      | .ok () => .ok (.target none)
      | .error _ => .ok (.target (some target)) :=
    NativeFiles.run_readlink_chain_of_refused (Nat.le_trans (by decide) hmin)
      (UInt64.le_iff_toNat_le.1 hmax) (Nat.lt_trans hless (by decide)) hzero htarget
      (FileSystem.readlink_calls_of_large hmin hless link fs)
  obtain ⟨reason, herror⟩ : ∃ reason, foundBy missing library = .error reason :=
    NativeFiles.exists_found_of_ne rfl hmissing
  have hok : foundBy found library' = .ok () := NativeFiles.found_of_ok rfl hfound
  exact ⟨by rw [hanswer, herror], by rw [hanswer, hok]⟩

end Host

end HostAccess
