import HostAccess.Proofs.File.ZeroPaths
import HostAccess.Proofs.Query.Readings
import HostAccess.Proofs.Settings.Changes

/-!
# How often a link is read

The linked binding reads the target of a link with a buffer that grows, and the settings say how
far. Whatever the environment holds and a caller changes, they leave room for at least one read
and for at most 25, because the first buffer has at least one byte and no buffer has more than
`2 ^ 24`. Doubling such a size stays far below the size of a machine word.

The system may answer every read as it likes, so the reads are a parameter here
(`HostAccess.NativeFiles.readlinkBy`), and those that were made are kept beside the world
(`HostAccess.NativeFiles.notedReadlink`). The one reading of a link that reads nothing is that of
a path with a zero byte, which is refused first.

* `HostAccess.NativeFiles.exists_bufferReadings_readlinkBy`: the course of a reading;
* `HostAccess.Host.link_reads_bounded`: the main result.
-/

namespace HostAccess

namespace NativeFiles

variable {F W : Type} {b : NativeFiles F W} {host : FileHost F W} {link : Bytes}
  {read : Nat → Session (FileHost F W) (Except HostError GrowingRead)}

/-- The reading of a link, whatever answers its reads. -/
def readlinkBy (b : NativeFiles F W)
    (read : Nat → Session (FileHost F W) (Except HostError GrowingRead)) (link : Bytes) :
    Session (FileHost F W) (Except HostError (Option Bytes)) :=
  b.resolved <| unlessZero link <|
    readGrowing (shownPath link) b.linkMinBuffer b.linkMaxBuffer read

/-- The binding lets the system answer. -/
theorem readlink_binding (b : NativeFiles F W) (link : Bytes) :
    b.binding.readlink link = b.readlinkBy (b.readInto link) link := rfl

/-- **The same reading, with a note of every read.** -/
def notedReadlink (b : NativeFiles F W)
    (read : Nat → Session (FileHost F W) (Except HostError GrowingRead)) (link : Bytes) :
    Session (FileHost F W × List BufferReading) (Except HostError (Option Bytes)) := do
  match ← b.resolution.unnoted with
  | .ok () =>
    if holdsZero link then return .error (refusal link)
    else readGrowing (shownPath link) b.linkMinBuffer b.linkMaxBuffer (recorded read)
  | .error (symbol, reason) => return .error (.linkage symbol reason)

/-- Once the entry points are found, the reads alone are noted. -/
theorem notes_readlinkBy {readings : List BufferReading} (hfound : b.found host = .ok ())
    (h : Session.Notes
      (unlessZero link (readGrowing (shownPath link) b.linkMinBuffer b.linkMaxBuffer read))
      (if holdsZero link then pure (.error (refusal link))
        else readGrowing (shownPath link) b.linkMinBuffer b.linkMaxBuffer (recorded read))
      (b.settle host) readings) :
    Session.Notes (b.readlinkBy read link) (b.notedReadlink read link) host readings := by
  obtain ⟨lines, hrun⟩ := b.run_resolution host
  rw [hfound] at hrun
  exact (Session.Notes.unnoted b.resolution host).bind_of_run hrun h

/-- A path with a zero byte is refused without a read. -/
theorem notes_readlinkBy_of_zero (hfound : b.found host = .ok ())
    (hzero : holdsZero link = true) :
    Session.Notes (b.readlinkBy read link) (b.notedReadlink read link) host [] := by
  refine notes_readlinkBy hfound ?_
  rw [unlessZero_of_zero hzero, if_pos hzero]
  exact .pure _ _

/-- **The reads of any other path are those of a growing buffer.** -/
theorem exists_bufferReadings_readlinkBy (hfound : b.found host = .ok ())
    (hpos : 1 ≤ b.linkMinBuffer) (hzero : ¬holdsZero link = true) :
    ∃ readings value,
      BufferReadings (shownPath link) b.linkMaxBuffer read b.linkMinBuffer readings value ∧
      Session.Notes (b.readlinkBy read link) (b.notedReadlink read link) host readings := by
  have hmax : max b.linkMinBuffer 1 = b.linkMinBuffer := Nat.max_eq_left hpos
  obtain ⟨readings, value, hreadings, hnotes⟩ : ∃ readings value,
      BufferReadings (shownPath link) b.linkMaxBuffer read (max b.linkMinBuffer 1) readings value ∧
      Session.Notes (readGrowing (shownPath link) b.linkMinBuffer b.linkMaxBuffer read)
        (readGrowing (shownPath link) b.linkMinBuffer b.linkMaxBuffer (recorded read))
        (b.settle host) readings := by
    obtain ⟨readings, hreadings, hnotes⟩ :=
      exists_bufferReadings (shownPath link) b.linkMaxBuffer read _ (b.settle host)
    exact ⟨readings, _, hreadings, hnotes⟩
  rw [hmax] at hreadings
  refine ⟨readings, value, hreadings, notes_readlinkBy hfound ?_⟩
  rw [unlessZero_of_not_zero hzero, if_neg hzero]
  exact hnotes

end NativeFiles

namespace Settings.BuffersInRange

variable {s : Settings}

theorem toNat_le (h : s.BuffersInRange) : s.linkMaxBuffer.toNat ≤ 2 ^ 24 :=
  UInt64.le_iff_toNat_le.1 h.le_ceiling

/-- Sizes up to the largest can be doubled. -/
theorem doubled?_of_le (h : s.BuffersInRange) {size : Nat}
    (hsize : size ≤ s.linkMaxBuffer.toNat) : doubled? size = some (2 * size) := by
  have hceiling := h.toNat_le
  exact doubled?_eq (by omega)

end Settings.BuffersInRange

namespace Host

/-- **The buffers for link targets are in range and reads are few.** From the defaults or from any
environment, and after any changes, the first buffer has at least one byte, the largest is no
smaller and has at most `2 ^ 24`, and no size up to that is too large to be doubled. So whatever
the system is and whatever answers the reads, a linked binding with these settings makes at most 25
of them for a link, none with a larger buffer, and at least one unless the path has a zero
byte. -/
theorem link_reads_bounded (origin : Option Variables) (changes : List SettingsChange) :
    let s := (origin.elim {} Settings.ofVariables).applyAll changes
    1 ≤ s.linkMinBuffer ∧ s.linkMinBuffer ≤ s.linkMaxBuffer ∧
      s.linkMaxBuffer.toNat ≤ 2 ^ 24 ∧
      (∀ size ≤ s.linkMaxBuffer.toNat, doubled? size = some (2 * size)) ∧
      ∀ {F : Type} (system : FileSystemCalls F) (linker : Linker) (library : Option String)
        (host : FileHost F Unit) (link : Bytes),
        let b := nativeFiles system linker library s
        b.binding.readlink link = b.readlinkBy (b.readInto link) link ∧
          ∀ read, b.found host = .ok () →
            ∃ readings : List BufferReading,
              Session.Notes (b.readlinkBy read link) (b.notedReadlink read link) host readings ∧
              readings.length ≤ 25 ∧ (∀ r ∈ readings, r.size ≤ 2 ^ 24) ∧
              (1 ≤ readings.length ↔ holdsZero link = false) := by
  intro s
  have hs : s.BuffersInRange := by
    cases origin with
    | none => exact Settings.buffersInRange_default.applyAll changes
    | some vars => exact (Settings.buffersInRange_ofVariables vars).applyAll changes
  refine ⟨hs.pos, hs.le, hs.toNat_le, fun size => hs.doubled?_of_le,
    fun system linker library host link => ?_⟩
  intro b
  refine ⟨b.readlink_binding link, fun read hfound => ?_⟩
  have hpos : 1 ≤ b.linkMinBuffer := UInt64.le_iff_toNat_le.1 hs.pos
  have hle : b.linkMinBuffer ≤ b.linkMaxBuffer := UInt64.le_iff_toNat_le.1 hs.le
  have hlargest : b.linkMaxBuffer ≤ 2 ^ 24 := hs.toNat_le
  cases hzero : holdsZero link with
  | true =>
    refine ⟨[], NativeFiles.notes_readlinkBy_of_zero hfound hzero, Nat.zero_le _, ?_, ?_⟩
    · exact fun r hr => absurd hr List.not_mem_nil
    · exact iff_of_false (by decide) (by decide)
  | false =>
    obtain ⟨readings, value, hreadings, hnotes⟩ :=
      NativeFiles.exists_bufferReadings_readlinkBy hfound hpos (by rw [hzero]; decide)
    refine ⟨readings, hnotes, hreadings.length_le hpos hlargest, fun r hr => ?_, ?_⟩
    · exact Nat.le_trans (hreadings.within r hr).1 hlargest
    · exact iff_of_true (List.length_pos_iff.2 (hreadings.ne_nil hle (by omega))) rfl

/-- An environment that asks for no byte first and for more than there is at last. -/
def greedyVariables : Variables := fun name =>
  if name = "OSPROBE_LINK_MIN_BUF" then some (Utf8.encode "0")
  else if name = "OSPROBE_LINK_MAX_BUF" then some (Utf8.encode "18446744073709551615")
  else none

/-- The sizes of a greedy environment are clamped, and a link whose target would fill every buffer
is given up after 25 reads at most. -/
theorem link_reads_bounded_greedyVariables :
    let s := Settings.ofVariables greedyVariables
    let b := nativeFiles FileSystem.calls bareLinker none s
    let host : FileHost FileSystem Unit := ⟨linkedFiles, none, ()⟩
    let read := fun size => Session.look fun _ => .ok (.filled size [])
    s.linkMinBuffer = 1 ∧ s.linkMaxBuffer = 16777216 ∧ b.found host = .ok () ∧
      ∃ readings : List BufferReading,
        Session.Notes (b.readlinkBy read [0x6C]) (b.notedReadlink read [0x6C]) host readings ∧
        1 ≤ readings.length ∧ readings.length ≤ 25 ∧ ∀ r ∈ readings, r.size ≤ 2 ^ 24 := by
  intro s b host read
  have hfound : b.found host = .ok () := rfl
  obtain ⟨-, -, -, -, hall⟩ := link_reads_bounded (some greedyVariables) []
  obtain ⟨-, hreads⟩ := hall FileSystem.calls bareLinker none host [0x6C]
  obtain ⟨readings, hnotes, hlength, hsizes, hsome⟩ := hreads read hfound
  exact ⟨by decide +kernel, by decide +kernel, hfound, readings, hnotes, hsome.2 (by decide),
    hlength, hsizes⟩

/-- No read is made for a link whose path has a zero byte. -/
theorem no_read_at_zero_path :
    let b := nativeFiles FileSystem.calls bareLinker none {}
    let host : FileHost FileSystem Unit := ⟨linkedFiles, none, ()⟩
    let link : Bytes := [0x6C, 0, 0x62]
    b.found host = .ok () ∧
      ¬∃ readings : List BufferReading,
        Session.Notes (b.binding.readlink link)
          (b.notedReadlink (b.readInto link) link) host readings ∧
        1 ≤ readings.length := by
  intro b host link
  refine ⟨rfl, ?_⟩
  rintro ⟨readings, hnotes, hsome⟩
  have hnone : Session.Notes (b.binding.readlink link)
      (b.notedReadlink (b.readInto link) link) host [] :=
    NativeFiles.notes_readlinkBy_of_zero rfl (by decide)
  have hboth := (hnotes []).symm.trans (hnone [])
  have hempty : readings = [] := congrArg (fun r => r.world.2) hboth
  rw [hempty] at hsome
  exact absurd hsome (by decide)

end Host

end HostAccess
