import HostAccess.Settings

/-!
# Settings that a caller changes

A program starts from the defaults or from what its environment overrides, and then changes
settings one by one (`HostAccess.SettingsChange`). Only one change touches the sizes of the
buffers for link targets, and it clamps them, as reading the environment does. So the sizes are in
range after any changes (`HostAccess.Settings.BuffersInRange.applyAll`), and reading them again
leaves them as they are (`HostAccess.Settings.BuffersInRange.withLinkBuffers`).
-/

namespace HostAccess

/-- A change that a caller makes to settings. -/
inductive SettingsChange where
  | pamService (name : String)
  | pamLibrary (name : String)
  | zfsLibrary (name : String)
  | enableZfs (enabled : Bool)
  | queryMaxRetries (n : UInt32)
  | linkBuffers (smallest largest : UInt64)
  | log (logger : Logger)
  deriving DecidableEq, Repr

namespace Settings

/-- Makes a change. -/
def apply (s : Settings) : SettingsChange → Settings
  | .pamService name => { s with pamService := name }
  | .pamLibrary name => { s with pamLibrary := some name }
  | .zfsLibrary name => { s with zfsLibrary := some name }
  | .enableZfs enabled => { s with enableZfs := enabled }
  | .queryMaxRetries n => { s with queryMaxRetries := n }
  | .linkBuffers smallest largest => s.withLinkBuffers smallest largest
  | .log logger => { s with log := logger }

/-- Makes changes, one after the other. -/
def applyAll (s : Settings) (changes : List SettingsChange) : Settings :=
  changes.foldl apply s

/-! ### Clamping -/

section Clamp

variable {low high x : UInt64}

theorem le_clamp (h : low ≤ high) : low ≤ clamp low high x := by
  unfold clamp
  split
  · exact UInt64.le_refl low
  · next hlow =>
    split
    · exact h
    · exact UInt64.not_lt.1 hlow

theorem clamp_le (h : low ≤ high) : clamp low high x ≤ high := by
  unfold clamp
  split
  · exact h
  · split
    · exact UInt64.le_refl high
    · next hhigh => exact UInt64.not_lt.1 hhigh

/-- What is in the interval stays as it is. -/
theorem clamp_of_mem (hlow : low ≤ x) (hhigh : x ≤ high) : clamp low high x = x := by
  rw [clamp, if_neg (UInt64.not_lt.2 hlow), if_neg (UInt64.not_lt.2 hhigh)]

end Clamp

/-! ### Sizes in range -/

/-- **The sizes of the buffers are in range**: the first has a byte, the largest is no smaller,
and neither is above the ceiling. -/
structure BuffersInRange (s : Settings) : Prop where
  pos : 1 ≤ s.linkMinBuffer
  le : s.linkMinBuffer ≤ s.linkMaxBuffer
  le_ceiling : s.linkMaxBuffer ≤ linkBufferCeiling

theorem buffersInRange_withLinkBuffers (s : Settings) (smallest largest : UInt64) :
    (s.withLinkBuffers smallest largest).BuffersInRange := by
  have hceiling : (1 : UInt64) ≤ linkBufferCeiling := by decide
  have hfirst : clamp 1 linkBufferCeiling smallest ≤ linkBufferCeiling := clamp_le hceiling
  exact ⟨le_clamp hceiling, le_clamp hfirst, clamp_le hfirst⟩

theorem buffersInRange_default : BuffersInRange {} :=
  ⟨by decide, by decide, by decide⟩

/-- Whatever an environment holds, the sizes are in range. -/
theorem buffersInRange_ofVariables (vars : Variables) : (ofVariables vars).BuffersInRange :=
  buffersInRange_withLinkBuffers ..

namespace BuffersInRange

variable {s : Settings}

/-- **A change keeps the sizes in range.** -/
theorem apply (h : s.BuffersInRange) (change : SettingsChange) :
    (s.apply change).BuffersInRange := by
  cases change with
  | linkBuffers smallest largest => exact buffersInRange_withLinkBuffers s smallest largest
  | _ => exact ⟨h.pos, h.le, h.le_ceiling⟩

/-- **Any changes keep them in range.** -/
theorem applyAll (h : s.BuffersInRange) (changes : List SettingsChange) :
    (s.applyAll changes).BuffersInRange := by
  induction changes generalizing s with
  | nil => exact h
  | cons change changes ih => exact ih (h.apply change)

/-- Sizes that are in range are not clamped again. -/
theorem withLinkBuffers (h : s.BuffersInRange) (s' : Settings) :
    s'.withLinkBuffers s.linkMinBuffer s.linkMaxBuffer =
      { s' with linkMinBuffer := s.linkMinBuffer, linkMaxBuffer := s.linkMaxBuffer } := by
  have hfirst : clamp 1 linkBufferCeiling s.linkMinBuffer = s.linkMinBuffer :=
    clamp_of_mem h.pos (UInt64.le_trans h.le h.le_ceiling)
  simp only [Settings.withLinkBuffers, hfirst, clamp_of_mem h.le h.le_ceiling]

end BuffersInRange

end Settings

end HostAccess
