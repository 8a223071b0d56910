import HostAccess.Settings
import Mathlib.Logic.Function.Basic

/-!
# Variables that are set to the empty text

A variable may be set and still hold nothing. For a text, a number, a word for yes or no and the
level of a log that is the same as being unset (`HostAccess.Variable.Alike`): the text of no
characters counts as unset, is no number and is none of the words.

The names of the two libraries are the exception. They are read by a reader that accepts every
text, so an empty value names a library whose name is empty, and the usual names are not tried.
`HostAccess.Settings.ofVariables_empty_iff`, the main result, says that nothing else differs.
-/

namespace HostAccess

namespace Variable

/-- **Values that are read alike** as a text, as a flag and as a number. -/
structure Alike (raw raw' : Option Bytes) : Prop where
  text : ∀ fallback, Variable.text fallback raw = Variable.text fallback raw'
  flag : ∀ fallback, Variable.flag fallback raw = Variable.flag fallback raw'
  number : ∀ bits, parsed? (Decimal.unsigned? bits) raw = parsed? (Decimal.unsigned? bits) raw'

theorem Alike.refl (raw : Option Bytes) : Alike raw raw :=
  ⟨fun _ => rfl, fun _ => rfl, fun _ => rfl⟩

/-- The empty value is read like none. -/
theorem alike_empty : Alike (some []) none :=
  ⟨fun _ => rfl, fun _ => rfl, fun _ => rfl⟩

/-- A name is read from a value that is set, an empty one included. -/
theorem parsed?_some_empty : parsed? some (some []) = some "" := rfl

end Variable

namespace Settings

variable {vars vars' : Variables}

/-- **Where values are read alike, only the names of the libraries can differ.** -/
theorem ofVariables_of_alike (h : ∀ name, Variable.Alike (vars name) (vars' name)) :
    ofVariables vars = { ofVariables vars' with
      pamLibrary := Variable.parsed? some (vars "OSPROBE_PAM_LIBRARY")
      zfsLibrary := Variable.parsed? some (vars "OSPROBE_ZFS_LIBRARY") } := by
  simp only [ofVariables, withLinkBuffers, loggerOfVariables, (h _).text, (h _).flag,
    (h _).number]

theorem alike_update_empty (vars : Variables) (name other : String) :
    Variable.Alike (Function.update vars name (some []) other)
      (Function.update vars name none other) := by
  rcases eq_or_ne other name with rfl | hne
  · rw [Function.update_self, Function.update_self]
    exact Variable.alike_empty
  · rw [Function.update_of_ne hne, Function.update_of_ne hne]
    exact .refl _

/-- The name of a library with another variable set to the empty text, or with its own. -/
theorem parsed?_update_empty (vars : Variables) (name library : String) :
    Variable.parsed? some (Function.update vars name (some []) library) =
      if name = library then some ""
      else Variable.parsed? some (Function.update vars name none library) := by
  split
  · next heq => rw [heq, Function.update_self, Variable.parsed?_some_empty]
  · next hne => rw [Function.update_of_ne (Ne.symm hne), Function.update_of_ne (Ne.symm hne)]

theorem parsed?_update_none (vars : Variables) (library : String) :
    Variable.parsed? some (Function.update vars library none library) = none := by
  rw [Function.update_self]
  rfl

theorem pamLibrary_ofVariables (vars : Variables) :
    (ofVariables vars).pamLibrary = Variable.parsed? some (vars "OSPROBE_PAM_LIBRARY") := rfl

theorem zfsLibrary_ofVariables (vars : Variables) :
    (ofVariables vars).zfsLibrary = Variable.parsed? some (vars "OSPROBE_ZFS_LIBRARY") := rfl

/-- **Setting a variable to the empty text is leaving it unset**, exactly if it is not the name of
a library. With the name of a library the settings are those of the variable unset, but for that
name: it is empty instead of none. -/
theorem ofVariables_empty_iff (vars : Variables) (name : String) :
    let empty := ofVariables (Function.update vars name (some []))
    let unset := ofVariables (Function.update vars name none)
    (empty = unset ↔ name ≠ "OSPROBE_PAM_LIBRARY" ∧ name ≠ "OSPROBE_ZFS_LIBRARY") ∧
      (name = "OSPROBE_PAM_LIBRARY" →
        unset.pamLibrary = none ∧ empty = { unset with pamLibrary := some "" }) ∧
      (name = "OSPROBE_ZFS_LIBRARY" →
        unset.zfsLibrary = none ∧ empty = { unset with zfsLibrary := some "" }) := by
  intro empty unset
  have hempty : empty = { unset with
      pamLibrary := if name = "OSPROBE_PAM_LIBRARY" then some "" else unset.pamLibrary
      zfsLibrary := if name = "OSPROBE_ZFS_LIBRARY" then some "" else unset.zfsLibrary } := by
    have hread := ofVariables_of_alike (alike_update_empty vars name)
    rwa [parsed?_update_empty, parsed?_update_empty] at hread
  have hpam (h : name = "OSPROBE_PAM_LIBRARY") :
      unset.pamLibrary = none ∧ empty = { unset with pamLibrary := some "" } := by
    refine ⟨?_, ?_⟩
    · simp only [unset, h, pamLibrary_ofVariables, parsed?_update_none]
    · rw [hempty, if_pos h, if_neg (by rw [h]; decide)]
  have hzfs (h : name = "OSPROBE_ZFS_LIBRARY") :
      unset.zfsLibrary = none ∧ empty = { unset with zfsLibrary := some "" } := by
    refine ⟨?_, ?_⟩
    · simp only [unset, h, zfsLibrary_ofVariables, parsed?_update_none]
    · rw [hempty, if_pos h, if_neg (by rw [h]; decide)]
  refine ⟨⟨fun heq => ⟨fun h => ?_, fun h => ?_⟩, fun h => ?_⟩, hpam, hzfs⟩
  · obtain ⟨hnone, hsome⟩ := hpam h
    rw [← heq, hsome] at hnone
    cases hnone
  · obtain ⟨hnone, hsome⟩ := hzfs h
    rw [← heq, hsome] at hnone
    cases hnone
  · rw [hempty, if_neg h.1, if_neg h.2]

/-- Where nothing else is set, an empty name of the PAM library is not the same as none. -/
theorem empty_library_name_counts :
    let empty := ofVariables (Function.update (fun _ => none) "OSPROBE_PAM_LIBRARY" (some []))
    let unset := ofVariables (Function.update (fun _ => none) "OSPROBE_PAM_LIBRARY" none)
    empty.pamLibrary = some "" ∧ unset.pamLibrary = none ∧ empty ≠ unset :=
  ⟨by decide, by decide, by decide⟩

end Settings

end HostAccess
