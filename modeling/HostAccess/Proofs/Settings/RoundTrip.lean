import HostAccess.Proofs.Settings.Changes
import HostAccess.Proofs.Settings.Lookup

/-!
# Settings that are written to an environment

Settings can be handed to another program through its environment. How they are written there
leaves some freedom (`HostAccess.Settings.Exported`): blanks around numbers and words, zeros in
front of numbers, any word for yes or no and for the level of the log, and any letter case.
Reading the environment gives the settings back:
`HostAccess.Settings.ofVariables_of_exported`, the main result.

The sizes of the buffers are clamped when they are read, and settings that a caller came by have
sizes that clamping leaves alone. The tag of the log is not written, so it has to be the usual one.
-/

namespace HostAccess

namespace Settings

/-- **How an environment may hold settings.** -/
structure Exported (s : Settings) (vars : Variables) : Prop where
  pamService : vars "OSPROBE_PAM_SERVICE" = some (Utf8.encode s.pamService)
  pamLibrary : vars "OSPROBE_PAM_LIBRARY" = s.pamLibrary.map Utf8.encode
  zfsLibrary : vars "OSPROBE_ZFS_LIBRARY" = s.zfsLibrary.map Utf8.encode
  enableZfs : ∃ text, vars "OSPROBE_ENABLE_ZFS" = some (Utf8.encode text) ∧
    Text.Spells (Variable.flagWords s.enableZfs) text
  queryMaxRetries : ∃ text, vars "OSPROBE_QUERY_MAX_RETRIES" = some (Utf8.encode text) ∧
    Text.Writes s.queryMaxRetries.toNat text
  linkMinBuffer : ∃ text, vars "OSPROBE_LINK_MIN_BUF" = some (Utf8.encode text) ∧
    Text.Writes s.linkMinBuffer.toNat text
  linkMaxBuffer : ∃ text, vars "OSPROBE_LINK_MAX_BUF" = some (Utf8.encode text) ∧
    Text.Writes s.linkMaxBuffer.toNat text
  level : ∃ text, vars "OSPROBE_LOG_LEVEL" = some (Utf8.encode text) ∧
    Text.Spells s.log.level.words text
  flush : ∃ text, vars "OSPROBE_FLUSH_EPRINT" = some (Utf8.encode text) ∧
    Text.Spells (Variable.flagWords s.log.flush) text

/-- A name of a library that has no blanks at its ends, or none. -/
def TrimmedName (library : Option String) : Prop :=
  ∀ name ∈ library, Text.trim name = name

theorem parsed?_map_encode {library : Option String} (h : TrimmedName library) :
    Variable.parsed? some (library.map Utf8.encode) = library := by
  cases library with
  | none => rfl
  | some name => rw [Option.map_some, Variable.parsed?_encode, h name rfl]

namespace Exported

variable {s : Settings} {vars : Variables}

/-- The log is read back, but for its tag. -/
theorem loggerOfVariables (h : s.Exported vars) (htag : s.log.tag = "osprobe") :
    Settings.loggerOfVariables vars = s.log := by
  obtain ⟨level, hlevel, hspells⟩ := h.level
  obtain ⟨flush, hflush, hflag⟩ := h.flush
  have hne : level ≠ "" := hspells.ne_empty LogLevel.isWord_of_mem_words
  simp only [Settings.loggerOfVariables, hlevel, hflush, Variable.text_encode hne,
    LogLevel.parse?_of_spells hspells, Variable.flag_of_spells hflag, Option.getD_some, ← htag]

/-- What is read before the sizes of the buffers are clamped. -/
theorem ofVariables_eq (h : s.Exported vars) (hservice : s.pamService ≠ "")
    (hpam : TrimmedName s.pamLibrary) (hzfs : TrimmedName s.zfsLibrary)
    (htag : s.log.tag = "osprobe") :
    ofVariables vars = s.withLinkBuffers s.linkMinBuffer s.linkMaxBuffer := by
  obtain ⟨_, henable, hspells⟩ := h.enableZfs
  obtain ⟨_, hretries, hnumber⟩ := h.queryMaxRetries
  obtain ⟨_, hmin, hsmallest⟩ := h.linkMinBuffer
  obtain ⟨_, hmax, hlargest⟩ := h.linkMaxBuffer
  simp only [ofVariables, withLinkBuffers, h.pamService, h.pamLibrary, h.zfsLibrary, henable,
    hretries, hmin, hmax, h.loggerOfVariables htag, Variable.text_encode hservice,
    parsed?_map_encode hpam, parsed?_map_encode hzfs, Variable.flag_of_spells hspells,
    Variable.number_of_writes s.queryMaxRetries.toNat_lt hnumber,
    Variable.number_of_writes s.linkMinBuffer.toNat_lt hsmallest,
    Variable.number_of_writes s.linkMaxBuffer.toNat_lt hlargest, Option.map_some,
    Option.getD_some, UInt32.ofNat_toNat, UInt64.ofNat_toNat]

end Exported

/-- **Settings that an environment holds are read back**, if a caller came by them from the
defaults, the service has a name, the names of the libraries have no blanks at their ends, and the
log has the usual tag. -/
theorem ofVariables_of_exported (changes : List SettingsChange) (vars : Variables)
    (hservice : (applyAll {} changes).pamService ≠ "")
    (hpam : ∀ name ∈ (applyAll {} changes).pamLibrary, Text.trim name = name)
    (hzfs : ∀ name ∈ (applyAll {} changes).zfsLibrary, Text.trim name = name)
    (htag : (applyAll {} changes).log.tag = "osprobe")
    (hvars : (applyAll {} changes).Exported vars) :
    ofVariables vars = applyAll {} changes := by
  rw [hvars.ofVariables_eq hservice hpam hzfs htag,
    (buffersInRange_default.applyAll changes).withLinkBuffers]

/-- Changes of every setting, with sizes that are clamped. -/
def manyChanges : List SettingsChange :=
  [.pamService " login ", .pamLibrary "libpam.so.0", .zfsLibrary "libzfs.so", .enableZfs false,
    .queryMaxRetries 4294967295, .linkBuffers 0 18446744073709551615,
    .log { level := .warn, flush := true }]

/-- An environment that holds the settings after these changes, written in unusual ways. -/
def unusualVariables : Variables := fun name =>
  ([("OSPROBE_PAM_SERVICE", " login "), ("OSPROBE_PAM_LIBRARY", "libpam.so.0"),
    ("OSPROBE_ZFS_LIBRARY", "libzfs.so"), ("OSPROBE_ENABLE_ZFS", "\tnO "),
    ("OSPROBE_QUERY_MAX_RETRIES", "04294967295"), ("OSPROBE_LINK_MIN_BUF", " 0001"),
    ("OSPROBE_LINK_MAX_BUF", "16777216\n"), ("OSPROBE_LOG_LEVEL", "WarninG"),
    ("OSPROBE_FLUSH_EPRINT", "YES")].lookup name).map Utf8.encode

theorem exported_unusualVariables : (applyAll {} manyChanges).Exported unusualVariables where
  pamService := rfl
  pamLibrary := rfl
  zfsLibrary := rfl
  enableZfs := ⟨"\tnO ", rfl, ['\t'], ['n', 'O'], [' '], by decide, by decide, by decide, rfl⟩
  queryMaxRetries := ⟨"04294967295", rfl, [], 1, [], by decide, by decide, by decide +kernel⟩
  linkMinBuffer := ⟨" 0001", rfl, [' '], 3, [], by decide, by decide, by decide +kernel⟩
  linkMaxBuffer := ⟨"16777216\n", rfl, [], 0, ['\n'], by decide, by decide, by decide +kernel⟩
  level := ⟨"WarninG", rfl, [], "WarninG".toList, [], by decide, by decide, by decide, rfl⟩
  flush := ⟨"YES", rfl, [], ['Y', 'E', 'S'], [], by decide, by decide, by decide, rfl⟩

theorem ofVariables_of_exported_unusualVariables :
    (applyAll {} manyChanges).Exported unusualVariables ∧
      ofVariables unusualVariables = applyAll {} manyChanges ∧
      (applyAll {} manyChanges).linkMinBuffer = 1 ∧
      (applyAll {} manyChanges).linkMaxBuffer = 16777216 := by
  refine ⟨exported_unusualVariables, ?_, by decide, by decide⟩
  exact ofVariables_of_exported manyChanges unusualVariables (by decide) (by decide) (by decide)
    (by decide) exported_unusualVariables

end Settings

end HostAccess
