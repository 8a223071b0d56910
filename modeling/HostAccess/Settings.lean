import HostAccess.Log
import HostAccess.Settings.Lookup

/-!
# Settings

What a host is opened with: which libraries to load, how long to retry, how large buffers
may grow, and where to log. There are defaults, variables of the environment override
them, and a caller may override either.

* `HostAccess.Settings`: the settings;
* `HostAccess.Settings.withLinkBuffers`: the one setting that is clamped;
* `HostAccess.Settings.ofVariables`: the defaults under the overrides of an environment;
* `HostAccess.Settings.summary`: the settings written out.
-/

namespace HostAccess

/-- What a host is opened with. -/
structure Settings where
  /-- The PAM service of a login that names none. -/
  pamService : String := "sshd"
  /-- The PAM library to load instead of the usual names. -/
  pamLibrary : Option String := none
  /-- The ZFS library to load instead of the usual names. -/
  zfsLibrary : Option String := none
  /-- Whether to try to load a ZFS library. -/
  enableZfs : Bool := true
  /-- How often a sized query repeats its fetch. -/
  queryMaxRetries : UInt32 := 16
  /-- The first buffer for a link target. -/
  linkMinBuffer : UInt64 := 512
  /-- The largest buffer for a link target. -/
  linkMaxBuffer : UInt64 := 65536
  log : Logger := {}
  deriving DecidableEq, Repr

namespace Settings

/-! ### Buffers for link targets -/

/-- No buffer for a link target is larger than this. -/
def linkBufferCeiling : UInt64 := 16777216

/-- The value in the interval from `low` to `high` that is nearest to `x`. -/
def clamp (low high x : UInt64) : UInt64 :=
  if x < low then low else if high < x then high else x

/-- Sets the two buffer sizes: each at least one and at most the ceiling, and the largest
not below the first. -/
def withLinkBuffers (s : Settings) (smallest largest : UInt64) : Settings :=
  let first := clamp 1 linkBufferCeiling smallest
  { s with linkMinBuffer := first, linkMaxBuffer := clamp first linkBufferCeiling largest }

/-! ### Overrides from the environment -/

/-- The logger that an environment asks for. -/
def loggerOfVariables (vars : Variables) : Logger :=
  { level := (LogLevel.parse? (Variable.text "info" (vars "OSPROBE_LOG_LEVEL"))).getD .info
    flush := Variable.flag false (vars "OSPROBE_FLUSH_EPRINT") }

/-- The defaults with the overrides of an environment. -/
def ofVariables (vars : Variables) : Settings :=
  let unsigned (bits : Nat) (name : String) : Option Nat :=
    Variable.parsed? (Decimal.unsigned? bits) (vars name)
  let defaults : Settings := {}
  let smallest := ((unsigned 64 "OSPROBE_LINK_MIN_BUF").map UInt64.ofNat).getD
    defaults.linkMinBuffer
  let largest := ((unsigned 64 "OSPROBE_LINK_MAX_BUF").map UInt64.ofNat).getD
    defaults.linkMaxBuffer
  let overridden : Settings := {
    pamService := Variable.text defaults.pamService (vars "OSPROBE_PAM_SERVICE")
    pamLibrary := Variable.parsed? some (vars "OSPROBE_PAM_LIBRARY")
    zfsLibrary := Variable.parsed? some (vars "OSPROBE_ZFS_LIBRARY")
    enableZfs := Variable.flag defaults.enableZfs (vars "OSPROBE_ENABLE_ZFS")
    queryMaxRetries := ((unsigned 32 "OSPROBE_QUERY_MAX_RETRIES").map UInt32.ofNat).getD
      defaults.queryMaxRetries
    log := loggerOfVariables vars }
  overridden.withLinkBuffers smallest largest

/-! ### Writing settings out -/

/-- The settings, one on each line. -/
def summary (s : Settings) : String :=
  let library (name : Option String) : String := name.getD "(platform default)"
  "osprobe configuration:\n" ++
    s!"  pam_service:       {s.pamService}\n" ++
    s!"  pam_library:       {library s.pamLibrary}\n" ++
    s!"  zfs_library:       {library s.zfsLibrary}\n" ++
    s!"  enable_zfs:        {s.enableZfs}\n" ++
    s!"  query_max_retries: {s.queryMaxRetries}\n" ++
    s!"  link buffers:      {s.linkMinBuffer}..={s.linkMaxBuffer}\n" ++
    s!"  log level:         {s.log.level.label}\n"

end Settings

end HostAccess
