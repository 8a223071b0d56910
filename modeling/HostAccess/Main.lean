import HostAccess.Report

/-!
# The command line

Reads the variables and the processes of the running host, and writes the report that the
arguments ask for. Everything else is decided by `HostAccess.Host.reportOn`, which sees the
host only as the value that is read here.

A program that is linked once and for all cannot open libraries later, so the optional
facilities are reported as absent.
-/

namespace HostAccess.Outer

/-- The code of a failed reading. -/
def codeOf : IO.Error → Int32
  | .noFileOrDirectory _ code _ => Int32.ofNat code.toNat
  | .permissionDenied _ code _ => Int32.ofNat code.toNat
  | _ => 5

/-- What a reading answers. -/
def attempt {α : Type} (reading : IO α) : IO (Except Int32 α) := do
  try return .ok (← reading)
  catch e => return .error (codeOf e)

/-- The content of a file. -/
def content (path : String) : IO Bytes := do
  return (← IO.FS.readBinFile path).toList

/-- The files of a process. -/
def readEntry (directory : String) : IO ProcEntry := do
  let stat ← attempt (content s!"{directory}/stat")
  let cmdline ← attempt (content s!"{directory}/cmdline")
  let environ ← attempt (content s!"{directory}/environ")
  let exe ← attempt (do return Utf8.encode (← IO.FS.realPath s!"{directory}/exe").toString)
  return { stat, cmdline, environ, exe }

/-- The directory of processes. -/
def readProcesses (root : String) : IO ProcTree := do
  let entries ← attempt do
    let names := (← (← IO.FS.realPath root).readDir).toList.map (·.fileName)
    names.mapM fun name => do return (Utf8.encode name, ← readEntry s!"{root}/{name}")
  return ⟨entries⟩

/-- The variables that settings look at. -/
def variableNames : List String :=
  ["OSPROBE_LOG_LEVEL", "OSPROBE_FLUSH_EPRINT", "OSPROBE_PAM_SERVICE", "OSPROBE_PAM_LIBRARY",
    "OSPROBE_ZFS_LIBRARY", "OSPROBE_ENABLE_ZFS", "OSPROBE_QUERY_MAX_RETRIES",
    "OSPROBE_LINK_MIN_BUF", "OSPROBE_LINK_MAX_BUF"]

/-- The variables of the program's environment. -/
def readVariables : IO Variables := do
  let values ← variableNames.mapM fun name => do return (name, ← IO.getEnv name)
  return fun name => (values.lookup name).join.map Utf8.encode

/-- Surroundings in which no library can be opened. -/
def surroundings : Surroundings Unit where
  linker :=
    { load := fun name => .error s!"{name}: libraries cannot be opened by this program"
      program := ⟨"", fun _ => false⟩ }
  pam :=
    { start := fun _ _ _ => pure pamBufferError
      authenticate := fun _ => pure pamBufferError
      checkAccount := fun _ => pure pamBufferError
      finish := fun _ => pure ()
      describe := fun _ _ => pure none }
  zfs :=
    { init := pure false
      datasetExists := fun _ _ => pure 0
      finish := pure () }
  accounts := ⟨[], []⟩
  identity := ⟨0, 0⟩
  run := fun _ => .error 1

/-- A world in which there is nothing but processes. -/
def worldOf (processes : ProcTree) : HostWorld Unit where
  files := { files := ⟨[], [], ⟨0, 0⟩⟩, linker := () }
  libraries := ()
  image := ⟨none, .empty, [], none⟩
  processes := processes
  memory := .error Errno.noEntry
  lastError := 0

end HostAccess.Outer

/-- Writes the report that the arguments ask for. -/
def main (arguments : List String) : IO UInt32 := do
  let settings := HostAccess.Settings.ofVariables (← HostAccess.Outer.readVariables)
  let world := HostAccess.Outer.worldOf (← HostAccess.Outer.readProcesses "/proc")
  let report := HostAccess.Host.reportOn HostAccess.Outer.surroundings settings world arguments
  IO.print report.output
  IO.eprint report.errors
  return report.code.toUInt32
