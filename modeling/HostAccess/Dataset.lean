import HostAccess.Linker
import HostAccess.Session
import HostAccess.Settings

/-!
# ZFS datasets

Whether a dataset exists is asked of the ZFS library. The library is opened once, which
fails on a host without the kernel's part of ZFS, and closed when it is no longer needed.

* `HostAccess.ZfsLibrary`: the calls of the library;
* `HostAccess.Datasets`: the opened library;
* `HostAccess.Datasets.exists?`: whether a dataset exists.
-/

namespace HostAccess

/-- The calls of a ZFS library. -/
structure ZfsLibrary (W : Type) where
  /-- Opens the library; whether it gave a handle. -/
  init : Session W Bool
  /-- Asks for a dataset of a type; any number but 0 means that it exists. -/
  datasetExists : (name : String) → (type : Int32) → Session W Int32
  /-- Closes the library. -/
  finish : Session W Unit

/-- An opened ZFS library. -/
structure Datasets (W : Type) where
  library : ZfsLibrary W
  log : Logger

namespace Datasets

variable {W : Type}

/-- The usual names of the library. -/
def libraryNames : List String :=
  ["libzfs.so.6", "libzfs.so.4", "libzfs.so.2", "libzfs.so.1", "libzfs.so"]

/-- The symbols that are needed. -/
def symbols : List String :=
  ["libzfs_init", "libzfs_fini", "zfs_dataset_exists"]

/-- The type of a file system among the types of datasets. -/
def fileSystemType : Int32 := 1

/-- Loads and opens the library that the settings ask for. -/
def load (settings : Settings) (linker : Linker) (library : ZfsLibrary W) :
    Session W (Except HostError (Datasets W)) := do
  match linker.openChosen settings.zfsLibrary libraryNames with
  | .error e => return .error e
  | .ok opened =>
    match opened.lookupAll symbols with
    | .error e => return .error e
    | .ok () =>
      if ← library.init then
        Session.log settings.log .info s!"ZFS support loaded from {opened.name}"
        return .ok { library, log := settings.log.named "zfs" }
      else
        return .error (.linkage "libzfs_init" "returned no handle")

/-- Whether a file system of a name exists. -/
def exists? (d : Datasets W) (name : String) : Session W (Except HostError Bool) := do
  if name.toList.contains '\x00' then
    return .error (.invalidInput s!"dataset name {Text.quote name}")
  else
    let found := (← d.library.datasetExists name fileSystemType) != 0
    Session.log d.log .debug s!"zfs dataset {name} exists: {found}"
    return .ok found

/-- Closes the library. -/
def close (d : Datasets W) : Session W Unit :=
  d.library.finish

end Datasets

end HostAccess
