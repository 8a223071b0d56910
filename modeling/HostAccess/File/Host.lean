import HostAccess.File.Binding
import HostAccess.File.Operations

/-!
# Files as a session's world

The operations with two bindings end in a few calls of the system. What the system does with
its files is left open: they are of some type `F`, and the calls are a record. A file system
of `HostAccess.FileSystem` is one way to answer them, with the sizes of buffers taken as the
kernel takes them.

The world of the file bindings holds the files, what the linked binding remembers of its entry
points, and whatever those are looked up in.

* `HostAccess.FileSystemCalls`: the calls, `HostAccess.FileSystem.calls` one way to answer them;
* `HostAccess.FileHost`: that world;
* `HostAccess.FileHost.update`, `HostAccess.FileHost.inspect`: an operation on the files as a
  session, its refusal as an error;
* `HostAccess.FileHost.mode`, `HostAccess.FileHost.chown`, `HostAccess.FileHost.move`: the
  operations that have one binding only;
* `HostAccess.FileBinding.makeWritable`: an operation made of others.
-/

namespace HostAccess

/-! ### Calls of the system -/

/-- The calls of a system on files of some kind. A call is refused with a code, and then it
changes nothing. -/
structure FileSystemCalls (F : Type) where
  chmod : (path : Bytes) → (mode : UInt32) → F → Except Int32 F
  symlink : (target link : Bytes) → F → Except Int32 F
  /-- The target of a link, read by whoever takes care that all of it is. -/
  target : (link : Bytes) → F → Except Int32 Bytes
  /-- Reads the target of a link into a buffer of `size` bytes: the number of bytes that the
  system reports, and the bytes it copied to the front. -/
  readlink : (link : Bytes) → (size : Nat) → F → Except Int32 (Nat × Bytes)

/-- The calls as they are answered from a file system. A buffer's size is passed to the kernel
as a signed 32-bit number, which has to be positive. -/
def FileSystem.calls : FileSystemCalls FileSystem where
  chmod path mode fs := fs.chmod path mode
  symlink target link fs := fs.symlink target link
  target link fs := fs.readlink link
  readlink link size fs :=
    let room := (Int32.ofNat size).toInt
    if room ≤ 0 then .error Errno.invalid
    else (fs.readlink link).map fun target =>
      (min target.length room.toNat, target.take room.toNat)

/-! ### The world -/

/-- How an attempt to link ended: well, or with a symbol and the reason why not. -/
abbrev Resolution := Except (String × String) Unit

/-- The world of the file bindings. -/
structure FileHost (F W : Type) where
  files : F
  /-- How the attempt to link the entry points ended, once it was made. -/
  resolution : Option Resolution := none
  /-- What they are looked up in. -/
  linker : W

/-- The refusal of a path with a zero byte by those who check for one themselves. -/
def zeroInPath (operation : String) : HostError :=
  .os operation 0 "file name contained an unexpected NUL byte"

namespace FileHost

variable {F W : Type}

/-- Changes the files. -/
def update (operation : String) (change : F → Except Int32 F) :
    Session (FileHost F W) (Except HostError Unit) :=
  Session.consult fun host =>
    match change host.files with
    | .ok files => (.ok (), { host with files })
    | .error code => (.error (.ofCode operation code), host)

/-- Reads from the files. -/
def inspect {α : Type} (operation : String) (read : F → Except Int32 α) :
    Session (FileHost F W) (Except HostError α) :=
  Session.look fun host => (read host.files).mapError fun code => .ofCode operation code

/-- Refuses a path with a zero byte as an argument that makes no sense. -/
def unlessZero {α : Type} (operation : String) (path : Bytes)
    (x : Session (FileHost F W) (Except HostError α)) :
    Session (FileHost F W) (Except HostError α) :=
  if holdsZero path then pure (.error (.ofCode operation Errno.invalid)) else x

/-! ### Operations with one binding -/

/-- The whole mode of a file. -/
def mode (path : Bytes) : Session (FileHost FileSystem W) (Except HostError UInt32) :=
  unlessZero "stat" path (inspect "stat" fun fs => (fs.stat path).map FileNode.fullMode)

/-- Sets the owners of a file. -/
def chown (path : Bytes) (owner group : UInt32) :
    Session (FileHost FileSystem W) (Except HostError Unit) :=
  unlessZero "chown" path (update "chown" fun fs => fs.chown path owner group)

/-- Gives a file another name, replacing what has it. -/
def move (path path' : Bytes) : Session (FileHost FileSystem W) (Except HostError Unit) :=
  if holdsZero path || holdsZero path' then pure (.error (zeroInPath "move_file"))
  else update "move_file" fun fs => fs.rename path path'

end FileHost

/-! ### Operations made of others -/

/-- The permission bit with which an owner may write. -/
def ownerWriteBit : UInt32 := 0x80

/-- Lets the owner of a file write it, and leaves the other permissions. -/
def FileBinding.makeWritable {W : Type} (b : FileBinding (FileHost FileSystem W))
    (path : Bytes) : Session (FileHost FileSystem W) (Except HostError Unit) := do
  match ← FileHost.mode path with
  | .error e => return .error e
  | .ok mode => b.chmod path ((mode ||| ownerWriteBit) &&& permissionBits)

end HostAccess
