import HostAccess.File.System

/-!
# Operations on files

What the system does when it is asked to change a file or to tell about one. A refusal is
a code, and a refused operation changes nothing.

* reading: `HostAccess.FileSystem.stat`, `HostAccess.FileSystem.readlink`,
  `HostAccess.FileSystem.exists?`, `HostAccess.FileSystem.content?`;
* changing a node: `HostAccess.FileSystem.chmod`, `HostAccess.FileSystem.chown`;
* making nodes: `HostAccess.FileSystem.symlink`, `HostAccess.FileSystem.mkdir`,
  `HostAccess.FileSystem.write`;
* moving them: `HostAccess.FileSystem.rename`.
-/

namespace HostAccess

namespace FileSystem

/-! ### Reading -/

/-- The node that a path names, through links. -/
def stat (fs : FileSystem) (path : Bytes) : Except Int32 FileNode :=
  (fs.find true path).map Prod.snd

/-- The target of the link that a path names. -/
def readlink (fs : FileSystem) (path : Bytes) : Except Int32 Bytes := do
  match (← fs.find false path).2.kind with
  | .link target => return target
  | _ => throw Errno.invalid

/-- Whether a path names anything, a link that leads nowhere included. -/
def exists? (fs : FileSystem) (path : Bytes) : Bool :=
  (fs.find false path).toOption.isSome

/-- The content of the regular file that a path names, if the caller may read it. -/
def content? (fs : FileSystem) (path : Bytes) : Option Bytes :=
  match ((fs.stat path).toOption.filter fun node => node.grants fs.caller .read).map
    FileNode.kind with
  | some (.regular content) => some content
  | _ => none

/-! ### Changing a node -/

/-- Sets the permission bits of the node that a path names, which only its owner may do. -/
def chmod (fs : FileSystem) (path : Bytes) (mode : UInt32) : Except Int32 FileSystem := do
  let (loc, node) ← fs.find true path
  if !fs.owns node then throw Errno.notPermitted
  return fs.insert loc { node with mode := mode &&& permissionBits }

/-- The number that leaves an owner as it is. -/
def unchanged : UInt32 := 4294967295

/-- The bit with which a program runs under its owner. -/
def setUserBit : UInt32 := 0x800

/-- The bit with which a program runs under its group. -/
def setGroupBit : UInt32 := 0x400

/-- The bit with which the group may run a program. -/
def groupRunBit : UInt32 := 0x8

/-- The permission bits once an owner was set. Whoever could lend a program its rights loses
that with the ownership, so the bits that do so are cleared; without the right of the group
to run it, the group's bit means something else and stays. -/
def modeAfterChown (n : FileNode) : UInt32 :=
  if n.isDirectory then n.mode
  else
    let mode := n.mode &&& ~~~setUserBit
    if mode &&& groupRunBit = 0 then mode else mode &&& ~~~setGroupBit

/-- Whether the caller may set the owners of a node. Nobody can give a file away: only the
user it has may be set, and only the group it has or the caller's, and both only by that
user. What stays unchanged needs no right. -/
def mayChown (fs : FileSystem) (node : FileNode) (owner group : UInt32) : Bool :=
  (owner == unchanged || fs.owns node && owner == node.owner) &&
    (group == unchanged || fs.owns node && (group == node.group || group == fs.caller.gid))

/-- Sets the owners of the node that a path names. -/
def chown (fs : FileSystem) (path : Bytes) (owner group : UInt32) :
    Except Int32 FileSystem := do
  let (loc, node) ← fs.find true path
  if !fs.mayChown node owner group then throw Errno.notPermitted
  return fs.insert loc { node with
    mode := modeAfterChown node
    owner := if owner = unchanged then node.owner else owner
    group := if group = unchanged then node.group else group }

/-! ### Making nodes -/

/-- Makes a symbolic link. The target may name anything or nothing, but not be empty. -/
def symlink (fs : FileSystem) (target path : Bytes) : Except Int32 FileSystem := do
  FilePath.checkLength target
  let place ← fs.locateNew path
  match place.name with
  | none => throw Errno.taken
  | some name =>
    let loc ← entry place.directory name
    if (fs.node? loc).isSome then throw Errno.taken
    if place.trailing then throw Errno.noEntry
    fs.demand .write place.directory
    return fs.insert loc (fs.ownNode (.link target) 0x1FF)

/-- Makes a directory. -/
def mkdir (fs : FileSystem) (path : Bytes) : Except Int32 FileSystem := do
  let place ← fs.locateNew path
  match place.name with
  | none => throw Errno.taken
  | some name =>
    let loc ← entry place.directory name
    if (fs.node? loc).isSome then throw Errno.taken
    fs.demand .write place.directory
    return fs.insert loc (fs.ownNode .directory 0x1ED)

/-- Makes a regular file, or replaces the content of one. The caller has to be its owner
then, so as to set the mode of a new file in either case. -/
def write (fs : FileSystem) (path content : Bytes) : Except Int32 FileSystem := do
  let file := fs.ownNode (.regular content) 0x1A4
  match ← fs.destination true path with
  | .vacancy directory name =>
    fs.demand .write directory
    return fs.insert (name :: directory) file
  | .node loc =>
    let some old := fs.node? loc | throw Errno.noEntry
    if old.isDirectory then throw Errno.isDirectory
    fs.demand .write loc
    if !fs.owns old then throw Errno.notPermitted
    return fs.insert loc file

/-! ### Moving nodes -/

/-- Where a location is once the node at `source` and all below it moved to `target`. -/
def moved (source target loc : Location) : Location :=
  if source.isSuffixOf loc then loc.take (loc.length - source.length) ++ target else loc

/-- Moves a node and all below it, replacing the node at the target. -/
def move (fs : FileSystem) (source target : Location) : FileSystem :=
  let fs' := fs.erase target
  { fs' with nodes := fs'.nodes.map fun (loc, node) => (moved source target loc, node) }

/-- Refuses a caller who may not move a node from one directory to another, in the place of
what is at the target. Both directories are changed; a directory gives way only to a
directory, and only if nothing lies in it, and a directory takes the place of nothing else;
a directory that comes to lie in another one is changed itself. -/
def checkMove (fs : FileSystem) (node : FileNode) (source target : Location) :
    Except Int32 Unit := do
  fs.demand .write source.tail
  fs.demand .write target.tail
  let old := fs.node? target
  let replaced := old.any FileNode.isDirectory
  if node.isDirectory && old.isSome && !replaced then throw Errno.notDirectory
  if !node.isDirectory && replaced then throw Errno.isDirectory
  if node.isDirectory && source.tail != target.tail then fs.demand .write source
  if replaced && !fs.isVacant target then throw Errno.notEmpty

/-- Gives a node another name. Links are not followed at the last name of either path. -/
def rename (fs : FileSystem) (path path' : Bytes) : Except Int32 FileSystem := do
  let old ← fs.locateNew path
  let new ← fs.locateNew path'
  match old.name, new.name with
  | some oldName, some newName =>
    let source ← entry old.directory oldName
    let some node := fs.node? source | throw Errno.noEntry
    let target ← entry new.directory newName
    if !node.isDirectory && (old.trailing || new.trailing) then throw Errno.notDirectory
    if source.isSuffixOf new.directory then throw Errno.invalid
    if target.isSuffixOf old.directory then throw Errno.notEmpty
    if source = target then return fs
    fs.checkMove node source target
    return fs.move source target
  | _, _ => throw Errno.busy

end FileSystem

end HostAccess
