import HostAccess.Account
import HostAccess.Bytes

/-!
# Nodes of a file system

A node is a regular file, a directory or a symbolic link. It has two owners, a user and a
group, and permission bits: three for its user, three for its group and three for all
others, each of them for one right, and three more that change how a program runs.

One set of bits decides about a right, and the sets behind it are not asked: an owner whose
own bits lack a right is refused even where all others have it. The power to pass over
permission bits is given to nobody, so the superuser is no exception.

* `HostAccess.FileNode`: the data;
* `HostAccess.FileNode.grants`: whether a node's bits grant a right.
-/

namespace HostAccess

/-- What a node is. -/
inductive FileKind where
  | regular (content : Bytes)
  | directory
  | link (target : Bytes)
  deriving DecidableEq, Repr

/-- A file, a directory or a link. -/
structure FileNode where
  kind : FileKind
  /-- The permission bits, twelve in all. -/
  mode : UInt32
  owner : UInt32
  group : UInt32
  deriving DecidableEq, Repr

/-- What someone may do with a file or a directory. -/
inductive FileRight where
  /-- Read a file, or list a directory. -/
  | read
  /-- Change a file, or what lies in a directory. -/
  | write
  /-- Look a name up in a directory. -/
  | search
  deriving DecidableEq, Repr

/-- The bit of a right in each set of permission bits. -/
def FileRight.bit : FileRight → UInt32
  | read => 4
  | write => 2
  | search => 1

/-- The bits of a mode that are permission bits. -/
def permissionBits : UInt32 := 0xFFF

namespace FileNode

/-- The bits that say what a node is. -/
def typeBits (n : FileNode) : UInt32 :=
  match n.kind with
  | .regular _ => 0x8000
  | .directory => 0x4000
  | .link _ => 0xA000

/-- The whole mode of a node: what it is, and its permission bits. -/
def fullMode (n : FileNode) : UInt32 :=
  n.typeBits ||| n.mode

/-- Whether a node is a directory. -/
def isDirectory (n : FileNode) : Bool :=
  n.kind == .directory

/-- The set of permission bits that decides for someone, in the lowest three bits. -/
def rightsOf (n : FileNode) (who : Identity) : UInt32 :=
  if who.uid = n.owner then n.mode >>> 6
  else if who.gid = n.group then n.mode >>> 3
  else n.mode

/-- Whether a node's permission bits grant someone a right. -/
def grants (n : FileNode) (who : Identity) (right : FileRight) : Bool :=
  n.rightsOf who &&& right.bit != 0

/-- The owner's bits alone decide for the owner. -/
theorem grants_owner {n : FileNode} {who : Identity} (h : who.uid = n.owner)
    (right : FileRight) : n.grants who right = (n.mode >>> 6 &&& right.bit != 0) := by
  simp [grants, rightsOf, h]

end FileNode

end HostAccess
