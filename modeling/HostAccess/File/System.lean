import HostAccess.File.Node
import HostAccess.File.Path

/-!
# File systems

A file system is a map from locations to nodes. A location is the list of names that lead
from the root directory to a node, innermost first, so that the directory a node lies in
is the tail of its location.

Everything is done in the name of one caller, and the permission bits decide what the
caller may do.

* `HostAccess.FileSystem`: the data;
* `HostAccess.FileSystem.demand`: what the caller may do with a node;
* `HostAccess.FileSystem.walk`: where a path leads, through the links on the way;
* `HostAccess.FileSystem.locate`, `HostAccess.FileSystem.locateNew`: the node that a path
  names, and the place where it would make a new one.
-/

namespace HostAccess

/-! ### Maps of nodes -/

/-- The names that lead to a node, innermost first. -/
abbrev Location := List Bytes

/-- The directory that a path starts from. -/
def FilePath.origin (p : FilePath) (here : Location) : Location :=
  if p.absolute then [] else here

/-- A file system, the directory that relative paths start from, and the caller. -/
structure FileSystem where
  nodes : List (Location × FileNode)
  workingDirectory : Location
  caller : Identity
  deriving DecidableEq, Repr

namespace FileSystem

/-- The node at a location. -/
def node? (fs : FileSystem) (loc : Location) : Option FileNode :=
  fs.nodes.lookup loc

/-- Whether a directory is at a location. -/
def isDirectory (fs : FileSystem) (loc : Location) : Bool :=
  (fs.node? loc).any FileNode.isDirectory

/-- Whether nothing lies in the directory at a location. -/
def isVacant (fs : FileSystem) (loc : Location) : Bool :=
  fs.nodes.all fun (other, _) => other.isEmpty || other.tail != loc

/-- Removes the node at a location. -/
def erase (fs : FileSystem) (loc : Location) : FileSystem :=
  { fs with nodes := fs.nodes.filter fun (other, _) => other != loc }

/-- Puts a node at a location, in the place of an older one. -/
def insert (fs : FileSystem) (loc : Location) (node : FileNode) : FileSystem :=
  let fs' := fs.erase loc
  { fs' with nodes := (loc, node) :: fs'.nodes }

theorem node?_erase (fs : FileSystem) (loc loc' : Location) :
    (fs.erase loc).node? loc' = if loc' = loc then none else fs.node? loc' := by
  obtain ⟨nodes, here, caller⟩ := fs
  simp only [node?, erase]
  induction nodes with
  | nil => simp
  | cons n rest ih => grind

/-- A node replaces the one at its location, and the others stay. -/
theorem node?_insert (fs : FileSystem) (loc loc' : Location) (node : FileNode) :
    (fs.insert loc node).node? loc' = if loc' = loc then some node else fs.node? loc' := by
  have h := node?_erase fs loc loc'
  grind [insert, node?]

/-! ### The caller's rights -/

/-- Whether the caller has a right on the node at a location. -/
def permits (fs : FileSystem) (right : FileRight) (loc : Location) : Bool :=
  (fs.node? loc).any fun node => node.grants fs.caller right

/-- Refuses a caller who lacks a right on the node at a location. -/
def demand (fs : FileSystem) (right : FileRight) (loc : Location) : Except Int32 Unit :=
  if fs.permits right loc then .ok () else .error Errno.denied

theorem demand_eq_ok_iff {fs : FileSystem} {right : FileRight} {loc : Location} :
    fs.demand right loc = .ok () ↔ fs.permits right loc = true := by
  simp only [demand]
  split <;> simp_all

/-- Whether the caller is the owner of a node. -/
def owns (fs : FileSystem) (node : FileNode) : Bool :=
  fs.caller.uid == node.owner

/-- A node that the caller makes. -/
def ownNode (fs : FileSystem) (kind : FileKind) (mode : UInt32) : FileNode :=
  { kind, mode, owner := fs.caller.uid, group := fs.caller.gid }

/-! ### Walking along a path -/

/-- The most symbolic links that are followed on one walk. -/
def maxLinks : Nat := 40

/-- Where a walk leads. -/
inductive Destination where
  /-- A node is there. -/
  | node (loc : Location)
  /-- Only the last name is missing from the directory that it would lie in. -/
  | vacancy (directory : Location) (name : Bytes)
  deriving DecidableEq, Repr

/-- Walks from a location through names. A link is replaced by the walk along its target,
from the directory that it lies in; the link at the very end only if `follow` says so. At
most `links` links are followed. Every step takes the right to search the directory it
starts from, but for the empty name, which only demands that there is a directory. -/
def walk (fs : FileSystem) (follow : Bool) (links : Nat) (here : Location) :
    List Bytes → Except Int32 Destination
  | [] => .ok (.node here)
  | name :: rest =>
    if !fs.isDirectory here then .error Errno.notDirectory
    else if name.isEmpty then fs.walk follow links here rest
    else if !fs.permits .search here then .error Errno.denied
    else if name = FilePath.dot then fs.walk follow links here rest
    else if name = FilePath.dotDot then fs.walk follow links here.tail rest
    else if FilePath.maxNameLength < name.length then .error Errno.nameTooLong
    else
      match fs.node? (name :: here) with
      | none => if rest.isEmpty then .ok (.vacancy here name) else .error Errno.noEntry
      | some node =>
        match node.kind with
        | .link target =>
          if rest.isEmpty && !follow then .ok (.node (name :: here))
          else
            match links with
            | 0 => .error Errno.loop
            | links + 1 =>
              let p := FilePath.split target
              fs.walk follow links (p.origin here) (p.steps ++ rest)
        | _ => fs.walk follow links (name :: here) rest
termination_by names => (links, names.length)

/-- Where the path in a byte string leads. -/
def destination (fs : FileSystem) (follow : Bool) (path : Bytes) : Except Int32 Destination := do
  let p ← FilePath.ofBytes path
  fs.walk follow maxLinks (p.origin fs.workingDirectory) p.steps

/-- The location of the node that a path names. -/
def locate (fs : FileSystem) (follow : Bool) (path : Bytes) : Except Int32 Location := do
  match ← fs.destination follow path with
  | .node loc => return loc
  | .vacancy .. => throw Errno.noEntry

/-- The location and the node that a path names. -/
def find (fs : FileSystem) (follow : Bool) (path : Bytes) :
    Except Int32 (Location × FileNode) := do
  let loc ← fs.locate follow path
  match fs.node? loc with
  | some node => return (loc, node)
  | none => throw Errno.noEntry

/-! ### Places for new nodes -/

/-- Where a path's last name belongs. -/
structure NewPlace where
  directory : Location
  /-- The last name; `none` if it is one that every directory has, or there is none. -/
  name : Option Bytes
  /-- Whether a slash follows the last name. -/
  trailing : Bool
  deriving DecidableEq, Repr

/-- The place that the last name of a path names. Everything before it must lead to a
directory; links are followed there, but not at the last name. -/
def locateNew (fs : FileSystem) (path : Bytes) : Except Int32 NewPlace := do
  let p ← FilePath.ofBytes path
  let start := p.origin fs.workingDirectory
  let name := p.names.getLast?.filter fun name => name != FilePath.dot && name != FilePath.dotDot
  match ← fs.walk true maxLinks start (p.names.dropLast ++ [FilePath.dot]) with
  | .node directory => return { directory, name, trailing := p.trailing }
  | .vacancy .. => throw Errno.noEntry

/-- The location of a name in a directory. -/
def entry (directory : Location) (name : Bytes) : Except Int32 Location :=
  if FilePath.maxNameLength < name.length then .error Errno.nameTooLong
  else .ok (name :: directory)

end FileSystem

end HostAccess
