import HostAccess.Error

/-!
# Users and groups

The account database names users and groups by numbers. A user has a primary group and
may belong to others; a group's number need not have an entry, and is then its own label.

* `HostAccess.Accounts`: the database;
* `HostAccess.Accounts.groupsOf`: the labels of a user's groups.
-/

namespace HostAccess

/-- An entry for a user. -/
structure User where
  name : String
  uid : UInt32
  /-- The primary group. -/
  gid : UInt32
  /-- The groups that the user belongs to besides. -/
  others : List UInt32 := []
  deriving DecidableEq, Repr

/-- An entry for a group. -/
structure Group where
  name : String
  gid : UInt32
  deriving DecidableEq, Repr

/-- The account database. -/
structure Accounts where
  users : List User
  groups : List Group
  deriving DecidableEq, Repr

/-- The user and the group that a program acts as. -/
structure Identity where
  uid : UInt32
  gid : UInt32
  deriving DecidableEq, Repr

namespace Accounts

variable (accounts : Accounts)

/-- The user of a name. -/
def user? (name : String) : Option User :=
  accounts.users.find? fun u => u.name == name

/-- The group of a name. -/
def group? (name : String) : Option Group :=
  accounts.groups.find? fun g => g.name == name

/-- The name of a user. -/
def userName? (uid : UInt32) : Option String :=
  (accounts.users.find? fun u => u.uid == uid).map User.name

/-- The name of a group. -/
def groupName? (gid : UInt32) : Option String :=
  (accounts.groups.find? fun g => g.gid == gid).map Group.name

/-- The label of a group: its name, or its number where it has no entry. -/
def groupLabel (gid : UInt32) : String :=
  (accounts.groupName? gid).getD (toString gid)

/-- Adds a label to those before it, unless it is one of them. -/
def addLabel (labels : List String) (label : String) : List String :=
  if labels.contains label then labels else labels ++ [label]

/-- The labels of a user's groups, each once, the primary group's first. -/
def groupsOf (name : String) : Except HostError (List String) :=
  match accounts.user? name with
  | none => .error (.invalidInput s!"unknown user {name}")
  | some u => .ok (((u.gid :: u.others).map accounts.groupLabel).foldl addLabel [])

/-- The name of the user that a program acts as. -/
def nameOf (identity : Identity) : Except HostError String :=
  match accounts.userName? identity.uid with
  | some name => .ok name
  | none => .error (.invalidInput s!"uid {identity.uid} has no passwd entry")

end Accounts

end HostAccess
