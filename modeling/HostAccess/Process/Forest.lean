import HostAccess.Process.Layout

/-!
# The forest of processes

A listing tells the parent of each process. A process whose parent is not listed, or that
is its own parent, is a root, and the others hang below their parents. Listings are not
taken at one instant and numbers are used again, so nothing rules out that two processes
have one number, or that parents form a cycle. A cycle hangs below no root; and with
repeated numbers a process may be reached from itself, so that the walk below never ends.

The walk keeps a stack of branches. A step takes the topmost branch and puts its children
in its place, so that each process comes before those below it, and those before its next
sibling. Siblings and roots come in the order of their numbers.

* `HostAccess.ForestNode`: a process with its place in the listing and the parent it hangs
  below;
* `HostAccess.ProcessForest.step`: a step of the walk;
* `HostAccess.ProcessForest.walk`: the branches in the order they are taken, `none` if the
  stack is not empty after a number of steps.
-/

namespace HostAccess

/-- A process in the forest. -/
structure ForestNode where
  /-- Where the listing has the process. -/
  place : Nat
  pid : Pid
  /-- The number of the processes that this one hangs below; `none` for a root. -/
  parent : Option Pid
  deriving DecidableEq, Repr

/-- A process on the stack, and how many links lead to it from its root. -/
structure Branch where
  node : ForestNode
  depth : Nat
  deriving DecidableEq, Repr

/-- The processes of a listing, in its order. -/
structure ProcessForest where
  nodes : List ForestNode
  deriving DecidableEq, Repr

namespace ProcessForest

/-- The forest of a list of processes and their parents. -/
def ofParents (processes : List (Pid × Option Pid)) : ProcessForest :=
  let pids := processes.map Prod.fst
  let parentOf (pid : Pid) (told : Option Pid) : Option Pid :=
    told.filter fun ppid => ppid != pid && pids.contains ppid
  ⟨processes.zipIdx.map fun ((pid, told), place) => ⟨place, pid, parentOf pid told⟩⟩

/-- Nodes in the order of their numbers; nodes of one number stay in the listing's order. -/
def sorted (nodes : List ForestNode) : List ForestNode :=
  nodes.mergeSort fun a b => decide (a.pid ≤ b.pid)

/-- The roots, in the order of their numbers. -/
def roots (f : ProcessForest) : List ForestNode :=
  sorted (f.nodes.filter fun n => n.parent == none)

/-- The processes that hang below a number, in the order of theirs. -/
def children (f : ProcessForest) (pid : Pid) : List ForestNode :=
  sorted (f.nodes.filter fun n => n.parent == some pid)

/-- The stack that the walk begins with. -/
def start (f : ProcessForest) : List Branch :=
  f.roots.map fun n => ⟨n, 0⟩

/-- A step of the walk: the topmost branch gives way to its children. -/
def step (f : ProcessForest) : List Branch → List Branch
  | [] => []
  | b :: rest => (f.children b.node.pid).map (fun n => ⟨n, b.depth + 1⟩) ++ rest

/-- The branches taken from a stack, in order; `none` if `steps` steps do not empty it. -/
def walk (f : ProcessForest) : Nat → List Branch → Option (List Branch)
  | _, [] => some []
  | 0, _ :: _ => none
  | steps + 1, b :: rest => (f.walk steps (f.step (b :: rest))).map (b :: ·)

/-- A number of steps after which every walk that ends has ended. A path from a root that
ends visits no process twice, so for `n` processes there are at most `n + n ^ 2 + … + n ^ n`
paths. -/
def stepBound (f : ProcessForest) : Nat :=
  Nat.pow (f.nodes.length + 1) f.nodes.length

/-- The branches of the whole forest in the order of the walk; `none` if it never ends. -/
def branches (f : ProcessForest) : Option (List Branch) :=
  f.walk f.stepBound f.start

end ProcessForest

end HostAccess
