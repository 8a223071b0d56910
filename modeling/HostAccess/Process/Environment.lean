import HostAccess.Text.Utf16

/-!
# Environments and arguments

An environment maps keys to values. It is written as entries `key=value`: the key ends at
the first equals sign and is not empty, and an entry without a key says nothing. Where a
key is given twice, the later value holds.

* `HostAccess.splitEntry?`: an entry's key and value;
* `HostAccess.Environment`: the map, with `get?` as its view;
* `HostAccess.Environment.ofEntries`: the environment that a list of entries describes;
* `HostAccess.Environment.ofBlock`: the environment that a block of 16-bit units describes;
* `HostAccess.ProcessArguments`: what a process was started with, its environment included.
-/

namespace HostAccess

/-! ### Entries -/

/-- Splits at the first equals sign; `none` without one or with nothing before it. -/
def splitEntryChars? (entry : List Char) : Option (List Char × List Char) :=
  let key := entry.takeWhile (· != '=')
  match key, entry.drop key.length with
  | _ :: _, _ :: value => some (key, value)
  | _, _ => none

/-- The key and the value of an entry. -/
def splitEntry? (entry : String) : Option (String × String) :=
  (splitEntryChars? entry.toList).map fun (key, value) =>
    (String.ofList key, String.ofList value)

/-! ### Maps -/

/-- A map from keys to values, as a list of pairs with distinct keys. -/
structure Environment where
  pairs : List (String × String) := []
  deriving DecidableEq, Repr

namespace Environment

/-- The environment without keys. -/
def empty : Environment := {}

/-- Puts a value for a key into a list of pairs, in the place of an older one. -/
def insertPair (key value : String) : List (String × String) → List (String × String)
  | [] => [(key, value)]
  | pair :: rest =>
    if pair.1 = key then (key, value) :: rest else pair :: insertPair key value rest

/-- Sets the value of a key. -/
def insert (e : Environment) (key value : String) : Environment :=
  ⟨insertPair key value e.pairs⟩

/-- The value of a key. -/
def get? (e : Environment) (key : String) : Option String :=
  e.pairs.lookup key

@[simp]
theorem get?_empty (key : String) : empty.get? key = none := rfl

theorem lookup_insertPair (key value key' : String) (pairs : List (String × String)) :
    (insertPair key value pairs).lookup key' =
      if key' = key then some value else pairs.lookup key' := by
  induction pairs with
  | nil => grind [insertPair]
  | cons pair rest ih => grind [insertPair]

/-- The later value of a key holds, and other keys keep theirs. -/
theorem get?_insert (e : Environment) (key value key' : String) :
    (e.insert key value).get? key' = if key' = key then some value else e.get? key' :=
  lookup_insertPair ..

/-- Whether there are no keys. -/
def isEmpty (e : Environment) : Bool :=
  e.pairs.isEmpty

/-- Sets what an entry says, if it says something. -/
def insertEntry (e : Environment) (entry : String) : Environment :=
  match splitEntry? entry with
  | some (key, value) => e.insert key value
  | none => e

/-- The environment that entries describe, read from first to last. -/
def ofEntries (entries : List String) : Environment :=
  entries.foldl insertEntry empty

/-- The pairs in the order of their keys. -/
def toSortedList (e : Environment) : List (String × String) :=
  e.pairs.mergeSort fun p q => decide (p.1 ≤ q.1)

/-- The environment that a block of 16-bit units describes: entries with a zero unit after
each, and an empty entry at the end. Whatever comes after the empty entry does not belong to
it. -/
def ofBlock (block : List UInt16) : Environment :=
  .ofEntries (((block.splitOn 0).takeWhile fun entry => !entry.isEmpty).map Utf16.decodeLossy)

end Environment

/-! ### What a process was started with -/

/-- What a process was started with: the path of its executable, its argument vector and its
environment. -/
structure ProcessArguments where
  /-- The executable as the system recorded it, which need not be the first argument. -/
  execPath : Option String := none
  arguments : List String := []
  environment : Environment := {}
  deriving DecidableEq, Repr

namespace ProcessArguments

/-- Whether neither arguments nor environment are known. -/
def isEmpty (a : ProcessArguments) : Bool :=
  a.arguments.isEmpty && a.environment.isEmpty

/-- The arguments, joined by single spaces. -/
def commandLine (a : ProcessArguments) : String :=
  String.intercalate " " a.arguments

end ProcessArguments

end HostAccess
