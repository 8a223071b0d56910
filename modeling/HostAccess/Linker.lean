import HostAccess.Error
import HostAccess.Text.Quoted

/-!
# Linking at run time

Optional facilities live in shared libraries that need not be there. A library is opened
by name when it is needed, and its symbols are looked up one by one. Whatever is missing
becomes an error that says what could not be linked and why.

* `HostAccess.Linker`: what names lead to;
* `HostAccess.Linker.open?`, `HostAccess.Linker.openFirst`: a library by one name, and by
  the first of several names that can be opened;
* `HostAccess.Library.lookup`: a symbol of a library.
-/

namespace HostAccess

/-- A shared object as the linker has it. -/
structure LinkedObject where
  /-- What the linker calls it. -/
  path : String
  /-- The symbols that can be found in it. -/
  offers : String → Bool

/-- A linker: what the names of libraries lead to. -/
structure Linker where
  /-- The object of a name, or the reason that there is none. -/
  load : String → Except String LinkedObject
  /-- The running program with all that is linked to it. -/
  program : LinkedObject

/-- An open library. -/
structure Library where
  /-- The name it was opened by. -/
  name : String
  object : LinkedObject

namespace Library

/-- The size of an address in bytes. -/
def pointerSize : Nat := 8

/-- Looks up a symbol as a value of `size` bytes. Only an address can be looked up. -/
def lookup (l : Library) (size : Nat) (symbol : String) : Except HostError Unit :=
  if size ≠ pointerSize then
    .error (.invalidInput s!"{symbol}: symbol type is not pointer-sized")
  else if symbol.toList.contains '\x00' then
    .error (.invalidInput s!"symbol name {Text.quote symbol}")
  else if l.object.offers symbol then .ok ()
  else
    .error (.linkage s!"{l.name}:{symbol}" s!"{l.object.path}: undefined symbol: {symbol}")

/-- Looks up the addresses of several symbols, in order, up to the first that is missing. -/
def lookupAll (l : Library) : List String → Except HostError Unit
  | [] => .ok ()
  | symbol :: rest =>
    match l.lookup pointerSize symbol with
    | .error e => .error e
    | .ok () => l.lookupAll rest

/-- The library written out. -/
def describe (l : Library) : String :=
  "Library \x7b name: " ++ Text.quote l.name ++ " \x7d"

end Library

namespace Linker

/-- The running program as a library. -/
def thisProgram (linker : Linker) : Library :=
  ⟨"<self>", linker.program⟩

/-- Opens a library by its name. The empty name is the running program's. -/
def open? (linker : Linker) (name : String) : Except HostError Library :=
  if name.toList.contains '\x00' then
    .error (.invalidInput s!"library name {Text.quote name}")
  else if name.isEmpty then .ok ⟨name, linker.program⟩
  else
    match linker.load name with
    | .error reason => .error (.linkage name reason)
    | .ok object => .ok ⟨name, object⟩

/-- Opens the first library that can be opened; else the messages of all failures. -/
def firstOrReasons (linker : Linker) : List String → Except (List String) Library
  | [] => .error []
  | name :: rest =>
    match linker.open? name with
    | .ok library => .ok library
    | .error e => (firstOrReasons linker rest).mapError (e.message :: ·)

/-- Opens the first library of a list of names that can be opened. -/
def openFirst (linker : Linker) (names : List String) : Except HostError Library :=
  (linker.firstOrReasons names).mapError fun reasons =>
    .linkage (String.intercalate "|" names) (String.intercalate "; " reasons)

/-- Opens the library that the settings name, or else one of the usual names. -/
def openChosen (linker : Linker) (chosen : Option String) (usual : List String) :
    Except HostError Library :=
  match chosen with
  | some name => linker.open? name
  | none => linker.openFirst usual

/-- Looks up symbols in a library, or in the running program if none is named. -/
def resolve (linker : Linker) (library : Option String) (symbols : List String) :
    Except HostError Unit := do
  let l ← match library with
    | none => pure linker.thisProgram
    | some name => linker.open? name
  l.lookupAll symbols

end Linker

end HostAccess
