import HostAccess.Linker
import HostAccess.Login.Conversation
import HostAccess.Session
import HostAccess.Settings
import HostAccess.Text.Utf8

/-!
# Logins through PAM

A login starts a transaction with the PAM library, authenticates the user, checks the
account and ends the transaction. It succeeds only if the first three all do. The library
may answer anything to any call and hold any number of conversations meanwhile.

* `HostAccess.PamLibrary`: the calls of the library;
* `HostAccess.PamLogin`: a loaded library and the settings of a login;
* `HostAccess.PamLogin.load`: loading it;
* `HostAccess.PamLogin.authenticate`: a login.
-/

namespace HostAccess

/-- The calls of a PAM library. Each answers with a code, 0 for success. -/
structure PamLibrary (W : Type) where
  /-- Starts a transaction for a service and a user, with the conversation to hold. -/
  start : (service user : String) → (ConversationCall → ConversationAnswer) → Session W Int32
  authenticate : (flags : Int32) → Session W Int32
  /-- Checks whether the user's account may be used now. -/
  checkAccount : (flags : Int32) → Session W Int32
  /-- Ends the transaction, told how it went. -/
  finish : (code : Int32) → Session W Unit
  /-- The text of a code, asked with or without a transaction. It ends at its first zero
  byte. -/
  describe : (hasTransaction : Bool) → (code : Int32) → Session W (Option Bytes)

/-- A loaded PAM library. -/
structure PamLogin (W : Type) where
  library : PamLibrary W
  /-- Looks up the groups of a user. -/
  groupsOf : String → Session W (Except HostError (List String))
  /-- The service of a login that names none. -/
  defaultService : String
  log : Logger

namespace PamLogin

variable {W : Type}

/-! ### Loading -/

/-- The usual names of the library. -/
def libraryNames : List String := ["libpam.so.0", "libpam.so"]

/-- The symbols that a login needs. -/
def symbols : List String :=
  ["pam_start", "pam_authenticate", "pam_acct_mgmt", "pam_end", "pam_strerror"]

/-- Loads the library that the settings ask for. -/
def load (settings : Settings) (linker : Linker) (library : PamLibrary W)
    (groupsOf : String → Session W (Except HostError (List String))) :
    Session W (Except HostError (PamLogin W)) := do
  let log := settings.log.named "pam"
  match linker.openChosen settings.pamLibrary libraryNames with
  | .error e => return .error e
  | .ok opened =>
    match opened.lookupAll symbols with
    | .error e => return .error e
    | .ok () =>
      Session.log log .debug s!"libpam loaded from {opened.name}"
      return .ok { library, groupsOf, defaultService := settings.pamService, log }

/-! ### Logging in -/

/-- Refuses a text that cannot be passed to the library. -/
def checkText (what text : String) : Except HostError Unit :=
  if text.toList.contains '\x00' then .error (.invalidInput s!"{what} contains NUL") else .ok ()

/-- Refuses a login of which a text cannot be passed to the library. -/
def checkTexts (service user password : String) : Except HostError Unit := do
  checkText "service" service
  checkText "user" user
  checkText "password" password

/-- The rejection of a login, with the library's text for the code. -/
def rejection (l : PamLogin W) (service : String) (hasTransaction : Bool) (code : Int32) :
    Session W HostError := do
  match ← l.library.describe hasTransaction code with
  | some text =>
    return .authentication service (Utf8.decodeLossy (text.takeWhile (· != 0)))
  | none => return .authentication service s!"PAM error {code.toInt}"

/-- The transaction of a login: how it went, as an error or none. -/
def transaction (l : PamLogin W) (service user password : String) :
    Session W (Except HostError Unit) := do
  let started ← l.library.start service user (converse password)
  if started ≠ pamSuccess then
    return .error (← l.rejection service false started)
  let authenticated ← l.library.authenticate 0
  let code ← if authenticated = pamSuccess then l.library.checkAccount 0 else pure authenticated
  let outcome : Except HostError Unit ←
    if code = pamSuccess then pure (.ok ()) else .error <$> l.rejection service true code
  l.library.finish code
  return outcome

/-- Logs a user in: the groups of the user, or why the login was rejected. -/
def authenticate (l : PamLogin W) (service : Option String) (user password : String) :
    Session W (Except HostError (List String)) := do
  let service := service.getD l.defaultService
  match checkTexts service user password with
  | .error e => return .error e
  | .ok () =>
    match ← l.transaction service user password with
    | .error e => return .error e
    | .ok () =>
      Session.log l.log .info s!"PAM({service}) authenticated {user}"
      l.groupsOf user

end PamLogin

end HostAccess
