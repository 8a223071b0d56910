import HostAccess.Proofs.Host.Calls

/-!
# The course of a login

A PAM library may answer any call with any code, and ask the program whatever it likes through
the conversation it was handed. What a login does then is written down as its *events*
(`HostAccess.LoginEvent`): the conversation handed over, the calls of the library with their
answers, and the look-up of the user's groups.

The calls that decide about the user end in a verdict (`HostAccess.PamLogin.Verdict`), and the
transaction is closed with its code. A login can take four courses
(`HostAccess.PamLogin.Course`), and what makes a login safe (`HostAccess.PamLogin.Safe`) is
read off them.

* `HostAccess.discreet_converse`: what a conversation gives away;
* `HostAccess.PamLogin.exists_course`: every login takes one of the courses;
* `HostAccess.PamLogin.Course.safe`: what the courses have in common;
* `HostAccess.PamLogin.authenticate_safe`: the main result, for any library.
-/

namespace HostAccess

/-! ### Conversations -/

/-- A message that is there and asks for a text to be typed, shown or hidden. -/
def IsPrompt (message : Option (Option Int32)) : Prop :=
  ∃ style, message = some (some style) ∧ (style = 1 ∨ style = 2)

/-- **What a conversation may give away.** A call with messages and with places for the replies
is answered with a reply for each message. The reply to a prompt has the password as its text,
and no other reply has a text. Any other call is turned down. -/
structure Discreet (password : String) (call : ConversationCall) (answer : ConversationAnswer) :
    Prop where
  held : ∀ styles, 0 < call.count → call.styles = some styles → call.hasReplyPlace = true →
    call.hasData = true → answer.code = pamSuccess ∧ ∃ replies, answer.replies = some replies ∧
      (replies.length : Int) = call.count.toInt ∧
      ∀ i < replies.length, (IsPrompt styles[i]? → replies[i]? = some (some password)) ∧
        (¬IsPrompt styles[i]? → replies[i]? = some none)
  turnedDown : call.count ≤ 0 ∨ call.styles = none ∨ call.hasReplyPlace = false ∨
    call.hasData = false → answer = ⟨pamBufferError, none⟩

theorem replyTo_of_isPrompt {password : String} {message : Option (Option Int32)}
    (h : IsPrompt message) : replyTo password message.join = some password := by
  obtain ⟨style, rfl, rfl | rfl⟩ := h <;> rfl

theorem replyTo_of_not_isPrompt {password : String} {message : Option (Option Int32)}
    (h : ¬IsPrompt message) : replyTo password message.join = none := by
  refine if_neg fun hany => h ?_
  obtain ⟨style, hstyle, hprompt⟩ := (Option.any_eq_true ..).1 hany
  rw [isPrompt, Bool.or_eq_true, beq_iff_eq, beq_iff_eq] at hprompt
  exact ⟨style, Option.join_eq_some_iff.1 hstyle, hprompt⟩

/-- **The conversation of a login is discreet**, whatever it is asked. -/
theorem discreet_converse (password : String) (call : ConversationCall) :
    Discreet password call (converse password call) := by
  obtain ⟨count, styles, hasReplyPlace, hasData⟩ := call
  refine ⟨fun shown hcount hstyles hplace hdata => ?_, fun h => ?_⟩
  · dsimp only at hcount hstyles hplace hdata
    subst hstyles hplace hdata
    have hpos : ¬count ≤ 0 := Int32.not_le.2 hcount
    have hnat : (0 : Int) ≤ count.toInt := Int32.le_iff_toInt_le.1 (Int32.le_of_lt hcount)
    have hanswer : converse password ⟨count, some shown, true, true⟩ = ⟨pamSuccess, some <|
        ((List.range count.toInt.toNat).map fun i => shown[i]?.join).map (replyTo password)⟩ := by
      simp [converse, hpos]
    rw [hanswer]
    refine ⟨rfl, _, rfl, ?_, fun i hi => ?_⟩
    · rw [List.length_map, List.length_map, List.length_range, Int.toNat_of_nonneg hnat]
    · rw [List.length_map, List.length_map, List.length_range] at hi
      rw [List.getElem?_map, List.getElem?_map, List.getElem?_range hi]
      refine ⟨fun hprompt => ?_, fun hprompt => ?_⟩
      · exact congrArg some (replyTo_of_isPrompt hprompt)
      · exact congrArg some (replyTo_of_not_isPrompt hprompt)
  · cases styles with
    | none => rfl
    | some shown =>
      have hbad : (decide (count ≤ 0) || !hasReplyPlace || !hasData) = true := by
        simpa [or_assoc] using h
      exact if_pos hbad

/-! ### Events -/

/-- Something that a login does with the outside. -/
inductive LoginEvent where
  /-- A conversation is handed to the library, with the call that follows. -/
  | conversation (conversation : ConversationCall → ConversationAnswer)
  /-- A call of the library, with its answer. -/
  | call (call : PamEvent)
  /-- The groups of a user are looked up. -/
  | groups (user : String) (answer : Except HostError (List String))

/-- The call of the library, if the event is one. -/
@[simp]
def LoginEvent.call? : LoginEvent → Option PamEvent
  | .call made => some made
  | .conversation _ | .groups .. => none

/-- The code that a step of a login was answered with: its start, the authentication of the
user, or the check of the account. -/
@[simp]
def PamEvent.code? : PamEvent → Option Int32
  | .start _ _ code | .authenticate _ code | .checkAccount _ code => some code
  | .finish _ | .describe .. => none

/-- The code of a call that decides about the user. -/
@[simp]
def PamEvent.verdict? : PamEvent → Option Int32
  | .authenticate _ code | .checkAccount _ code => some code
  | .start .. | .finish _ | .describe .. => none

/-- The calls of the library among some events. -/
def callsOf (events : List LoginEvent) : List PamEvent :=
  events.filterMap LoginEvent.call?

@[simp]
theorem callsOf_nil : callsOf [] = [] := rfl

@[simp]
theorem callsOf_conversation_cons (conversation : ConversationCall → ConversationAnswer)
    (events : List LoginEvent) : callsOf (.conversation conversation :: events) = callsOf events :=
  rfl

@[simp]
theorem callsOf_groups_cons (user : String) (answer : Except HostError (List String))
    (events : List LoginEvent) : callsOf (.groups user answer :: events) = callsOf events :=
  rfl

@[simp]
theorem callsOf_call_cons (call : PamEvent) (events : List LoginEvent) :
    callsOf (.call call :: events) = call :: callsOf events := rfl

@[simp]
theorem callsOf_append (events more : List LoginEvent) :
    callsOf (events ++ more) = callsOf events ++ callsOf more :=
  List.filterMap_append

@[simp]
theorem callsOf_map_call (calls : List PamEvent) : callsOf (calls.map .call) = calls := by
  rw [callsOf, List.filterMap_map]
  exact List.filterMap_some

theorem callsOf_subset {front events : List LoginEvent} (h : front ⊆ events) :
    callsOf front ⊆ callsOf events := by
  intro call hcall
  obtain ⟨event, hevent, hmade⟩ := List.mem_filterMap.1 hcall
  exact List.mem_filterMap.2 ⟨event, h hevent, hmade⟩

variable {W : Type}

/-- The same library, with the conversations it is handed and its calls kept beside its
world. -/
def PamLibrary.overheard (library : PamLibrary W) : PamLibrary (W × List LoginEvent) :=
  { library.noting LoginEvent.call with
    start := fun service user conversation => do
      Session.change fun (w, events) => (w, events ++ [.conversation conversation])
      (library.noting LoginEvent.call).start service user conversation }

namespace PamLogin

/-- **The same login, with its events kept** beside the world of the library, in order. -/
def traced (l : PamLogin W) : PamLogin (W × List LoginEvent) where
  library := l.library.overheard
  groupsOf user := (l.groupsOf user).noting fun answer => .groups user answer
  defaultService := l.defaultService
  log := l.log

/-! ### Courses -/

/-- The texts of a login can be passed on: none of them holds a zero byte. -/
def Sendable (service user password : String) : Prop :=
  ∀ text ∈ [service, user, password], '\x00' ∉ text.toList

/-- **A verdict**: the calls that decide about the user, and the code that they end in. The
account is checked only of a user who was authenticated. -/
inductive Verdict : List PamEvent → Int32 → Prop where
  | denied {code : Int32} (failed : code ≠ pamSuccess) : Verdict [.authenticate 0 code] code
  | checked (code : Int32) :
      Verdict [.authenticate 0 pamSuccess, .checkAccount 0 code] code

/-- What is said of a code: the library's text for it, if it has one. -/
def rejectionText (code : Int32) : Option Bytes → String
  | some text => Utf8.decodeLossy (text.takeWhile (· != 0))
  | none => s!"PAM error {code.toInt}"

/-- **The course of a login** through a service: its events, and what comes of it. -/
inductive Course (service user password : String) :
    List LoginEvent → Except HostError (List String) → Prop where
  /-- A text that holds a zero byte cannot be passed on. -/
  | unsendable (what : String) {text : String} (mem : text ∈ [service, user, password])
      (zero : '\x00' ∈ text.toList) :
      Course service user password [] (.error (.invalidInput s!"{what} contains NUL"))
  | unstarted {code : Int32} (text : Option Bytes)
      (sendable : Sendable service user password) (failed : code ≠ pamSuccess) :
      Course service user password
        (.conversation (converse password) ::
          [PamEvent.start service user code, .describe false code text].map .call)
        (.error (.authentication service (rejectionText code text)))
  | rejected {calls : List PamEvent} {code : Int32} (text : Option Bytes)
      (sendable : Sendable service user password) (verdict : Verdict calls code)
      (failed : code ≠ pamSuccess) :
      Course service user password
        (.conversation (converse password) ::
          (PamEvent.start service user pamSuccess ::
            (calls ++ [.describe true code text, .finish code])).map .call)
        (.error (.authentication service (rejectionText code text)))
  | admitted {calls : List PamEvent} (answer : Except HostError (List String))
      (sendable : Sendable service user password) (verdict : Verdict calls pamSuccess) :
      Course service user password
        (.conversation (converse password) ::
          (PamEvent.start service user pamSuccess :: (calls ++ [.finish pamSuccess])).map .call ++
          [.groups user answer])
        answer

/-! ### What is noted -/

section Notes

variable (l : PamLogin W) (w : W)

/-- A start is noted with the conversation that is handed over. -/
theorem notes_start (service user : String)
    (conversation : ConversationCall → ConversationAnswer) :
    (l.library.start service user conversation).Notes
      (l.traced.library.start service user conversation) w
      [.conversation conversation,
        .call (.start service user ((l.library.start service user conversation).run w).value)] := by
  intro before
  rw [List.append_cons]
  rfl

theorem notes_authenticate (flags : Int32) :
    (l.library.authenticate flags).Notes (l.traced.library.authenticate flags) w
      [.call (.authenticate flags ((l.library.authenticate flags).run w).value)] :=
  fun _ => rfl

theorem notes_checkAccount (flags : Int32) :
    (l.library.checkAccount flags).Notes (l.traced.library.checkAccount flags) w
      [.call (.checkAccount flags ((l.library.checkAccount flags).run w).value)] :=
  fun _ => rfl

theorem notes_finish (code : Int32) :
    (l.library.finish code).Notes (l.traced.library.finish code) w [.call (.finish code)] :=
  fun _ => rfl

theorem notes_describe (hasTransaction : Bool) (code : Int32) :
    (l.library.describe hasTransaction code).Notes
      (l.traced.library.describe hasTransaction code) w
      [.call (.describe hasTransaction code
        ((l.library.describe hasTransaction code).run w).value)] :=
  fun _ => rfl

theorem notes_groupsOf (user : String) :
    (l.groupsOf user).Notes (l.traced.groupsOf user) w
      [.groups user ((l.groupsOf user).run w).value] :=
  fun _ => rfl

end Notes

/-! ### The parts of a login -/

section Parts

variable (l : PamLogin W) (service user password : String) (w : W)

/-- The part of a transaction that decides about the user. -/
def decideUser : Session W Int32 := do
  let authenticated ← l.library.authenticate 0
  if authenticated = pamSuccess then l.library.checkAccount 0 else pure authenticated

/-- The part that closes a transaction. -/
def settle (code : Int32) : Session W (Except HostError Unit) := do
  let outcome ←
    if code = pamSuccess then pure (.ok ()) else .error <$> l.rejection service true code
  l.library.finish code
  return outcome

/-- A transaction starts, decides about the user and is closed. -/
theorem transaction_eq : l.transaction service user password = (do
    let started ← l.library.start service user (converse password)
    if started = pamSuccess then
      let code ← l.decideUser
      l.settle service code
    else
      .error <$> l.rejection service false started) := by
  rw [transaction]
  congr 1
  funext started
  -- The program asks whether the start failed; here the success comes first.
  by_cases h : started = pamSuccess
  · rw [if_neg (not_not_intro h), if_pos h, decideUser, bind_assoc]
    congr 1
    funext authenticated
    dsimp only
    split <;> rfl
  · rw [if_pos h, if_neg h, ← bind_pure_comp]

theorem decideUser_notes : ∃ calls, Verdict calls (l.decideUser.run w).value ∧
    l.decideUser.Notes l.traced.decideUser w (calls.map .call) := by
  have hasked := l.notes_authenticate w 0
  rw [decideUser, decideUser, Session.run_bind]
  by_cases h : ((l.library.authenticate 0).run w).value = pamSuccess
  · rw [h] at hasked ⊢
    refine ⟨[.authenticate 0 pamSuccess, .checkAccount 0 _], .checked _, hasked.bind ?_⟩
    rw [h]
    exact l.notes_checkAccount _ 0
  · refine ⟨[.authenticate 0 _], ?_, hasked.bind ?_⟩
    · rw [if_neg h]
      exact .denied h
    · rw [if_neg h, if_neg h]
      exact .pure _ _

theorem rejection_notes (hasTransaction : Bool) (code : Int32) : ∃ text,
    ((l.rejection service hasTransaction code).run w).value =
      .authentication service (rejectionText code text) ∧
    (l.rejection service hasTransaction code).Notes
      (l.traced.rejection service hasTransaction code) w
      [.call (.describe hasTransaction code text)] := by
  refine ⟨((l.library.describe hasTransaction code).run w).value, ?_,
    (l.notes_describe w hasTransaction code).bind ?_⟩
  · rw [rejection, Session.run_bind]
    cases ((l.library.describe hasTransaction code).run w).value <;> rfl
  · cases ((l.library.describe hasTransaction code).run w).value <;> exact .pure _ _

theorem settle_notes_of_passed {code : Int32} (h : code = pamSuccess) :
    ((l.settle service code).run w).value = .ok () ∧
    (l.settle service code).Notes (l.traced.settle service code) w
      [.call (.finish pamSuccess)] := by
  rw [h, settle, settle, if_pos rfl, if_pos rfl, pure_bind, pure_bind]
  exact ⟨rfl, (l.notes_finish w pamSuccess).bind (.pure _ _)⟩

theorem settle_notes_of_failed {code : Int32} (h : code ≠ pamSuccess) : ∃ text,
    ((l.settle service code).run w).value =
      .error (.authentication service (rejectionText code text)) ∧
    (l.settle service code).Notes (l.traced.settle service code) w
      [.call (.describe true code text), .call (.finish code)] := by
  obtain ⟨text, hvalue, hnotes⟩ := l.rejection_notes service w true code
  rw [settle, settle, if_neg h, if_neg h]
  refine ⟨text, ?_, (hnotes.map _).bind ((l.notes_finish _ code).bind (.pure _ _))⟩
  rw [Session.run_bind, Session.run_map, hvalue]
  rfl

end Parts

/-! ### Every login takes a course -/

/-- A text that cannot be passed on is refused before anything else. -/
theorem checkTexts_eq (service user password : String) :
    (Sendable service user password ∧ checkTexts service user password = .ok ()) ∨
    ∃ what : String, ∃ text ∈ [service, user, password], '\x00' ∈ text.toList ∧
      checkTexts service user password = .error (.invalidInput s!"{what} contains NUL") := by
  have hcheck (what text : String) : checkText what text =
      if '\x00' ∈ text.toList then .error (.invalidInput s!"{what} contains NUL") else .ok () := by
    simp only [checkText, List.contains_iff_mem]
  simp only [checkTexts, hcheck]
  by_cases hservice : '\x00' ∈ service.toList
  · exact .inr ⟨"service", service, by simp, hservice, by rw [if_pos hservice]; rfl⟩
  by_cases huser : '\x00' ∈ user.toList
  · exact .inr ⟨"user", user, by simp, huser, by rw [if_neg hservice, if_pos huser]; rfl⟩
  by_cases hpassword : '\x00' ∈ password.toList
  · exact .inr ⟨"password", password, by simp, hpassword,
      by rw [if_neg hservice, if_neg huser, if_pos hpassword]; rfl⟩
  · exact .inl ⟨by simp [Sendable, hservice, huser, hpassword],
      by rw [if_neg hservice, if_neg huser, if_neg hpassword]; rfl⟩

section Run

variable (l : PamLogin W) (service user password : String) (w : W)

/-- A transaction passes, or it is one that a login ends with. -/
theorem transaction_notes (hsend : Sendable service user password) :
    (∃ calls, Verdict calls pamSuccess ∧
      ((l.transaction service user password).run w).value = .ok () ∧
      (l.transaction service user password).Notes (l.traced.transaction service user password) w
        (.conversation (converse password) ::
          (.start service user pamSuccess :: (calls ++ [.finish pamSuccess])).map .call)) ∨
    ∃ e events, Course service user password events (.error e) ∧
      ((l.transaction service user password).run w).value = .error e ∧
      (l.transaction service user password).Notes (l.traced.transaction service user password) w
        events := by
  have hstart := l.notes_start w service user (converse password)
  rw [transaction_eq, transaction_eq, Session.run_bind]
  generalize hrun : (l.library.start service user (converse password)).run w = started at hstart ⊢
  obtain ⟨code, lines, w₁⟩ := started
  dsimp only at hstart ⊢
  by_cases h : code = pamSuccess
  · subst h
    obtain ⟨calls, hverdict, hdecide⟩ := l.decideUser_notes w₁
    rw [if_pos rfl, Session.run_bind]
    by_cases hcode : (l.decideUser.run w₁).value = pamSuccess
    · obtain ⟨hvalue, hsettle⟩ :=
        l.settle_notes_of_passed service (l.decideUser.run w₁).world hcode
      refine .inl ⟨calls, hcode ▸ hverdict, hvalue, ?_⟩
      rw [List.map_cons, List.map_append]
      exact hstart.bind_of_run hrun (hdecide.bind hsettle)
    · obtain ⟨text, hvalue, hsettle⟩ :=
        l.settle_notes_of_failed service (l.decideUser.run w₁).world hcode
      refine .inr ⟨_, _, .rejected text hsend hverdict hcode, hvalue, ?_⟩
      rw [List.map_cons, List.map_append]
      exact hstart.bind_of_run hrun (hdecide.bind hsettle)
  · obtain ⟨text, hvalue, hnotes⟩ := l.rejection_notes service w₁ false code
    refine .inr ⟨_, _, .unstarted text hsend h, ?_, hstart.bind_of_run hrun ?_⟩
    · rw [if_neg h, Session.run_map, hvalue]
    · rw [if_neg h, if_neg h]
      exact hnotes.map _

/-- **Every login takes a course**, and notes just what the course says. -/
theorem exists_course (service : Option String) : ∃ events,
    Course (service.getD l.defaultService) user password events
      ((l.authenticate service user password).run w).value ∧
    (l.authenticate service user password).Notes (l.traced.authenticate service user password) w
      events := by
  rw [authenticate, authenticate, show l.traced.defaultService = l.defaultService from rfl]
  generalize service.getD l.defaultService = service
  obtain ⟨hsend, htexts⟩ | ⟨what, text, hmem, hzero, htexts⟩ := checkTexts_eq service user password
  · rw [htexts]
    dsimp only
    rw [Session.run_bind]
    have hpassed := l.transaction_notes service user password w hsend
    generalize hrun : (l.transaction service user password).run w = r at hpassed ⊢
    obtain ⟨value, lines, w₁⟩ := r
    obtain ⟨calls, hverdict, rfl, hnotes⟩ | ⟨e, events, hcourse, rfl, hnotes⟩ := hpassed
    · refine ⟨_, .admitted _ hsend hverdict, hnotes.bind_of_run hrun ?_⟩
      exact Session.Notes.bind (.log _ _ _ _) (l.notes_groupsOf w₁ user)
    · refine ⟨events, hcourse, ?_⟩
      rw [← List.append_nil events]
      exact hnotes.bind_of_run hrun (.pure _ _)
  · rw [htexts]
    exact ⟨[], .unsendable what hmem hzero, .pure _ _⟩

end Run

/-! ### What makes a login safe -/

/-- The three steps of a login were made, and all of them succeeded. -/
def Passed (calls : List PamEvent) : Prop :=
  (∃ service user, .start service user pamSuccess ∈ calls) ∧
    (∃ flags, .authenticate flags pamSuccess ∈ calls) ∧
    ∃ flags, .checkAccount flags pamSuccess ∈ calls

/-- **What makes a login safe**, told of its events and of what came of it. -/
structure Safe (service user password : String) (events : List LoginEvent)
    (value : Except HostError (List String)) : Prop where
  /-- With texts that can be passed on, a transaction is asked for, and once. -/
  opened : Sendable service user password → ∃ code rest,
    callsOf events = .start service user code :: rest ∧ ∀ s u c, .start s u c ∉ rest
  /-- With any other text there is nothing that a login does. -/
  unsendable : ¬Sendable service user password →
    events = [] ∧ ∃ what, value = .error (.invalidInput what)
  /-- Only a login that passes the three steps succeeds. -/
  admitted : ∀ groups, value = .ok groups → Passed (callsOf events)
  /-- What comes of a login that passes them is the answer about the groups. -/
  passed : Passed (callsOf events) → .groups user value ∈ events
  /-- Groups are looked up after the three steps only, and those of the user. -/
  lookedUp : ∀ before name answer after, events = before ++ .groups name answer :: after →
    name = user ∧ Passed (callsOf before)
  /-- The account is checked only of a user who was authenticated. -/
  checked : ∀ before flags code after,
    callsOf events = before ++ .checkAccount flags code :: after →
      ∃ flags', .authenticate flags' pamSuccess ∈ before
  /-- A transaction that was started is ended once, by the last call, with the code of the last
  call that decided about the user. -/
  ended : ∀ s u, .start s u pamSuccess ∈ callsOf events → ∃ before code,
    callsOf events = before ++ [.finish code] ∧ (∀ c, .finish c ∉ before) ∧
      (before.filterMap PamEvent.verdict?).getLast? = some code
  /-- A transaction that was not started is not ended. -/
  notStarted : ∀ s u code, .start s u code ∈ callsOf events → code ≠ pamSuccess →
    ∀ c, .finish c ∉ callsOf events
  /-- A step that fails leads to a rejection in the name of the service. -/
  rejected : ∀ call ∈ callsOf events, ∀ code, call.code? = some code → code ≠ pamSuccess →
    ∃ message, value = .error (.authentication service message)
  /-- Whatever the library asks is answered discreetly. -/
  discreet : ∀ conversation, .conversation conversation ∈ events →
    ∀ call, Discreet password call (conversation call)

theorem Passed.mono {calls more : List PamEvent} (h : Passed calls) (hsub : calls ⊆ more) :
    Passed more := by
  obtain ⟨⟨service, user, hstart⟩, ⟨flags, hauthenticate⟩, flags', hcheck⟩ := h
  exact ⟨⟨service, user, hsub hstart⟩, ⟨flags, hsub hauthenticate⟩, flags', hsub hcheck⟩

/-- Something that is not among the first comes after them. -/
theorem subset_of_append_eq {α : Type} {front rest before after : List α} {x : α}
    (hfront : x ∉ front) (h : front ++ rest = before ++ x :: after) : front ⊆ before := by
  -- The first part ends before `x`, or else it would hold `x`.
  rcases List.append_eq_append_iff.1 h with ⟨more, rfl, -⟩ | ⟨more, rfl, hrest⟩
  · exact List.subset_append_left _ _
  · cases more with
    | nil => rw [List.append_nil]; exact List.Subset.refl _
    | cons y more =>
      obtain ⟨rfl, -⟩ := List.cons.inj hrest
      exact absurd (List.mem_append_right _ List.mem_cons_self) hfront

/-! ### Verdicts -/

section Verdicts

variable {calls : List PamEvent} {code : Int32}

theorem Verdict.start_not_mem (h : Verdict calls code) (service user : String) (code' : Int32) :
    .start service user code' ∉ calls := by
  cases h <;> simp

theorem Verdict.finish_not_mem (h : Verdict calls code) (code' : Int32) :
    .finish code' ∉ calls := by
  cases h <;> simp

/-- The last call that decides about the user tells the verdict. -/
theorem Verdict.getLast?_verdict? (h : Verdict calls code) :
    (calls.filterMap PamEvent.verdict?).getLast? = some code := by
  cases h <;> rfl

theorem Verdict.code?_eq (h : Verdict calls pamSuccess) {call : PamEvent} (hcall : call ∈ calls) :
    call.code? = some pamSuccess := by
  cases h with
  | denied failed => exact absurd rfl failed
  | checked =>
    rcases List.mem_cons.1 hcall with rfl | hlast
    · rfl
    · rw [List.mem_singleton.1 hlast]
      rfl

theorem Verdict.passed (h : Verdict calls pamSuccess) (service user : String) :
    Passed (.start service user pamSuccess :: calls) := by
  cases h with
  | denied failed => exact absurd rfl failed
  | checked => exact ⟨⟨service, user, by simp⟩, ⟨0, by simp⟩, 0, by simp⟩

/-- With a verdict that is no success, one of the steps failed. -/
theorem Verdict.not_passed (h : Verdict calls code) (failed : code ≠ pamSuccess) :
    (∀ flags, .authenticate flags pamSuccess ∉ calls) ∨
      ∀ flags, .checkAccount flags pamSuccess ∉ calls := by
  cases h with
  | denied => exact .inl fun flags hmem => by simp_all
  | checked => exact .inr fun flags hmem => by simp_all

/-- The account is checked after an authentication that succeeded. -/
theorem Verdict.authenticated (h : Verdict calls code) {service user : String}
    {rest before after : List PamEvent} {flags code' : Int32}
    (hrest : .checkAccount flags code' ∉ rest)
    (hsplit : .start service user pamSuccess :: (calls ++ rest) =
      before ++ .checkAccount flags code' :: after) :
    ∃ flags', .authenticate flags' pamSuccess ∈ before := by
  cases h with
  | denied =>
    -- The account was not checked at all.
    have hmem : .checkAccount flags code' ∈ before ++ .checkAccount flags code' :: after :=
      List.mem_append_right _ List.mem_cons_self
    simp [← hsplit, hrest] at hmem
  | checked code =>
    -- There is one check, and the authentication is in front of it.
    have hsub : [.start service user pamSuccess, .authenticate 0 pamSuccess] ⊆ before :=
      subset_of_append_eq (by simp) hsplit
    exact ⟨0, hsub (by simp)⟩

end Verdicts

/-! ### What the courses have in common -/

namespace Course

variable {service user password : String} {events : List LoginEvent}
  {value : Except HostError (List String)}

theorem opened (h : Course service user password events value)
    (hsend : Sendable service user password) : ∃ code rest,
    callsOf events = .start service user code :: rest ∧ ∀ s u c, .start s u c ∉ rest := by
  cases h with
  | unsendable what mem zero => exact absurd zero (hsend _ mem)
  | unstarted => exact ⟨_, [_], rfl, by simp⟩
  | rejected _ _ verdict => exact ⟨_, _, callsOf_map_call _, by simp [verdict.start_not_mem]⟩
  | @admitted calls _ _ verdict =>
    exact ⟨pamSuccess, calls ++ [.finish pamSuccess], by simp, by simp [verdict.start_not_mem]⟩

theorem refused (h : Course service user password events value)
    (hsend : ¬Sendable service user password) :
    events = [] ∧ ∃ what, value = .error (.invalidInput what) := by
  cases h with
  | unsendable what => exact ⟨rfl, _, rfl⟩
  | unstarted _ sendable | rejected _ sendable | admitted _ sendable =>
    exact absurd sendable hsend

theorem passed_of_ok {groups : List String}
    (h : Course service user password events (.ok groups)) : Passed (callsOf events) := by
  cases h with
  | admitted _ _ verdict =>
    refine (verdict.passed service user).mono ?_
    simp

theorem groups_mem (h : Course service user password events value)
    (hpassed : Passed (callsOf events)) : .groups user value ∈ events := by
  cases h with
  | unsendable | unstarted => simp [Passed] at hpassed
  | rejected _ _ verdict failed =>
    obtain ⟨-, ⟨flags, hmem⟩, flags', hmem'⟩ := hpassed
    obtain hnot | hnot := verdict.not_passed failed
    · simp [hnot] at hmem
    · simp [hnot] at hmem'
  | admitted => exact List.mem_append_right _ List.mem_cons_self

theorem passed_of_groups (h : Course service user password events value)
    {before after : List LoginEvent} {name : String} {answer : Except HostError (List String)}
    (hsplit : events = before ++ .groups name answer :: after) :
    name = user ∧ Passed (callsOf before) := by
  have hmem : .groups name answer ∈ events := by
    rw [hsplit]
    exact List.mem_append_right _ List.mem_cons_self
  cases h with
  | unsendable | unstarted | rejected => simp at hmem
  | admitted _ _ verdict =>
    have hsub := callsOf_subset (subset_of_append_eq (by simp) hsplit)
    obtain ⟨hname, -⟩ : name = user ∧ answer = value := by simpa using hmem
    refine ⟨hname, (verdict.passed service user).mono (List.Subset.trans ?_ hsub)⟩
    simp

theorem authenticated (h : Course service user password events value)
    {before after : List PamEvent} {flags code : Int32}
    (hsplit : callsOf events = before ++ .checkAccount flags code :: after) :
    ∃ flags', .authenticate flags' pamSuccess ∈ before := by
  cases h with
  | unsendable => simp at hsplit
  | unstarted =>
    have hmem : .checkAccount flags code ∈ before ++ .checkAccount flags code :: after :=
      List.mem_append_right _ List.mem_cons_self
    simp [← hsplit] at hmem
  | rejected _ _ verdict =>
    rw [callsOf_conversation_cons, callsOf_map_call] at hsplit
    exact verdict.authenticated (by simp) hsplit
  | @admitted calls _ _ verdict =>
    have hcalls : callsOf (.conversation (converse password) ::
        (PamEvent.start service user pamSuccess :: (calls ++ [.finish pamSuccess])).map .call ++
          [.groups user value]) =
        .start service user pamSuccess :: (calls ++ [.finish pamSuccess]) := by
      simp
    exact verdict.authenticated (by simp) (hcalls.symm.trans hsplit)

theorem ended (h : Course service user password events value) {s u : String}
    (hstart : .start s u pamSuccess ∈ callsOf events) : ∃ before code,
    callsOf events = before ++ [.finish code] ∧ (∀ c, .finish c ∉ before) ∧
      (before.filterMap PamEvent.verdict?).getLast? = some code := by
  cases h with
  | unsendable => simp at hstart
  | unstarted _ _ failed => simp [failed.symm] at hstart
  | @rejected calls code text _ verdict =>
    refine ⟨.start service user pamSuccess :: (calls ++ [.describe true code text]), code, ?_, ?_,
      ?_⟩
    · simp
    · simp [verdict.finish_not_mem]
    · simp only [List.filterMap_cons, List.filterMap_append, PamEvent.verdict?,
        List.filterMap_nil, List.append_nil]
      exact verdict.getLast?_verdict?
  | @admitted calls answer _ verdict =>
    refine ⟨.start service user pamSuccess :: calls, pamSuccess, ?_, ?_, ?_⟩
    · simp
    · simp [verdict.finish_not_mem]
    · rw [List.filterMap_cons_none rfl]
      exact verdict.getLast?_verdict?

theorem not_ended (h : Course service user password events value) {s u : String} {code : Int32}
    (hstart : .start s u code ∈ callsOf events) (failed : code ≠ pamSuccess) (code' : Int32) :
    .finish code' ∉ callsOf events := by
  cases h with
  | unsendable | unstarted => simp
  | rejected _ _ verdict | admitted _ _ verdict =>
    simp [verdict.start_not_mem, failed] at hstart

theorem rejected_of_failed (h : Course service user password events value) {call : PamEvent}
    (hcall : call ∈ callsOf events) {code : Int32} (hcode : call.code? = some code)
    (failed : code ≠ pamSuccess) : ∃ message, value = .error (.authentication service message) := by
  cases h with
  | unsendable => simp at hcall
  | unstarted | rejected => exact ⟨_, rfl⟩
  | @admitted calls _ _ verdict =>
    have hmem : call = .start service user pamSuccess ∨ call ∈ calls ∨
        call = .finish pamSuccess := by
      simpa using hcall
    have hsuccess : code = pamSuccess := by
      rcases hmem with rfl | hmem | rfl
      · exact (Option.some.inj hcode).symm
      · exact Option.some.inj (hcode.symm.trans (verdict.code?_eq hmem))
      · simp at hcode
    exact absurd hsuccess failed

theorem discreet (h : Course service user password events value)
    {conversation : ConversationCall → ConversationAnswer}
    (hmem : .conversation conversation ∈ events) (call : ConversationCall) :
    Discreet password call (conversation call) := by
  have heq : conversation = converse password := by
    cases h with
    | unsendable => simp at hmem
    | unstarted | rejected | admitted => simpa using hmem
  rw [heq]
  exact discreet_converse password call

/-- **Every course of a login is safe.** -/
theorem safe (h : Course service user password events value) :
    Safe service user password events value where
  opened := h.opened
  unsendable := h.refused
  admitted := fun _ hvalue => passed_of_ok (hvalue ▸ h)
  passed := h.groups_mem
  lookedUp := fun _ _ _ _ => h.passed_of_groups
  checked := fun _ _ _ _ => h.authenticated
  ended := fun _ _ => h.ended
  notStarted := fun _ _ _ => h.not_ended
  rejected := fun _ hcall _ => h.rejected_of_failed hcall
  discreet := fun _ => h.discreet

end Course

variable {W : Type}

/-- **A login is safe, whatever the PAM library does**: whatever codes its calls answer with,
whatever it asks in the conversations it holds meanwhile, and whatever is found out about the
groups. The login that keeps its events does what the login does, and its events and what comes
of it are safe. -/
theorem authenticate_safe (l : PamLogin W) (service : Option String) (user password : String)
    (w : W) : ∃ events,
    (l.authenticate service user password).Notes (l.traced.authenticate service user password) w
      events ∧
    Safe (service.getD l.defaultService) user password events
      ((l.authenticate service user password).run w).value := by
  obtain ⟨events, hcourse, hnotes⟩ := l.exists_course user password w service
  exact ⟨events, hnotes, hcourse.safe⟩

end PamLogin

end HostAccess
