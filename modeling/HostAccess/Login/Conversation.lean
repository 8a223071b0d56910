import HostAccess.Bytes

/-!
# Conversations of a login

While it authenticates a user, the PAM library asks questions by calling back. It passes a
number of messages, each with a style that tells whether it is a prompt. Every prompt is
answered with the password, and every other message without a text.

The library passes addresses, any of which may be missing: those of the messages, of a
single one among them, of the place for the replies and of the conversation's data.

* `HostAccess.ConversationCall`, `HostAccess.ConversationAnswer`: the call and its answer;
* `HostAccess.converse`: the answer.
-/

namespace HostAccess

/-- A call to the conversation. -/
structure ConversationCall where
  /-- How many messages the library says there are. -/
  count : Int32
  /-- The styles of the messages; `none` in the list for a message that is missing, and
  `none` instead of the list if all of them are. -/
  styles : Option (List (Option Int32))
  /-- Whether there is a place for the replies. -/
  hasReplyPlace : Bool := true
  /-- Whether the data of the conversation was passed along. -/
  hasData : Bool := true
  deriving DecidableEq, Repr

/-- What a conversation answers. -/
structure ConversationAnswer where
  code : Int32
  /-- A reply for each message, with a text or without. -/
  replies : Option (List (Option String))
  deriving DecidableEq, Repr

/-- The code of success. -/
def pamSuccess : Int32 := 0

/-- The code of a conversation that could not be held. -/
def pamBufferError : Int32 := 5

/-- Whether a style is that of a prompt, with the typed text shown or hidden. -/
def isPrompt (style : Int32) : Bool :=
  style == 1 || style == 2

/-- The reply to a message. -/
def replyTo (password : String) (style : Option Int32) : Option String :=
  if style.any isPrompt then some password else none

/-- Answers a call: the password to every prompt. -/
def converse (password : String) (call : ConversationCall) : ConversationAnswer :=
  match call.styles with
  | none => ⟨pamBufferError, none⟩
  | some styles =>
    if call.count ≤ 0 || !call.hasReplyPlace || !call.hasData then ⟨pamBufferError, none⟩
    else
      let messages := (List.range call.count.toInt.toNat).map fun i => styles[i]?.join
      ⟨pamSuccess, some (messages.map (replyTo password))⟩

end HostAccess
