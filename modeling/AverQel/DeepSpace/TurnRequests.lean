/- digest: New turns under a request id: the lock, the two lookups, the rows and the commit. -/
import AverQel.DeepSpace.ChatHistory
import AverQel.Foundation.Interleaving
import AverQel.Foundation.Neighbours

namespace AverQel.DeepSpace.Chat

open Foundation Interleaving

/-- A request id as `stream_turn` keeps it: stripped, and not empty. -/
structure RequestId where
  text : String
  stripped : Text.strip text = text
  filled : text ≠ ""
  deriving DecidableEq

/-- `str(client_request_id or "").strip() or None` -/
def RequestId.ofText (raw : Option String) : Option RequestId :=
  let text := Text.strip (raw.getD "")
  if filled : text ≠ "" then
    some ⟨text, Text.strip_strip _, filled⟩
  else none

structure MessageRow where
  conversationId : Uuid
  message : Message
  deriving DecidableEq, Repr

def MessageRow.id (row : MessageRow) : Uuid := row.message.id

abbrev MessageTable := Table MessageRow MessageRow.id

section Lookups

variable (messages : MessageTable)

def listed (conversationId : Uuid) : List Message :=
  getMessages ((messages.rows.filter fun row => row.conversationId = conversationId).map
    MessageRow.message)

def Message.carries (request : RequestId) (m : Message) : Bool :=
  Text.strip (m.metadata.clientRequestId.getD "") = request.text

def answersRequest (request : RequestId) (pair : Message × Message) : Bool :=
  decide (pair.1.role = .user) && decide (pair.2.role = .assistant) &&
    (pair.1.carries request || pair.2.carries request)

def latestConversation (request : RequestId) : Option Uuid :=
  (maxBy (fun row => row.message.position) (messages.rows.filter fun row =>
    row.message.metadata.clientRequestId = some request.text)).map MessageRow.conversationId

/-- `find_turn_by_request_id` -/
def findTurnByRequestId (conversationId : Option Uuid) (request : RequestId) :
    Option (Message × Message) :=
  match conversationId with
  | some c => (neighbours (listed messages c)).find? (answersRequest request)
  | none =>
    (latestConversation messages request).bind fun c =>
      (neighbours (listed messages c)).find? (answersRequest request)

end Lookups

structure Committed where
  conversations : List Uuid
  messages : MessageTable

/-- What a call is given. -/
structure TurnCall where
  request : Option RequestId
  conversationId : Option Uuid
  prompt : List Char
  attachments : List (String × String)
  deriving DecidableEq

/-- The rows that a call has written in its transaction. -/
structure Written where
  conversationId : Uuid
  /-- The conversation is new. -/
  opened : Bool
  (userMessage assistantMessage : Message)
  deriving DecidableEq

/-- How far a call has come. -/
inductive TurnStage where
  | entered
  | locked
  | searched
  | settled (conversationId : Uuid) (opened : Bool)
  | searchedAgain (conversationId : Uuid) (opened : Bool)
  | written (rows : Written)
  | created (rows : Written)
  | replayed (userMessage assistantMessage : Message)
  /-- `CONVERSATION_NOT_FOUND` -/
  | refused
  /-- The database refuses an id that is taken. -/
  | failed
  deriving DecidableEq

structure TurnPoint where
  call : TurnCall
  stage : TurnStage
  deriving DecidableEq

/-- What a step draws: the start of its transaction, and new ids. -/
structure Draw where
  transactionStart : Time
  (conversationId userMessageId userVersionId assistantMessageId assistantVersionId : Uuid)

/-- Between the lock and the end of the transaction. -/
def TurnStage.inTransaction : TurnStage → Bool
  | locked | searched => true
  | settled _ _ => true
  | searchedAgain _ _ => true
  | written _ => true
  | entered | refused | failed => false
  | created _ => false
  | replayed _ _ => false

variable (hashtext : String → Int)

def TurnPoint.lock (p : TurnPoint) : Option Int :=
  if p.stage.inTransaction then p.call.request.map fun request => hashtext request.text else none

def sameLock (p q : TurnPoint) : Bool :=
  match p.lock hashtext, q.lock hashtext with
  | some a, some b => a = b
  | some _, none => false
  | none, _ => false

def userMetadata (call : TurnCall) : Metadata :=
  { Metadata.empty with
    clientRequestId := call.request.map RequestId.text
    others := call.attachments }

def assistantMetadata (call : TurnCall) : Metadata :=
  { Metadata.empty with
    status := some "streaming"
    clientRequestId := call.request.map RequestId.text
    others := [("surface", "deepspace")] }

/-- The two messages of a new turn, both at the start of the transaction. -/
def writeTurn (call : TurnCall) (draw : Draw) (conversationId : Uuid) (opened : Bool) : Written where
  conversationId := conversationId
  opened := opened
  userMessage := .initial draw.userMessageId draw.userVersionId .user call.prompt
    (userMetadata call) draw.transactionStart
  assistantMessage := .initial draw.assistantMessageId draw.assistantVersionId .assistant []
    (assistantMetadata call) draw.transactionStart

/-- The commit, unless an id is taken. -/
def commitTurn (s : Committed) (rows : Written) : Option Committed :=
  if rows.opened ∧ rows.conversationId ∈ s.conversations then none
  else
    (s.messages.insert? ⟨rows.conversationId, rows.userMessage⟩).bind fun messages =>
      (messages.insert? ⟨rows.conversationId, rows.assistantMessage⟩).map fun messages =>
        { conversations :=
            if rows.opened then rows.conversationId :: s.conversations else s.conversations
          messages := messages }

def afterLookup (found : Option (Message × Message)) (on : TurnStage) : TurnStage :=
  match found with
  | some pair => .replayed pair.1 pair.2
  | none => on

/-- The next step of `stream_turn` on the plain path. -/
def nextStage (draw : Draw) (s : Committed) (call : TurnCall) : TurnStage → Committed × TurnStage
  | .entered =>
    match call.request with
    | some _ => (s, .locked)
    | none => (s, .searched)
  | .locked =>
    (s, afterLookup (call.request.bind (findTurnByRequestId s.messages call.conversationId))
      .searched)
  | .searched =>
    match call.conversationId with
    | none => (s, .settled draw.conversationId true)
    | some c => (s, if c ∈ s.conversations then .settled c false else .refused)
  | .settled c opened =>
    (s, afterLookup (call.request.bind (findTurnByRequestId s.messages (some c)))
      (.searchedAgain c opened))
  | .searchedAgain c opened => (s, .written (writeTurn call draw c opened))
  | .written rows =>
    match commitTurn s rows with
    | some s' => (s', .created rows)
    | none => (s, .failed)
  | .created rows => (s, .created rows)
  | .replayed userMessage assistantMessage => (s, .replayed userMessage assistantMessage)
  | .refused => (s, .refused)
  | .failed => (s, .failed)

def nextTurn (draw : Draw) (s : Committed) (p : TurnPoint) : Committed × TurnPoint :=
  let (s', stage) := nextStage draw s p.call p.stage
  (s', { p with stage := stage })

abbrev TurnSystem := CallSystem Committed TurnPoint

def turnStep (s : TurnSystem) (turn : Nat × Draw) : TurnSystem :=
  advance (sameLock hashtext) nextTurn s turn

def turnsOf (s : Committed) (calls : List TurnCall) : TurnSystem :=
  ⟨s, calls.map fun call => ⟨call, .entered⟩⟩

end AverQel.DeepSpace.Chat
