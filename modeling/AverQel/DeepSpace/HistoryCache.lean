/- digest: The cached chat history, the requests that fill and clear it, and when it is current. -/
import AverQel.DeepSpace.ChatHistory
import AverQel.Foundation.ReadThrough
import AverQel.Providers.StreamParsing

namespace AverQel.DeepSpace.Chat

open Foundation ReadThrough Transition Interleaving
open Providers (Json Fields stringField)

def roleText : MessageRole → List Char
  | .user => "user".toList
  | .assistant => "assistant".toList

/-- `str` of a UUID. -/
def uuidText (id : Uuid) : List Char :=
  let hex := (List.range 32).map fun i => Nat.digitChar (id / Nat.pow 16 (31 - i) % 16)
  hex.take 8 ++ '-' :: ((hex.drop 8).take 4 ++ '-' :: ((hex.drop 12).take 4 ++
    '-' :: ((hex.drop 16).take 4 ++ '-' :: hex.drop 20)))

@[simp] theorem length_uuidText (id : Uuid) : (uuidText id).length = 36 := by
  simp [uuidText]

def Envelope.json (e : Envelope) : Json :=
  .object [("version", .number (toString e.version)), ("kid", .string e.kid.toList),
    ("nonce", .string e.nonce.toList), ("ciphertext", .string e.ciphertext.toList)]

def Metadata.envelopeAt (metadata : Metadata) (turn : Int) : Json :=
  match (metadata.continuations.getD []).lookup (toString turn) with
  | some envelope => envelope.json
  | none => .null

/-- `_PRIVATE_PROVIDER_CONTINUATION_REF` -/
def continuationRef : String := "__deepspace_provider_continuation_ref"

/-- The reference of an answer to the continuation of its last turn. -/
def Message.reference (m : Message) (metadata : Metadata) : Fields :=
  match m.role, metadata.lastTurn with
  | .assistant, some turn =>
    [(continuationRef, .object [("message_id", .string (uuidText m.id)),
      ("turn_index", .number (toString turn)), ("envelope", metadata.envelopeAt turn)])]
  | .assistant, none => []
  | .user, _ => []

def Message.current (m : Message) : List Char × Metadata :=
  match m.activeVersion with
  | some version => (version.content, version.metadata)
  | none => (m.content, m.metadata)

def Message.normalized (m : Message) : Option Fields :=
  if Text.stripChars m.current.1 = [] then none
  else
    some ([("role", .string (roleText m.role)), ("content", .string m.current.1)] ++
      m.reference m.current.2)

/-- `items[-n:]` -/
def takeLast {α : Type} (n : Nat) (items : List α) : List α := items.drop (items.length - n)

/-- `_messages` without anchors, as it is computed from the database. -/
def uncached (rows : List Message) : List Fields :=
  (takeLast 20 (getMessages rows)).filterMap Message.normalized

section Cache

/-- `str` of a JSON value that is no text. -/
structure JsonText where
  str : Json → List Char

variable (text : JsonText)

def JsonText.of : Json → List Char
  | .string chars => chars
  | other => text.str other

/-- The reference of a cached message, cut to what may be restored. -/
def restoreReference (item : Fields) : Fields :=
  match item.lookup continuationRef with
  | some (.object reference) =>
    [(continuationRef, .object
      [("message_id", .string ((text.of ((reference.lookup "message_id").getD (.string []))).take 64)),
        ("turn_index", (reference.lookup "turn_index").getD .null),
        ("envelope",
          match reference.lookup "envelope" with
          | some (.object fields) => .object fields
          | _ => .null)])]
  | _ => []

/-- A cached message as `get` returns it. -/
def restoreItem (item : Fields) : Fields :=
  [("role", .string (text.of ((item.lookup "role").getD (.string [])))),
    ("content", .string (text.of ((item.lookup "content").getD (.string []))))] ++
    restoreReference text item

/-- The cached history as `_messages` returns it. -/
def restoreHistory (items : List Fields) : List Fields := takeLast 20 (items.map (restoreItem text))

theorem restoreReference_reference (m : Message) (metadata : Metadata) (role content : Json) :
    restoreReference text ([("role", role), ("content", content)] ++ m.reference metadata) =
      m.reference metadata := by
  unfold Message.reference
  cases m.role with
  | user => rfl
  | assistant =>
    cases metadata.lastTurn with
    | none => rfl
    | some turn =>
      have short : (uuidText m.id).take 64 = uuidText m.id := List.take_of_length_le (by simp)
      have kept : (match some (metadata.envelopeAt turn) with
          | some (.object fields) => Json.object fields
          | _ => .null) = metadata.envelopeAt turn := by
        unfold Metadata.envelopeAt
        cases (metadata.continuations.getD []).lookup (toString turn) <;> rfl
      change [(continuationRef, Json.object [("message_id", .string ((uuidText m.id).take 64)),
        ("turn_index", .number (toString turn)),
        ("envelope",
          match some (metadata.envelopeAt turn) with
          | some (.object fields) => Json.object fields
          | _ => .null)])] = _
      rw [short, kept]

theorem restoreItem_normalized {m : Message} {item : Fields} (h : m.normalized = some item) :
    restoreItem text item = item := by
  unfold Message.normalized at h
  split_ifs at h with blank
  obtain rfl := Option.some.inj h
  unfold restoreItem
  rw [restoreReference_reference]
  rfl

theorem length_takeLast {α : Type} (n : Nat) (items : List α) : (takeLast n items).length ≤ n := by
  rw [takeLast, List.length_drop]
  omega

theorem takeLast_eq_self {α : Type} {n : Nat} {items : List α} (short : items.length ≤ n) :
    takeLast n items = items := by
  have none_ : items.length - n = 0 := by omega
  rw [takeLast, none_, List.drop_zero]

theorem restoreHistory_uncached (rows : List Message) :
    restoreHistory text (uncached rows) = uncached rows := by
  have same : (uncached rows).map (restoreItem text) = uncached rows := by
    refine (List.map_congr_left ?_).trans (List.map_id (uncached rows))
    intro item member
    obtain ⟨m, _, normal⟩ := List.mem_filterMap.mp member
    exact restoreItem_normalized text normal
  have short : (uncached rows).length ≤ 20 :=
    Nat.le_trans (List.length_filterMap_le _ _) (length_takeLast 20 (getMessages rows))
  rw [restoreHistory, same, takeLast_eq_self short]

end Cache

/-- What a request writes in one commit. -/
inductive Mutation where
  | add (added : List Message)
  | createVersion (id versionId : Uuid) (content : List Char) (sourceType : String)
      (active : Bool) (metadata : Option Metadata)
  | activate (id versionId : Uuid)
  | complete (id : Uuid) (content : List Char) (metadata : Metadata)
  | reset (id : Uuid) (metadata : Metadata)
  | delete (id : Uuid)
  | deleteConversation

def Mutation.apply (rows : List Message) : Mutation → List Message
  | add added => rows ++ added
  | createVersion id versionId content sourceType active metadata =>
    onMessage id (fun m => m.createVersion versionId content sourceType active metadata) rows
  | .activate id versionId => onMessage id (fun m => m.activateVersion versionId) rows
  | complete id content metadata => onMessage id (fun m => m.complete content metadata) rows
  | reset id metadata => onMessage id (fun m => m.reset metadata) rows
  | delete id => rows.filter fun m => m.id ≠ id
  | deleteConversation => []

structure Change where
  conversationId : Uuid
  mutation : Mutation

structure Scope where
  (roles permissions : List String)
  deriving DecidableEq

/-- The end of `_key`: what stands for the roles and permissions in it. -/
abbrev Digest := Scope → String

abbrev Key := Uuid × String

abbrev Database := Uuid → List Message

def historySource (text : JsonText) : Source Database Uuid Key (List Fields) Change where
  subject := Prod.fst
  view data conversationId := uncached (data conversationId)
  restore := restoreHistory text
  touched := Change.conversationId
  apply change data :=
    Function.update data change.conversationId
      (change.mutation.apply (data change.conversationId))

abbrev HistoryPoint := Point Database Uuid Key (List Fields) Change

/-- The requests of one user that read, write or clear the history of a conversation. -/
inductive Request where
  /-- `_messages` without anchors -/
  | messages (scope : Scope)
  /-- A new turn: two messages, and then the key of its caller. -/
  | turn (scope : Scope) (userMessage assistantMessage : Message)
  /-- An answer to a question of the assistant. -/
  | answer (message : Message)
  /-- A retry from the saved prompt. -/
  | retryFromStart (scope : Scope) (id : Uuid) (metadata : Metadata)
  /-- A retry from a checkpoint. -/
  | resumeFailed (id : Uuid) (metadata : Metadata)
  | regenerate (id versionId : Uuid) (metadata : Metadata)
  /-- An edit of a prompt or of a visual block. -/
  | edit (id versionId : Uuid) (content : List Char) (sourceType : String)
      (metadata : Option Metadata)
  | activateVersion (id versionId : Uuid)
  | completeTurn (scope : Scope) (id : Uuid) (content : List Char) (metadata : Metadata)
  /-- The text of a failure instead of an answer. -/
  | failTurn (id : Uuid) (content : List Char) (metadata : Metadata)
  | deleteMessage (id : Uuid)
  | deleteConversation
  /-- The entry of a scope reaches its age limit. -/
  | expire (scope : Scope)

variable (digest : Digest)

/-- The steps of a request on a conversation, from its start. -/
def Request.point (conversationId : Uuid) : Request → HistoryPoint
  | messages scope => .asking (conversationId, digest scope)
  | turn scope userMessage assistantMessage =>
    .writing false [.commit ⟨conversationId, .add [userMessage, assistantMessage]⟩,
      .forget (conversationId, digest scope)]
  | answer message => .writing false [.commit ⟨conversationId, .add [message]⟩]
  | retryFromStart scope id metadata =>
    .writing false [.commit ⟨conversationId, .reset id metadata⟩,
      .forget (conversationId, digest scope)]
  | resumeFailed id metadata => .writing false [.commit ⟨conversationId, .reset id metadata⟩]
  | regenerate id versionId metadata =>
    .writing false
      [.commit ⟨conversationId, .createVersion id versionId [] "regenerate" true (some metadata)⟩]
  | edit id versionId content sourceType metadata =>
    .writing false
      [.commit ⟨conversationId, .createVersion id versionId content sourceType true metadata⟩]
  | activateVersion id versionId =>
    .writing false [.commit ⟨conversationId, .activate id versionId⟩]
  | completeTurn scope id content metadata =>
    .writing false [.commit ⟨conversationId, .complete id content metadata⟩,
      .forget (conversationId, digest scope)]
  | failTurn id content metadata =>
    .writing false [.commit ⟨conversationId, .complete id content metadata⟩]
  | deleteMessage id =>
    .writing false [.forgetAll conversationId, .commit ⟨conversationId, .delete id⟩]
  | deleteConversation =>
    .writing false [.forgetAll conversationId, .forgetAll conversationId,
      .commit ⟨conversationId, .deleteConversation⟩]
  | expire scope => .writing false [.forget (conversationId, digest scope)]

abbrev HistorySystem := ReadThrough.System Database Uuid Key (List Fields) Change

def startOf (data : Database) (requests : List (Uuid × Request)) : HistorySystem :=
  ⟨⟨data, [], []⟩, requests.map fun request => request.2.point digest request.1⟩

variable (text : JsonText) (digest : Digest)

theorem lawful_historySource : (historySource text).Lawful where
  restore_view data conversationId := restoreHistory_uncached text (data conversationId)
  view_apply change data conversationId apart := by
    have same : Function.update data change.conversationId
        (change.mutation.apply (data change.conversationId)) conversationId =
        data conversationId := Function.update_of_ne apart _ _
    exact congrArg uncached same

theorem fresh_point (conversationId : Uuid) (request : Request) :
    (request.point digest conversationId).fresh = true := by
  cases request <;> rfl

theorem sound_startOf (data : Database) (requests : List (Uuid × Request)) :
    Sound (historySource text) (startOf digest data requests) := by
  apply sound_of_fresh rfl
  intro point member
  obtain ⟨request, _, rfl⟩ := List.mem_map.mp member
  exact fresh_point digest request.1 request.2

/-- Every history that is returned was the database's at some moment of the call, in every state
of a run in which no cached key is asked for while a writer has still to clear it, and in which a
change is committed only when no call holds a history of the conversation that it has still to
store and when the same request will clear every entry of the conversation. -/
theorem history_agrees_of_careful (data : Database) (requests : List (Uuid × Request))
    (turns : List (Nat × Unit))
    (careful : Guarded (Careful (historySource text)) (ReadThrough.step (historySource text))
      (startOf digest data requests) turns) :
    ∀ s ∈ trace (ReadThrough.step (historySource text)) (startOf digest data requests) turns,
      Agrees (historySource text) s :=
  agrees_of_careful (lawful_historySource text) (sound_startOf text digest data requests) careful

def plainText : JsonText := ⟨fun _ => []⟩

def joinedDigest : Digest := fun scope => String.join (scope.roles ++ scope.permissions)

def member : Scope := ⟨["member"], ["queries:run"]⟩

def promptAt (id : Uuid) (createdAt : Time) (content : String) : Message :=
  .initial id (id + 1) .user content.toList Metadata.empty createdAt

def answerAt (id : Uuid) (createdAt : Time) (content : String) : Message :=
  .initial id (id + 1) .assistant content.toList
    { Metadata.empty with status := some "streaming" } createdAt

def oneConversation : Database := fun conversationId =>
  if conversationId = 6701 then
    [promptAt 6710 1 "ask", (answerAt 6720 2 "first").createVersion 6722 "second".toList
      "visual_edit" true none]
  else []

def orderlyRequests : List (Uuid × Request) :=
  [(6701, .messages member),
    (6701, .turn member (promptAt 6730 3 "next") (answerAt 6740 3 "")),
    (6701, .messages member)]

def orderlyTurns : List (Nat × Unit) :=
  [(0, ()), (0, ()), (0, ()), (1, ()), (1, ()), (2, ()), (2, ()), (2, ())]

theorem history_agrees_of_careful_orderly :
    Guarded (Careful (historySource plainText)) (ReadThrough.step (historySource plainText))
        (startOf joinedDigest oneConversation orderlyRequests) orderlyTurns ∧
      ∀ s ∈ trace (ReadThrough.step (historySource plainText))
          (startOf joinedDigest oneConversation orderlyRequests) orderlyTurns,
        Agrees (historySource plainText) s := by
  have careful : Guarded (Careful (historySource plainText))
      (ReadThrough.step (historySource plainText))
      (startOf joinedDigest oneConversation orderlyRequests) orderlyTurns := by
    decide +kernel
  exact ⟨careful, history_agrees_of_careful plainText joinedDigest oneConversation
    orderlyRequests orderlyTurns careful⟩

def switchingRequests : List (Uuid × Request) :=
  [(6701, .messages member), (6701, .activateVersion 6720 6721), (6701, .messages member)]

def switchingTurns : List (Nat × Unit) := [(0, ()), (0, ()), (0, ()), (1, ()), (2, ())]

def textsOf (items : List Fields) : List (List Char) := items.map fun item =>
  stringField item "content"

/-- The texts of the answer, and of the histories at its moments. -/
def shownTexts : HistoryPoint → Option (List (List (List Char)) × List (List Char))
  | .answered key moments value =>
    some (moments.map fun data => textsOf (uncached (data key.1)), textsOf value)
  | .asking _ => none
  | .missed _ _ => none
  | .read _ _ _ => none
  | .writing _ _ => none

theorem shown_of_agrees {s : HistorySystem} (agrees : Agrees (historySource plainText) s)
    {point : HistoryPoint} (called : point ∈ s.calls)
    {moments : List (List (List Char))} {texts : List (List Char)}
    (shown : shownTexts point = some (moments, texts)) : texts ∈ moments := by
  cases point with
  | answered key times value =>
    simp only [shownTexts, Option.some.injEq, Prod.mk.injEq] at shown
    obtain ⟨data, moment, same⟩ := agrees key times value called
    rw [← shown.1, ← shown.2, same]
    exact List.mem_map_of_mem moment
  | asking | missed | read | writing => cases shown

/-- The first version is active again, and the history that is read after it has the second. -/
theorem not_history_agrees_switching :
    ¬∀ s ∈ trace (ReadThrough.step (historySource plainText))
        (startOf joinedDigest oneConversation switchingRequests) switchingTurns,
      Agrees (historySource plainText) s := by
  intro agrees
  have last := agrees _ (run_mem_trace _ _ _)
  have read : ∃ point ∈ (run (ReadThrough.step (historySource plainText))
      (startOf joinedDigest oneConversation switchingRequests) switchingTurns).calls,
      shownTexts point =
        some ([["ask".toList, "first".toList]], ["ask".toList, "second".toList]) := by
    decide +kernel
  obtain ⟨point, called, shown⟩ := read
  exact absurd (shown_of_agrees last called shown) (by decide)

end AverQel.DeepSpace.Chat
