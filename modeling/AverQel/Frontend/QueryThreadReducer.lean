/- digest: The thread of a query page: messages, their versions, and the actions that change them. -/
import AverQel.Frontend.JsText
import AverQel.System.TextAdmission
import Mathlib.Data.List.Sort

namespace AverQel.Frontend

open Foundation.Text (nonempty)
open Providers (Json Fields stringField)
open AverQel.System (compactJson dumps setField)

inductive MessageStatus where
  | ready
  | streaming
  | error
deriving DecidableEq, Repr

inductive StreamPhase where
  | searching
  | grounding
  | answering
deriving DecidableEq, Repr

inductive Role where
  | user
  | assistant
deriving DecidableEq, Repr

structure StreamError where
  (code message : String)
deriving DecidableEq, Repr

/-- The functions of `stream-protocol.ts` and `markdown.ts` that compute displayed text, and the
comparison of the browser. -/
structure ThreadEnvironment where
  normalizeMarkdown : String → String
  parseStructuredAnswer : String → Option Json
  structuredAnswerToMarkdown : Json → String
  extractArtifactsFromContent : String → List Json
  /-- What the expressions of the delta case find in an unfinished structured answer. -/
  streamedAnswer : String → Option String
  /-- `String(value)` -/
  toText : Json → String
  toLowerCase : String → String
  localeLE : String → String → Bool

/-- What a version shows, and its message while the version is active. -/
structure VersionView where
  (content rawContent : String)
  status : MessageStatus
  streamPhase : Option StreamPhase
  (citations blocks artifacts : List Json)
  trace : Option Json
  (followups statusHistory output files : List Json)
  (thinkingContent confidence traceId : Option String)
  cached : Option Bool
  structured : Option Json
  error : Option StreamError

structure QueryThreadMessageVersion where
  id : String
  versionIndex : Int
  (sourceType createdAt : String)
  view : VersionView

structure QueryThreadMessage where
  id : String
  role : Role
  createdAt : String
  view : VersionView
  activeVersionId : Option String
  activeVersionIndex : Int
  versionCount : Nat
  versions : List QueryThreadMessageVersion
  isEditing : Bool
  draftContent : Option String

structure QueryHistoryVersion where
  id : String
  versionIndex : Int
  content : String
  metadata : Fields
  (sourceType createdAt : String)

/-- A message of the stored conversation; without versions it has one, its content. -/
structure QueryHistoryMessage where
  id : String
  role : Role
  content : String
  metadata : Fields
  createdAt : String
  activeVersionId : Option String
  activeVersionIndex : Option Int
  versions : List QueryHistoryVersion

def objectFields : Json → Fields
  | .object fields => fields
  | _ => []

/-- `Array.isArray(metadata[name]) ? metadata[name] : []` -/
def arrayField (name : String) (metadata : Fields) : List Json :=
  match metadata.lookup name with
  | some (.array items) => items
  | _ => []

def objectField (name : String) (metadata : Fields) : Option Json :=
  match metadata.lookup name with
  | some (.object fields) => some (.object fields)
  | some (.array items) => some (.array items)
  | _ => none

def text (value : String) : Json := .string value.toList

/-- `text.includes(part)` -/
def includes (text part : String) : Bool := decide (part.toList <:+: text.toList)

def mergeUniqueCitations (existing : List Json) (incoming : Json) : List Json :=
  let chunkId := fun item => stringField (objectFields item) "chunk_id"
  if existing.any fun item => chunkId item = chunkId incoming then existing
  else existing ++ [incoming]

def sameBlock (incoming block : Json) : Bool :=
  let field := fun name item => stringField (objectFields item) name
  field "id" block = field "id" incoming ∧ field "type" block = field "type" incoming

def mergeUniqueBlocks (existing : List Json) (incoming : Json) : List Json :=
  match existing.findIdx? (sameBlock incoming) with
  | none => existing ++ [incoming]
  | some index =>
    if existing[index]?.map (dumps compactJson) = some (dumps compactJson incoming) then existing
    else existing.set index incoming

/-- `{...fields, [name]: fields[name] ?? value}` -/
def defaultField (name : String) (value : Json) (fields : Fields) : Fields :=
  match fields.lookup name with
  | none | some .null => setField name value fields
  | some _ => fields

def normalizeIncomingBlock (incoming : Fields) : Json :=
  if stringField incoming "type" ≠ "diagram".toList then .object incoming
  else
    .object (defaultField "description" (text "") (defaultField "syntax" (text "")
      (defaultField "source" (text "mermaid")
        (defaultField "diagram_type" (text "mermaid_flowchart") incoming))))

def statusEntry (label state : String) (others : Fields) : Json :=
  .object (("label", text label) :: ("state", text state) :: others)

def appendStatusEntry (history : List Json) (entry : Json) : List Json :=
  let field := fun name item => stringField (objectFields item) name
  let same := fun last => ["code", "label", "state", "detail"].all fun name =>
    field name last = field name entry
  if history.getLast?.any same then history else history ++ [entry]

def createInitialStatusEntry (timestamp : String) : Json :=
  statusEntry "Retrieving Evidence" "running"
    [("code", text "retrieval"), ("detail", text "Starting query pipeline"),
      ("timestamp", text timestamp)]

section Versions

variable (env : ThreadEnvironment)

def emptyView (content : String) (status : MessageStatus) : VersionView where
  content := content
  rawContent := content
  status := status
  streamPhase := none
  citations := []
  blocks := []
  artifacts := []
  trace := none
  followups := []
  statusHistory := []
  output := []
  files := []
  thinkingContent := none
  confidence := none
  traceId := none
  cached := none
  structured := none
  error := none

def streamingView (createdAt : String) : VersionView :=
  { emptyView "" .streaming with
    streamPhase := some .searching
    statusHistory := [createInitialStatusEntry createdAt] }

def parseAssistantContent (raw : String) : String × Option Json :=
  match env.parseStructuredAnswer raw with
  | none => (env.normalizeMarkdown raw, none)
  | some structured => (env.structuredAnswerToMarkdown structured, some structured)

def versionFromHistory (role : Role) (version : QueryHistoryVersion) :
    QueryThreadMessageVersion :=
  let metadata := version.metadata
  let shown : String × Option Json :=
    match role, objectField "structured_answer" metadata with
    | .user, _ => (version.content, none)
    | .assistant, some structured => (env.structuredAnswerToMarkdown structured, some structured)
    | .assistant, none => parseAssistantContent env version.content
  { id := version.id
    versionIndex := version.versionIndex
    sourceType := version.sourceType
    createdAt := version.createdAt
    view :=
      { emptyView shown.1 .ready with
        rawContent := version.content
        citations := arrayField "citations" metadata
        blocks := arrayField "blocks" metadata
        artifacts := env.extractArtifactsFromContent shown.1
        trace := objectField "reasoning_trace" metadata
        followups := arrayField "follow_up_suggestions" metadata
        statusHistory := arrayField "status_history" metadata
        output := arrayField "output" metadata
        files := arrayField "files" metadata
        thinkingContent := (objectField "thinking" metadata).map fun thinking =>
          match (objectFields thinking).lookup "content" with
          | none | some .null => ""
          | some content => env.toText content
        confidence :=
          match metadata.lookup "confidence" with
          | some (.number literal) => some literal
          | _ => none
        traceId :=
          match metadata.lookup "trace_id" with
          | some (.string value) => some (String.ofList value)
          | _ => none
        cached :=
          match metadata.lookup "cached" with
          | some (.bool value) => some value
          | _ => none
        structured := shown.2 } }

/-- Show a version in its message. -/
def applyVersionToMessage (message : QueryThreadMessage) (version : QueryThreadMessageVersion) :
    QueryThreadMessage :=
  { message with
    view := version.view
    activeVersionId := some version.id
    activeVersionIndex := version.versionIndex
    versionCount := message.versions.length }

def historyVersions (message : QueryHistoryMessage) : List QueryThreadMessageVersion :=
  if message.versions = [] then
    [versionFromHistory env message.role
      { id := message.activeVersionId.getD (message.id ++ "-v1")
        versionIndex := message.activeVersionIndex.getD 1
        content := message.content
        metadata := message.metadata
        sourceType := "initial"
        createdAt := message.createdAt }]
  else
    (message.versions.insertionSort fun a b => a.versionIndex ≤ b.versionIndex).map
      (versionFromHistory env message.role)

def activeHistoryVersion (message : QueryHistoryMessage)
    (versions : List QueryThreadMessageVersion) : Option QueryThreadMessageVersion :=
  ((versions.find? fun version => some version.id = message.activeVersionId).or
    (versions.find? fun version => version.versionIndex = message.activeVersionIndex.getD 1)).or
    versions.getLast?

def fromHistoryMessage (message : QueryHistoryMessage) : QueryThreadMessage :=
  let versions := historyVersions env message
  let base : QueryThreadMessage :=
    { id := message.id
      role := message.role
      createdAt := message.createdAt
      view := emptyView "" .ready
      activeVersionId := none
      activeVersionIndex := 1
      versionCount := versions.length
      versions := versions
      isEditing := false
      draftContent := if message.role = .user then some message.content else none }
  (activeHistoryVersion message versions).elim base (applyVersionToMessage base)

def createUserMessage (query versionId id now : String) : QueryThreadMessage :=
  let version : QueryThreadMessageVersion := ⟨versionId, 1, "initial", now, emptyView query .ready⟩
  { id := id
    role := .user
    createdAt := now
    view := version.view
    activeVersionId := some versionId
    activeVersionIndex := 1
    versionCount := 1
    versions := [version]
    isEditing := false
    draftContent := some query }

def createAssistantPlaceholder (versionId id now : String) : QueryThreadMessage :=
  let version : QueryThreadMessageVersion := ⟨versionId, 1, "initial", now, streamingView now⟩
  { id := id
    role := .assistant
    createdAt := now
    view := version.view
    activeVersionId := some versionId
    activeVersionIndex := 1
    versionCount := 1
    versions := [version]
    isEditing := false
    draftContent := none }

/-- `Math.max(0, ...versions.map(versionIndex)) + 1` -/
def nextVersionIndex (versions : List QueryThreadMessageVersion) : Int :=
  versions.foldl (fun greatest version => max greatest version.versionIndex) 0 + 1

def appendVersion (message : QueryThreadMessage) (version : QueryThreadMessageVersion) :
    QueryThreadMessage :=
  let versions := message.versions ++ [version]
  applyVersionToMessage { message with versions := versions, versionCount := versions.length }
    version

def appendAssistantVersion (sourceType newId now : String) (message : QueryThreadMessage) :
    QueryThreadMessage :=
  appendVersion message
    ⟨newId, nextVersionIndex message.versions, sourceType, now, streamingView now⟩

def appendUserVersion (content newId now : String) (message : QueryThreadMessage) :
    QueryThreadMessage :=
  appendVersion { message with isEditing := false, draftContent := some content }
    { id := newId
      versionIndex := nextVersionIndex message.versions
      sourceType := "user_edit"
      createdAt := now
      view := { message.view with
        content := content, rawContent := content, status := .ready, streamPhase := none,
        error := none } }

def activateVersionById (versionId : String) (message : QueryThreadMessage) : QueryThreadMessage :=
  (message.versions.find? fun version => version.id = versionId).elim message
    (applyVersionToMessage message)

namespace QueryThreadMessage

def updatedId (message : QueryThreadMessage) : Option String :=
  nonempty (message.activeVersionId.or (message.versions.getLast?.map fun version => version.id))

/-- `updateActiveVersion`; an updater changes only what a version shows. -/
def updateActiveVersion (updater : VersionView → VersionView) (message : QueryThreadMessage) :
    QueryThreadMessage :=
  match message.updatedId with
  | none => message
  | some activeId =>
    match message.versions.findIdx? fun version => version.id = activeId with
    | none => message
    | some index =>
      match message.versions[index]? with
      | none => message
      | some current =>
        let next := { current with view := updater current.view }
        let versions := message.versions.set index next
        applyVersionToMessage { message with versions := versions, versionCount := versions.length }
          next

end QueryThreadMessage

end Versions

inductive StartOperation where
  | newTurn
  | regenerate
  | editRegenerate
deriving DecidableEq, Repr

/-- The events of the stream, with the data that the thread keeps. `block` is `table`, `chart`,
`card` or `diagram`; the metrics are not part of the thread model. -/
inductive QueryStreamEvent where
  | start (messageId conversationId : String) (operation : Option StartOperation)
  | metaInfo (conversationId : String) (messageId : Option String) (confidence traceId : String)
      (cached : Bool) (modelName : Option String)
  | metrics
  | thinking (text : String)
  | delta (text : String)
  | replace (content : String) (structured : Option Json)
  | citation (item : Json)
  | block (type : String) (data : Fields)
  | status (label : String) (state : Option String) (others : Fields)
  | files (items : List Json)
  | output (items : List Json)
  | trace (trace : Json)
  | followups (items : List Json)
  | error (error : StreamError)
  | done

/-- `{...version, status: "error", ...}` -/
def failView (error : StreamError) (view : VersionView) : VersionView :=
  { view with
    status := .error
    streamPhase := none
    error := some error
    statusHistory := appendStatusEntry view.statusHistory
      (statusEntry "Error" "error" [("detail", text error.message)]) }

/-- `{...version, status: "ready", ...}` with the last entry of the history. -/
def settleView (env : ThreadEnvironment) (label : String) (view : VersionView) : VersionView :=
  { view with
    status := .ready
    streamPhase := none
    artifacts := env.extractArtifactsFromContent view.content
    statusHistory := appendStatusEntry view.statusHistory (statusEntry label "completed" []) }

def displayedContent (env : ThreadEnvironment) (raw previous : String) : String :=
  if (trimStart raw.toList).head? = some '\x7b' then
    match env.parseStructuredAnswer raw with
    | some structured => env.structuredAnswerToMarkdown structured
    | none => (env.streamedAnswer raw).getD previous
  else env.normalizeMarkdown raw

/-- How an event changes the version that it is routed to. -/
def QueryStreamEvent.update (env : ThreadEnvironment) (view : VersionView) :
    QueryStreamEvent → VersionView
  | start _ _ _ => view
  | metaInfo _ _ confidence traceId cached _ =>
    { view with
      confidence := some confidence
      traceId := some traceId
      cached := some cached
      streamPhase := some .grounding
      statusHistory := appendStatusEntry view.statusHistory (statusEntry "Grounding" "running" []) }
  | metrics => view
  | thinking added =>
    { view with
      thinkingContent := some (view.thinkingContent.getD "" ++ added)
      status := .streaming
      streamPhase := some .grounding
      statusHistory := appendStatusEntry view.statusHistory (statusEntry "Thinking" "running" []) }
  | delta added =>
    let raw := view.rawContent ++ added
    { view with
      rawContent := raw
      content := displayedContent env raw view.content
      status := .streaming
      streamPhase := some .answering
      statusHistory := appendStatusEntry view.statusHistory (statusEntry "Answering" "running" [])
      error := none }
  | replace content structured =>
    { view with
      rawContent := content
      content := env.normalizeMarkdown content
      structured := structured
      streamPhase := some .answering }
  | citation item => { view with citations := mergeUniqueCitations view.citations item }
  | block type data =>
    { view with
      blocks := mergeUniqueBlocks view.blocks
        (normalizeIncomingBlock (setField "type" (text type) data)) }
  | status label state others =>
    let lower := env.toLowerCase label
    { view with
      streamPhase :=
        if includes lower "search" then some .searching
        else if includes lower "ground" ∨ includes lower "cit" then some .grounding
        else if includes lower "answer" ∨ includes lower "respond" then some .answering
        else view.streamPhase
      statusHistory := appendStatusEntry view.statusHistory
        (statusEntry label (state.getD "running") others) }
  | files items => { view with files := items }
  | output items => { view with output := items }
  | trace found => { view with trace := some found }
  | followups items => { view with followups := items }
  | error failure => failView failure view
  | done => settleView env "Completed" view

structure QueryThreadState where
  messages : List QueryThreadMessage
  messageIndex : String → Option Nat
  (currentConversationId activeAssistantId : Option String)
  isStreaming : Bool
  streamError : Option StreamError
  lastModelName : Option String

/-- The actions, with the ids that `createClientMessageId` returns and the time where they are
used. -/
inductive QueryThreadAction where
  | loadHistory (conversationId : String) (messages : List QueryHistoryMessage)
  | prependHistory (conversationId : String) (messages : List QueryHistoryMessage)
  | resetThread
  | submitQuery (query userVersionId userId assistantVersionId assistantId now : String)
  | startRegenerate (assistantMessageId newId now : String)
  | startEdit (messageId : String)
  | cancelEdit (messageId : String)
  | updateEditDraft (messageId value : String)
  | commitUserEdit (messageId content newId now : String)
  | activateVersion (messageId versionId : String)
  | deleteMessageLocal (messageId : String)
  | streamInterrupted
  | streamEvent (event : QueryStreamEvent) (newId now : String)
  | streamFinished
  | streamFailed (error : StreamError)

def buildMessageIndex (messages : List QueryThreadMessage) (id : String) : Option Nat :=
  (messages.zipIdx.reverse.find? fun entry => entry.1.id = id).map Prod.snd

def initialQueryThreadState : QueryThreadState where
  messages := []
  messageIndex := buildMessageIndex []
  currentConversationId := none
  activeAssistantId := none
  isStreaming := false
  streamError := none
  lastModelName := none

/-- `merged.set(message.id, message)` -/
def setMessage (merged : List QueryThreadMessage) (message : QueryThreadMessage) :
    List QueryThreadMessage :=
  if merged.any fun other => other.id = message.id then
    merged.map fun other => if other.id = message.id then message else other
  else merged ++ [message]

def findLastAssistantId (messages : List QueryThreadMessage) : Option String :=
  (messages.reverse.find? fun message => message.role = .assistant).map fun message => message.id

namespace QueryThreadState

variable (env : ThreadEnvironment) (s : QueryThreadState)

def updateMessage (messageId : String) (updater : QueryThreadMessage → QueryThreadMessage) :
    QueryThreadState :=
  match s.messageIndex messageId with
  | none => s
  | some index =>
    match s.messages[index]? with
    | none => s
    | some current => { s with messages := s.messages.set index (updater current) }

def merge (first second : List QueryThreadMessage) : List QueryThreadMessage :=
  (second.foldl setMessage (first.foldl setMessage [])).insertionSort fun left right =>
    env.localeLE left.createdAt right.createdAt

def withMessages (messages : List QueryThreadMessage) : QueryThreadState :=
  { s with messages := messages, messageIndex := buildMessageIndex messages }

def modelName (messages : List QueryHistoryMessage) : Option String :=
  (messages.reverse.find? fun message => message.role = .assistant).bind fun message =>
    nonempty (some (String.ofList (stringField message.metadata "model_name")))

def loadHistory (conversationId : String) (messages : List QueryHistoryMessage) :
    QueryThreadState :=
  let kept := if s.currentConversationId = some conversationId then s.messages else []
  { s.withMessages (merge env kept (messages.map (fromHistoryMessage env))) with
    currentConversationId := some conversationId
    activeAssistantId := none
    isStreaming := false
    streamError := none
    lastModelName := modelName messages }

def prependHistory (conversationId : String) (messages : List QueryHistoryMessage) :
    QueryThreadState :=
  if s.currentConversationId ≠ some conversationId ∨ messages = [] then s
  else s.withMessages (merge env (messages.map (fromHistoryMessage env)) s.messages)

def submitQuery (query userVersionId userId assistantVersionId assistantId now : String) :
    QueryThreadState :=
  { s.withMessages (s.messages ++
      [createUserMessage query userVersionId userId now,
        createAssistantPlaceholder assistantVersionId assistantId now]) with
    activeAssistantId := some assistantId
    isStreaming := true
    streamError := none }

def deleteMessageLocal (messageId : String) : QueryThreadState :=
  { s.withMessages (s.messages.filter fun message => message.id ≠ messageId) with
    activeAssistantId := if s.activeAssistantId = some messageId then none else s.activeAssistantId
    isStreaming := if s.activeAssistantId = some messageId then false else s.isStreaming }

def regenerating (assistantMessageId : String) : QueryThreadState :=
  { s with
    activeAssistantId := some assistantMessageId, isStreaming := true, streamError := none }

def startRegenerate (assistantMessageId newId now : String) : QueryThreadState :=
  (s.regenerating assistantMessageId).updateMessage assistantMessageId
    (appendAssistantVersion "regenerate" newId now)

def started (conversationId : String) : QueryThreadState :=
  { s with currentConversationId := some conversationId, isStreaming := true, streamError := none }

def targeting (messageId : String) : QueryThreadState :=
  { s with activeAssistantId := some messageId }

def grounded (conversationId messageId : String) (modelName : Option String) : QueryThreadState :=
  { s with
    currentConversationId := some conversationId
    activeAssistantId := some messageId
    lastModelName := (nonempty modelName).or s.lastModelName }

def stopped : QueryThreadState := { s with isStreaming := false, activeAssistantId := none }

def ended (error : Option StreamError) : QueryThreadState :=
  { s with isStreaming := false, activeAssistantId := none, streamError := error }

/-- What an interruption leaves of the message that was streamed: without content its last version
is dropped, unless it is the only one. -/
def interrupted (message : QueryThreadMessage) : QueryThreadMessage :=
  let active := message.versions.find? fun version => some version.id = message.activeVersionId
  let content := (active.map fun version => version.view.content).getD message.view.content
  if trim content.toList = [] then
    if 1 < message.versions.length then
      let versions := message.versions.dropLast
      match versions.getLast? with
      | none => message
      | some fallback =>
        applyVersionToMessage { message with versions := versions, versionCount := versions.length }
          fallback
    else message
  else message.updateActiveVersion (settleView env "Stopped")

def streamInterrupted : QueryThreadState :=
  match nonempty s.activeAssistantId with
  | none => s.ended none
  | some interruptedId => (s.ended none).updateMessage interruptedId (interrupted env)

def streamFailed (error : StreamError) : QueryThreadState :=
  match nonempty s.activeAssistantId with
  | none => s.ended (some error)
  | some failedId =>
    (s.ended (some error)).updateMessage failedId fun message =>
      message.updateActiveVersion (failView error)

def resolveTargetAssistantId (event : QueryStreamEvent) : Option String :=
  let last := s.activeAssistantId.or (findLastAssistantId s.messages)
  nonempty <|
    match event with
    | .start messageId _ (some .regenerate) | .start messageId _ (some .editRegenerate) =>
      some messageId
    | .metaInfo _ messageId _ _ _ _ => (nonempty messageId).or last
    | _ => last

def route (target : Option String) (event : QueryStreamEvent) : QueryThreadState :=
  match target with
  | none => s
  | some messageId =>
    s.updateMessage messageId fun message => message.updateActiveVersion fun view =>
      event.update env view

def streamEvent (event : QueryStreamEvent) (newId now : String) : QueryThreadState :=
  let target := s.resolveTargetAssistantId event
  match event with
  | .start messageId conversationId operation =>
    let started := s.started conversationId
    if operation.getD .newTurn = .newTurn then started
    else
      (started.targeting messageId).updateMessage messageId fun message =>
        if message.view.status = .streaming then message
        else appendAssistantVersion "regenerate" newId now message
  | .metaInfo conversationId _ _ _ _ modelName =>
    match target with
    | none => s
    | some messageId => (s.grounded conversationId messageId modelName).route env target event
  | .error error => (s.ended (some error)).route env target event
  | .done => s.stopped.route env target event
  | _ => s.route env target event

/-- `queryThreadReducer` -/
def step : QueryThreadAction → QueryThreadState
  | .loadHistory conversationId messages => s.loadHistory env conversationId messages
  | .prependHistory conversationId messages => s.prependHistory env conversationId messages
  | .resetThread => initialQueryThreadState
  | .submitQuery query userVersionId userId assistantVersionId assistantId now =>
    s.submitQuery query userVersionId userId assistantVersionId assistantId now
  | .startRegenerate assistantMessageId newId now =>
    s.startRegenerate assistantMessageId newId now
  | .startEdit messageId => s.updateMessage messageId fun message =>
    { message with isEditing := true, draftContent := some message.view.content }
  | .cancelEdit messageId => s.updateMessage messageId fun message =>
    { message with isEditing := false, draftContent := some message.view.content }
  | .updateEditDraft messageId value => s.updateMessage messageId fun message =>
    { message with draftContent := some value }
  | .commitUserEdit messageId content newId now =>
    s.updateMessage messageId (appendUserVersion content newId now)
  | .activateVersion messageId versionId =>
    s.updateMessage messageId (activateVersionById versionId)
  | .deleteMessageLocal messageId => s.deleteMessageLocal messageId
  | .streamInterrupted => s.streamInterrupted env
  | .streamEvent event newId now => s.streamEvent env event newId now
  | .streamFinished => s.stopped
  | .streamFailed error => s.streamFailed error

end QueryThreadState

end AverQel.Frontend
