/- digest: The three ways to get an answer from a chat-completions endpoint. -/
import AverQel.Providers.StreamParsing

namespace AverQel.Providers

open Foundation

structure OpenAICompatibleProvider where
  (providerName streamUsage : String)
  exposeResponseReasoning : Bool

structure ChatGenerateRequest where
  model : String
  providerType : Option String

/-- The answer of an endpoint; `lines` are those of its body. -/
structure HttpResponse where
  statusCode : Nat
  text : List Char
  lines : List (List Char)

inductive ProviderFailure where
  /-- `ProviderRequestError` -/
  | refused (statusCode : Nat) (message : Option (List Char))
  /-- `RuntimeError` -/
  | runtime (message : String)
  | invalidJson
  | unsupportedStreamUsageOption

inductive StreamEvent where
  | usage (usage : Json)
  | providerContinuation (reasoningContent : List Char)
  | thinking (text : List Char)
  | delta (text : List Char)
  | toolCallsDelta (toolCalls : List Json)

structure Delivery (ε : Type) where
  events : List ε
  failure : Option ProviderFailure

structure ChatGenerateResponse where
  content : List Char
  thinkingContent : Option (List Char)
  toolCalls : Option (List Json)
  usage : Fields

def streamUsageAutoProviders : List String :=
  ["openai", "deepseek", "larprouter", "nvidia-nim", "mistral", "openrouter", "lmstudio", "vllm"]

section Settings

variable (env : StreamEnvironment) (provider : OpenAICompatibleProvider)
  (request : ChatGenerateRequest)

def providerTypeOf : String := Text.orDefault request.providerType provider.providerName

/-- `_response_reasoning_is_visible` -/
def responseReasoningIsVisible : Bool :=
  provider.providerName ≠ "meta" ∧
    (provider.providerName ≠ "custom" ∨ provider.exposeResponseReasoning = true)

/-- `uses_deepseek_reasoning_protocol` -/
def usesDeepseekReasoningProtocol : Bool :=
  env.casefold (Text.strip (providerTypeOf provider request)) = "deepseek" ∨
    "deepseek".toList <:+: (env.casefold request.model).toList

def requestsStreamUsage : Bool :=
  provider.streamUsage = "enabled" ∨ (provider.streamUsage = "auto" ∧
    env.lower (Text.strip (providerTypeOf provider request)) ∈ streamUsageAutoProviders)

end Settings

section Errors

variable (env : StreamEnvironment)

def objectField (fields : Fields) (key : String) : Option Fields :=
  match fields.lookup key with
  | some (.object inner) => some inner
  | _ => none

def textField (fields : Fields) (key : String) : Option (List Char) :=
  match fields.lookup key with
  | some (.string text) => some text
  | _ => none

/-- `_extract_provider_error_message` -/
def extractProviderErrorMessage (payload : Option Json) (text : List Char) : Option (List Char) :=
  let detail : Option (List Char) :=
    match payload with
    | some (.object fields) =>
      ((objectField fields "error").bind fun error => textField error "message").bind fun message =>
        orNone (Text.stripChars message)
    | _ => none
  detail.orElse fun _ => orNone (Text.stripChars text)

def providerError (statusCode : Nat) (payload : Option Json) (text : List Char) : ProviderFailure :=
  .refused statusCode (extractProviderErrorMessage payload text)

def unsupportedMarkers : List String :=
  ["unknown", "unsupported", "unrecognized", "unexpected", "not allowed", "not permitted",
    "extra inputs", "invalid"]

def streamRefusal (response : HttpResponse) : ProviderFailure :=
  let lowered := (env.casefold (String.ofList response.text)).toList
  if "stream_options".toList <:+: lowered ∧ response.statusCode ∈ [400, 422] ∧
      ∃ marker ∈ unsupportedMarkers, marker.toList <:+: lowered then
    .unsupportedStreamUsageOption
  else providerError response.statusCode (env.loads response.text) response.text

inductive StreamLine where
  | skip
  | done
  | chunk (fields : Fields)

/-- One line of the body: a comment, an event of another kind, or the data of a chunk. -/
def readLine (raw : List Char) : StreamLine :=
  let line := Text.stripChars raw
  if line = [] ∨ [':'] <+: line ∨ ¬ "data:".toList <+: line then .skip
  else
    let data := Text.stripChars (line.drop 5)
    if data = "[DONE]".toList then .done
    else
      match env.loads data with
      | some (.object fields) => .chunk fields
      | _ => .skip

def chunkError (fields : Fields) : Option ProviderFailure :=
  (objectField fields "error").map fun error => .refused 400 (textField error "message")

/-- The first choice of a chunk, and its delta. -/
def chunkChoice (fields : Fields) : Option (Fields × Fields) :=
  match fields.lookup "choices" with
  | some (.array (first :: _)) =>
    let choice : Fields :=
      match first with
      | .object inner => inner
      | _ => []
    some (choice, (objectField choice "delta").getD [])
  | _ => none

end Errors

variable (env : StreamEnvironment) (provider : OpenAICompatibleProvider)
  (request : ChatGenerateRequest)

/-- What `_stream_chat_completion_events` keeps between two lines. -/
structure StreamState where
  parser : ParserState
  (emittedAnswer emittedThinking : List Char)

def StreamState.start : StreamState := ⟨.answer, [], []⟩

def thinkingEvents (s : StreamState) (text : List Char) : StreamState × List StreamEvent :=
  let delta := streamTextSuffix s.emittedThinking text
  if delta = [] then (s, [])
  else ({ s with emittedThinking := s.emittedThinking ++ delta }, [.thinking delta])

def answerEvents (s : StreamState) (text : List Char) : StreamState × List StreamEvent :=
  let delta := streamTextSuffix s.emittedAnswer text
  if delta = [] then (s, [])
  else ({ s with emittedAnswer := s.emittedAnswer ++ delta }, [.delta delta])

def pieceEvents (s : StreamState) : Piece → StreamState × List StreamEvent
  | .delta text => answerEvents s text
  | .thinking text => thinkingEvents s text

def piecesEvents (s : StreamState) : List Piece → StreamState × List StreamEvent
  | [] => (s, [])
  | piece :: pieces =>
    let (next, events) := pieceEvents s piece
    let (last, more) := piecesEvents next pieces
    (last, events ++ more)

/-- The events before the content of a chunk. -/
def reasoningEvents (s : StreamState) (delta : Fields) : StreamState × List StreamEvent :=
  let continuation := stringField delta "reasoning_content"
  let continued : List StreamEvent :=
    if usesDeepseekReasoningProtocol env provider request ∧ continuation ≠ [] then
      [.providerContinuation continuation]
    else []
  let thinking :=
    if responseReasoningIsVisible provider then extractReasoningText env delta else none
  match thinking with
  | none => (s, continued)
  | some text =>
    let (next, events) := thinkingEvents s text
    (next, continued ++ events)

def contentEvents (s : StreamState) (choice delta : Fields) : StreamState × List StreamEvent :=
  match extractStreamText env choice delta with
  | none => (s, [])
  | some content =>
    let (pieces, parser) := splitStreamContentForReasoning content s.parser
    piecesEvents { s with parser := parser } pieces

def chunkEvents (s : StreamState) (fields : Fields) : StreamState × List StreamEvent :=
  let usage : List StreamEvent :=
    match fields.lookup "usage" with
    | some (.object inner) => [.usage (.object inner)]
    | _ => []
  match chunkChoice fields with
  | none => (s, usage)
  | some (choice, delta) =>
    let (reasoned, reasoning) := reasoningEvents env provider request s delta
    let (answered, content) := contentEvents env reasoned choice delta
    let toolCalls : List StreamEvent :=
      match delta.lookup "tool_calls" with
      | some (.array calls) => [.toolCallsDelta calls]
      | _ => []
    (answered, usage ++ reasoning ++ content ++ toolCalls)

def streamLines (s : StreamState) : List (List Char) → Delivery StreamEvent
  | [] => ⟨[], none⟩
  | raw :: rest =>
    match readLine env raw with
    | .skip => streamLines s rest
    | .done => ⟨[], none⟩
    | .chunk fields =>
      match chunkError fields with
      | some failure => ⟨[], some failure⟩
      | none =>
        let (next, events) := chunkEvents env provider request s fields
        let later := streamLines next rest
        ⟨events ++ later.events, later.failure⟩

/-- `_stream_chat_completion_events` -/
def streamChatCompletionEvents (response : HttpResponse) : Delivery StreamEvent :=
  if 400 ≤ response.statusCode then ⟨[], some (streamRefusal env response)⟩
  else streamLines env provider request .start response.lines

/-- `stream_generate_events`, against an endpoint that answers a request with or without
`stream_options`. -/
def streamGenerateEvents (respond : Bool → HttpResponse) : Delivery StreamEvent :=
  let first := streamChatCompletionEvents env provider request
    (respond (requestsStreamUsage env provider request))
  match first.failure with
  | some .unsupportedStreamUsageOption =>
    streamChatCompletionEvents env provider request (respond false)
  | _ => first

def deltaText (events : List StreamEvent) : List Char :=
  (events.map fun
    | .delta text => text
    | _ => []).flatten

def pieceTexts (pieces : List Piece) : List (List Char) :=
  pieces.filterMap fun
    | .delta text => orNone text
    | .thinking _ => none

def syncLines (parser : ParserState) : List (List Char) → Delivery (List Char)
  | [] => ⟨[], none⟩
  | raw :: rest =>
    match readLine env raw with
    | .skip => syncLines parser rest
    | .done => ⟨[], none⟩
    | .chunk fields =>
      match chunkError fields with
      | some failure => ⟨[], some failure⟩
      | none =>
        match (chunkChoice fields).bind fun (choice, delta) => extractStreamText env choice delta with
        | none => syncLines parser rest
        | some content =>
          let (pieces, next) := splitStreamContentForReasoning content parser
          let later := syncLines next rest
          ⟨pieceTexts pieces ++ later.events, later.failure⟩

def streamGenerateSync (response : HttpResponse) : Delivery (List Char) :=
  if 400 ≤ response.statusCode then
    ⟨[], some (providerError response.statusCode (env.loads response.text) response.text)⟩
  else syncLines env .answer response.lines

/-- `_unwrap_success_envelope` -/
def unwrapSuccessEnvelope (payload : Json) (operation : String) : Except ProviderFailure Json :=
  match payload with
  | .object fields =>
    match fields.lookup "success", fields.lookup "data" with
    | none, _ => .ok payload
    | some (.bool true), some inner => .ok inner
    | some (.bool true), none =>
      .error (.runtime (operation ++ " endpoint returned a success envelope without data"))
    | some _, _ =>
      .error (.runtime (operation ++ " endpoint reported an unsuccessful response"))
  | _ => .ok payload

/-- The first choice of a completion, which must have a message. -/
def completionMessage (fields : Fields) : Except ProviderFailure Fields :=
  match fields.lookup "choices" with
  | some (.array (first :: _)) =>
    match first with
    | .object choice =>
      match choice.lookup "message" with
      | none => .ok []
      | some (.object message) => .ok message
      | some _ => .error (.runtime "provider response contains an invalid message")
    | _ => .error (.runtime "provider response contains an invalid choice")
  | _ => .error (.runtime "provider response missing choices")

/-- The content that a message stands for once typed blocks are taken apart. -/
def messageContent (message : Fields) : Except ProviderFailure (List Char) :=
  let content := (message.lookup "content").getD (.string [])
  let (text, reasoning) := splitTextAndReasoning env content
  match text, content, message.lookup "tool_calls" with
  | some text, _, _ => .ok text
  | none, .string text, _ => .ok text
  | none, .array _, _ =>
    if reasoning.isSome then .ok []
    else .error (.runtime "provider response missing message content")
  | none, .null, some (.array _) => .ok []
  | none, _, _ => .error (.runtime "provider response missing message content")

def messageReasoning (message : Fields) : Option (List Char) :=
  if responseReasoningIsVisible provider then
    (extractReasoningText env message).orElse fun _ =>
      ((message.lookup "content").bind fun content => (splitTextAndReasoning env content).2)
  else none

/-- The end of `generate`: tags are looked for when no reasoning came next to the content. -/
def completion (fields message : Fields) (content : List Char) : ChatGenerateResponse :=
  let reasoning := messageReasoning env provider message
  let tagged := if reasoning = none then extractTaggedReasoningContent content else none
  { content := (tagged.map Prod.snd).getD content
    thinkingContent := reasoning.orElse fun _ => tagged.bind Prod.fst
    toolCalls :=
      match message.lookup "tool_calls" with
      | some (.array calls) => some calls
      | _ => none
    usage := (objectField fields "usage").getD [] }

def generate (response : HttpResponse) : Except ProviderFailure ChatGenerateResponse :=
  if 400 ≤ response.statusCode then
    .error (providerError response.statusCode (env.loads response.text) response.text)
  else
    match env.loads response.text with
    | none => .error .invalidJson
    | some body => do
      match ← unwrapSuccessEnvelope body "Chat Completions" with
      | .object fields =>
        match objectField fields "error" with
        | some _ => .error (providerError response.statusCode (some (.object fields)) [])
        | none =>
          let message ← completionMessage fields
          let content ← messageContent env message
          return completion env provider fields message content
      | _ => .error (.runtime "Chat Completions endpoint returned an invalid response object")

end AverQel.Providers
