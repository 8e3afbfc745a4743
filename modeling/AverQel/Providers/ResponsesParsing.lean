/- digest: The results of a Responses endpoint, read whole and read from its event stream. -/
import AverQel.Providers.OpenAICompatible
import Mathlib.Logic.Function.Basic

namespace AverQel.Providers

open Foundation

/-- `str` of a value, and whether a number is zero. -/
structure JsonText where
  str : Json → List Char
  isZero : String → Bool

section Values

variable (text : JsonText)

def truthy : Json → Bool
  | .null => false
  | .bool value => value
  | .number literal => !text.isZero literal
  | .string chars => chars ≠ []
  | .array items => !items.isEmpty
  | .object fields => !fields.isEmpty

/-- `fields.get(first) or fields.get(second)` -/
def eitherField (fields : Fields) (first second : String) : Option Json :=
  match fields.lookup first with
  | some value => if truthy text value then some value else fields.lookup second
  | none => fields.lookup second

def asText : Option Json → Option (List Char)
  | some (.string chars) => some chars
  | _ => none

def decimal (digits : List Char) : Nat :=
  digits.foldl (fun value digit => 10 * value + (digit.toNat - '0'.toNat)) 0

/-- `isinstance(value, int)` of a decoded value; a number with a fraction or an exponent is a
float. -/
def asInt : Option Json → Option Int
  | some (.bool value) => some (if value then 1 else 0)
  | some (.number literal) =>
    match literal.toList with
    | '-' :: digits => if digits.all Char.isDigit then some (-(decimal digits)) else none
    | digits => if digits.all Char.isDigit then some (decimal digits) else none
  | _ => none

def typeOf (fields : Fields) : Option String := (textField fields "type").map String.ofList

end Values

/-- `_normalize_responses_usage` -/
def normalizeResponsesUsage (usage : Option Json) : Fields :=
  match usage with
  | some (.object fields) =>
    let input := fields.lookup "input_tokens"
    let output := fields.lookup "output_tokens"
    let prompt := if (asInt input).isSome then [("prompt_tokens", input.getD .null)] else []
    let completion := if (asInt output).isSome then [("completion_tokens", output.getD .null)] else []
    let total :=
      match asInt input, asInt output with
      | some i, some o => [("total_tokens", Json.number (toString (i + o)))]
      | _, _ => []
    prompt ++ completion ++ total
  | _ => []

section Plain

variable (text : JsonText) (provider : OpenAICompatibleProvider)

def partContent : Json → List (List Char)
  | .object part =>
    match textField part "text", typeOf part with
    | some chars, some "output_text" => [chars]
    | some chars, some "text" => [chars]
    | some chars, some "refusal" => [chars]
    | _, _ => []
  | _ => []

def itemContent : Json → List (List Char)
  | .object item =>
    if typeOf item = some "message" then
      match item.lookup "content" with
      | some (.string chars) => [chars]
      | some (.array parts) => (parts.map partContent).flatten
      | _ => []
    else []
  | _ => []

/-- `str(item.get("arguments") or "{}")` -/
def plainArguments (item : Fields) : List Char :=
  match item.lookup "arguments" with
  | none => "{}".toList
  | some value =>
    if truthy text value then
      match value with
      | .string chars => chars
      | other => text.str other
    else "{}".toList

def functionCall (callId name arguments : List Char) : Json :=
  .object [("id", .string callId), ("type", .string "function".toList),
    ("function", .object [("name", .string name), ("arguments", .string arguments)])]

def itemCalls : Json → List Json
  | .object item =>
    if typeOf item = some "function_call" then
      match asText (eitherField text item "call_id" "id"), textField item "name" with
      | some callId, some name => [functionCall callId name (plainArguments text item)]
      | _, _ => []
    else []
  | _ => []

def itemThinking : Json → List (List Char)
  | .object item =>
    if typeOf item = some "reasoning" ∧ responseReasoningIsVisible provider ∧
        provider.exposeResponseReasoning then
      match item.lookup "summary" with
      | some (.array parts) => parts.filterMap fun
        | .object part => textField part "text"
        | _ => none
      | _ => []
    else []
  | _ => []

def responsesFailure (error : Option Fields) : ProviderFailure :=
  .refused 400 (some ((error.bind fun fields => textField fields "message").getD
    "Responses endpoint reported a failure.".toList))

/-- What a result without an error says. -/
def responsesResult (payload : Fields) : ChatGenerateResponse :=
  let output :=
    match payload.lookup "output" with
    | some (.array items) => items
    | _ => []
  let contentParts :=
    match (output.map itemContent).flatten, textField payload "output_text" with
    | [], some whole => [whole]
    | parts, _ => parts
  let toolCalls := (output.map (itemCalls text)).flatten
  { content := contentParts.flatten
    thinkingContent := orNone (output.map (itemThinking provider)).flatten.flatten
    toolCalls := if toolCalls = [] then none else some toolCalls
    usage := normalizeResponsesUsage (payload.lookup "usage") }

/-- `_parse_responses_result` -/
def parseResponsesResult (payload : Fields) : Except ProviderFailure ChatGenerateResponse :=
  match objectField payload "error" with
  | some error => .error (.refused 400 (textField error "message"))
  | none =>
    if textField payload "status" = some "failed".toList then .error (responsesFailure none)
    else .ok (responsesResult text provider payload)

end Plain

/-- `call_ids`, `call_names` and `accumulated_arguments`. -/
structure CallMemory where
  callIds : Int → Option (List Char)
  callNames : Int → Option (List Char)
  accumulatedArguments : Int → Option (List Char)

namespace CallMemory

variable (memory : CallMemory)

def empty : CallMemory := ⟨fun _ => none, fun _ => none, fun _ => none⟩

def withArguments (index : Int) (arguments : List Char) : CallMemory :=
  { memory with
    accumulatedArguments := Function.update memory.accumulatedArguments index (some arguments) }

def register (index : Int) (callId name : Option (List Char)) (arguments : List Char) :
    CallMemory where
  callIds := if callId.isSome then Function.update memory.callIds index callId else memory.callIds
  callNames := if name.isSome then Function.update memory.callNames index name else memory.callNames
  accumulatedArguments := Function.update memory.accumulatedArguments index (some arguments)

def toolCall (index : Int) (written : Json) (kind : Fields) (arguments : List Char) : Json :=
  let callId : Fields := ((memory.callIds index).map fun chars => ("id", Json.string chars)).toList
  let name : Fields := ((memory.callNames index).map fun chars => ("name", Json.string chars)).toList
  .object ([("index", written)] ++ callId ++ kind ++
    [("function", .object (name ++ [("arguments", .string arguments)]))])

end CallMemory

variable (text : JsonText) (provider : OpenAICompatibleProvider) (observed : Bool)

/-- `response.output_item.added` -/
def itemAdded (memory : CallMemory) (event : Fields) : CallMemory × List StreamEvent :=
  let written := event.lookup "output_index"
  match objectField event "item", asInt written with
  | some item, some index =>
    if typeOf item = some "function_call" then
      let initial := (textField item "arguments").getD []
      let known := memory.register index (asText (eitherField text item "call_id" "id"))
        (textField item "name") initial
      (known, [.toolCallsDelta [known.toolCall index (written.getD .null)
        [("type", .string "function".toList)] initial]])
    else (memory, [])
  | _, _ => (memory, [])

/-- `response.function_call_arguments.delta` -/
def argumentsDelta (memory : CallMemory) (event : Fields) : CallMemory × List StreamEvent :=
  let written := event.lookup "output_index"
  match asInt written, textField event "delta" with
  | some index, some delta =>
    if delta = [] then (memory, [])
    else
      let known := memory.withArguments index
        ((memory.accumulatedArguments index).getD [] ++ delta)
      (known, [.toolCallsDelta [known.toolCall index (written.getD .null) [] delta]])
  | _, _ => (memory, [])

/-- `response.function_call_arguments.done` -/
def argumentsDone (memory : CallMemory) (event : Fields) : CallMemory × List StreamEvent :=
  let written := event.lookup "output_index"
  match asInt written, textField event "arguments" with
  | some index, some arguments =>
    let previous := (memory.accumulatedArguments index).getD []
    let suffix := if previous <+: arguments then arguments.drop previous.length else []
    if suffix = [] then (memory, [])
    else
      let known := memory.withArguments index arguments
      (known, [.toolCallsDelta [known.toolCall index (written.getD .null) [] suffix]])
  | _, _ => (memory, [])

/-- The kinds of events that are told apart by their types. -/
inductive EventKind where
  | failure
  | text
  | reasoning
  | itemAdded
  | argumentsDelta
  | argumentsDone
  | completed
  | unknown
  deriving DecidableEq

def eventKind (event : Fields) : EventKind :=
  let kind := (typeOf event).getD ""
  if kind ∈ ["error", "response.failed"] then .failure
  else if kind ∈ ["response.output_text.delta", "response.refusal.delta"] then .text
  else if kind ∈ ["response.reasoning_summary_text.delta", "response.reasoning_text.delta"] then
    .reasoning
  else if kind = "response.output_item.added" then .itemAdded
  else if kind = "response.function_call_arguments.delta" then .argumentsDelta
  else if kind = "response.function_call_arguments.done" then .argumentsDone
  else if kind = "response.completed" then .completed
  else .unknown

/-- `_normalize_responses_stream_event` -/
def normalizeResponsesStreamEvent (memory : CallMemory) (event : Fields) :
    Except ProviderFailure (CallMemory × List StreamEvent) :=
  let delta := (textField event "delta").bind orNone
  match objectField event "error", eventKind event with
  | error, .failure =>
    .error (responsesFailure
      (((objectField event "response").bind fun response => objectField response "error").or error))
  | some error, _ => .error (.refused 400 (textField error "message"))
  | none, .text => .ok (memory, delta.toList.map StreamEvent.delta)
  | none, .reasoning =>
    .ok (memory,
      if provider.exposeResponseReasoning ∧ observed then delta.toList.map StreamEvent.thinking
      else [])
  | none, .itemAdded => .ok (itemAdded text memory event)
  | none, .argumentsDelta => .ok (argumentsDelta memory event)
  | none, .argumentsDone => .ok (argumentsDone memory event)
  | none, .completed =>
    .ok (memory,
      match (objectField event "response").bind fun response => objectField response "usage" with
      | some usage => [.usage (.object (normalizeResponsesUsage (some (.object usage))))]
      | none => [])
  | none, .unknown => .ok (memory, [])

def normalizeResponsesStream : CallMemory → List Fields → Except ProviderFailure (List StreamEvent)
  | _, [] => .ok []
  | memory, event :: events => do
    let (next, deltas) ← normalizeResponsesStreamEvent text provider observed memory event
    let rest ← normalizeResponsesStream next events
    return deltas ++ rest

end AverQel.Providers
