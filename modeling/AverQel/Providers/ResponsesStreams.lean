/- digest: When the event stream of a Responses result and the result itself say the same. -/
import AverQel.Foundation.Totals
import AverQel.Providers.ResponsesParsing

namespace AverQel.Providers

open Foundation

inductive MessagePart where
  | outputText (chars : List Char)
  | refusal (chars : List Char)
  deriving DecidableEq

inductive OutputItem where
  | message (parts : List MessagePart)
  | functionCall (callId name arguments : List Char)
  deriving DecidableEq

namespace MessagePart

def text : MessagePart → List Char
  | .outputText chars | .refusal chars => chars

def outputText? : MessagePart → List Char
  | .outputText chars => chars
  | .refusal _ => []

def refusal? : MessagePart → List Char
  | .outputText _ => []
  | .refusal chars => chars

end MessagePart

namespace OutputItem

def collect (part : MessagePart → List Char) : OutputItem → List Char
  | .message parts => (parts.map part).flatten
  | .functionCall _ _ _ => []

end OutputItem

section Results

variable (text : JsonText)

def IsPart : Json → MessagePart → Prop
  | .object part, .outputText chars =>
    typeOf part = some "output_text" ∧ textField part "text" = some chars
  | .object part, .refusal chars =>
    typeOf part = some "refusal" ∧ textField part "refusal" = some chars ∧ part.lookup "text" = none
  | _, _ => False

def IsItem : Json → OutputItem → Prop
  | .object item, .message parts => typeOf item = some "message" ∧
      ∃ contents, item.lookup "content" = some (.array contents) ∧
        List.Forall₂ IsPart contents parts
  | .object item, .functionCall callId name arguments => typeOf item = some "function_call" ∧
      asText (eitherField text item "call_id" "id") = some callId ∧
      textField item "name" = some name ∧ textField item "arguments" = some arguments
  | _, _ => False

/-- A payload with an output and without an error. `output_text` is all the output text, where it is
there. -/
structure IsResult (payload : Fields) (items : List OutputItem) : Prop where
  error : objectField payload "error" = none
  status : textField payload "status" ≠ some "failed".toList
  output : ∃ contents, payload.lookup "output" = some (.array contents) ∧
    List.Forall₂ (IsItem text) contents items
  outputText : textField payload "output_text" = none ∨ textField payload "output_text" =
    some (items.map (OutputItem.collect MessagePart.outputText?)).flatten

end Results

/-- What an event of a stream says about an item of the output. -/
inductive ItemEvent where
  | callAdded (callId name initial : List Char)
  | argumentsDelta (chars : List Char)
  | argumentsDone (chars : List Char)
  | textDelta (chars : List Char)
  | refusalDelta (chars : List Char)
  | other
  deriving DecidableEq

def ItemEvent.text : ItemEvent → List Char
  | .textDelta chars | .refusalDelta chars => chars
  | _ => []

section Events

variable (text : JsonText)

def IsEvent (event : Fields) (said : Int × ItemEvent) : Prop :=
  objectField event "error" = none ∧
    match said.2 with
    | .callAdded callId name initial => typeOf event = some "response.output_item.added" ∧
        asInt (event.lookup "output_index") = some said.1 ∧
        ∃ item, objectField event "item" = some item ∧ typeOf item = some "function_call" ∧
          asText (eitherField text item "call_id" "id") = some callId ∧
          textField item "name" = some name ∧ (textField item "arguments").getD [] = initial
    | .argumentsDelta chars => typeOf event = some "response.function_call_arguments.delta" ∧
        asInt (event.lookup "output_index") = some said.1 ∧ textField event "delta" = some chars
    | .argumentsDone chars => typeOf event = some "response.function_call_arguments.done" ∧
        asInt (event.lookup "output_index") = some said.1 ∧
        textField event "arguments" = some chars
    | .textDelta chars => typeOf event = some "response.output_text.delta" ∧
        textField event "delta" = some chars
    | .refusalDelta chars => typeOf event = some "response.refusal.delta" ∧
        textField event "delta" = some chars
    | .other => eventKind event ∈ [.reasoning, .completed, .unknown] ∨
        typeOf event = some "response.output_item.added" ∧
          ∃ item, objectField event "item" = some item ∧ typeOf item ≠ some "function_call"

end Events

def MessagePart.delta : MessagePart → List Char → ItemEvent
  | .outputText _ => .textDelta
  | .refusal _ => .refusalDelta

def DescribesParts : List MessagePart → List ItemEvent → Prop
  | [], events => events = []
  | part :: parts, events => ∃ (pieces : List (List Char)) (rest : List ItemEvent),
      events = pieces.map part.delta ++ rest ∧
      pieces.flatten = part.text ∧ DescribesParts parts rest

/-- A call is added with a beginning of its arguments, goes on with deltas, and is done with all of
them, or when the deltas are complete. -/
def DescribesItem : OutputItem → List ItemEvent → Prop
  | .message parts, events => DescribesParts parts events
  | .functionCall callId name arguments, events =>
    ∃ (initial : List Char) (pieces : List (List Char)) (last : List ItemEvent),
      events = .callAdded callId name initial :: pieces.map .argumentsDelta ++ last ∧
        (last = [] ∧ initial ++ pieces.flatten = arguments ∨
          last = [.argumentsDone arguments] ∧ initial ++ pieces.flatten <+: arguments)

def ownEvents (said : List (Int × ItemEvent)) (index : Int) : List ItemEvent :=
  (said.filter fun event => event.1 = index ∧ event.2 ≠ .other).map Prod.snd

structure Describes (items : List OutputItem) (said : List (Int × ItemEvent)) : Prop where
  known : ∀ event ∈ said, event.2 ≠ .other → ∃ k < items.length, event.1 = (k : Int)
  each : ∀ (k : Nat) (item : OutputItem), items[k]? = some item →
    DescribesItem item (ownEvents said k)

/-- A piece of a tool call, as a delta of the stream has it. -/
structure CallPiece where
  index : Int
  (callId name : Option (List Char))
  arguments : List Char
  deriving DecidableEq

def readPiece : Json → Option CallPiece
  | .object call => (asInt (call.lookup "index")).map fun index =>
      let function := (objectField call "function").getD []
      ⟨index, textField call "id", textField function "name",
        (textField function "arguments").getD []⟩
  | _ => none

def callPieces (deltas : List StreamEvent) : List CallPiece :=
  (deltas.map fun
    | .toolCallsDelta calls => calls.filterMap readPiece
    | _ => []).flatten

def assembledAt (pieces : List CallPiece) (index : Int) : Option Json :=
  let mine := pieces.filter fun piece => piece.index = index
  match (mine.filterMap CallPiece.callId).getLast?, (mine.filterMap CallPiece.name).getLast? with
  | some callId, some name => some (functionCall callId name (mine.map CallPiece.arguments).flatten)
  | _, _ => none

/-- The stream assembles to the text and the tool calls that the result is parsed to. -/
def Agrees (text : JsonText) (provider : OpenAICompatibleProvider) (observed : Bool)
    (payload : Fields) (events : List Fields) (items : Nat) : Prop :=
  ∃ response deltas, parseResponsesResult text provider payload = .ok response ∧
    normalizeResponsesStream text provider observed .empty events = .ok deltas ∧
    deltaText deltas = response.content ∧
    ((List.range items).filterMap fun k : Nat => assembledAt (callPieces deltas) k) =
      response.toolCalls.getD [] ∧
    ∀ index : Int, (∀ k < items, index ≠ (k : Int)) → assembledAt (callPieces deltas) index = none

/-- No refusal has a text, the text arrives in the order of the items, and no call has empty
arguments. -/
structure Agreeable (items : List OutputItem) (said : List (Int × ItemEvent)) : Prop where
  refusals : ∀ parts, .message parts ∈ items → ∀ chars, .refusal chars ∈ parts → chars = []
  order : (said.map fun event => event.2.text).flatten =
    (items.map (OutputItem.collect MessagePart.text)).flatten
  arguments : ∀ callId name, .functionCall callId name [] ∉ items

variable {text : JsonText}

theorem content_of_isPart {json : Json} {part : MessagePart} (is : IsPart json part) :
    (partContent json).flatten = part.outputText? := by
  cases json with
  | object fields =>
    cases part with
    | outputText =>
      obtain ⟨kind, content⟩ := is
      simp [partContent, kind, content, MessagePart.outputText?]
    | refusal =>
      obtain ⟨kind, _, absent⟩ := is
      have nothing : textField fields "text" = none := by rw [textField, absent]
      simp [partContent, nothing, MessagePart.outputText?]
  | _ => cases part <;> cases is

theorem content_of_isItem {json : Json} {item : OutputItem} (is : IsItem text json item) :
    (itemContent json).flatten = item.collect MessagePart.outputText? := by
  cases json with
  | object =>
    cases item with
    | message =>
      obtain ⟨kind, contents, content, each⟩ := is
      simp only [itemContent, kind, content, if_true, OutputItem.collect]
      clear content
      induction each with
      | nil => rfl
      | cons head _ ih =>
        simp only [List.map_cons, List.flatten_cons, List.flatten_append, ih,
          content_of_isPart head]
    | functionCall =>
      obtain ⟨kind, _⟩ := is
      simp [itemContent, kind, OutputItem.collect]
  | _ => cases item <;> cases is

def OutputItem.plainCall : OutputItem → Option Json
  | .message _ => none
  | .functionCall callId name arguments =>
    some (Providers.functionCall callId name (if arguments = [] then "{}".toList else arguments))

theorem calls_of_isItem {json : Json} {item : OutputItem} (is : IsItem text json item) :
    itemCalls text json = item.plainCall.toList := by
  cases json with
  | object fields =>
    cases item with
    | message =>
      obtain ⟨kind, _⟩ := is
      simp [itemCalls, kind, OutputItem.plainCall]
    | functionCall callId name arguments =>
      obtain ⟨kind, called, named, argued⟩ := is
      have plain : plainArguments text fields =
          if arguments = [] then "{}".toList else arguments := by
        unfold textField at argued
        split at argued
        · rename_i chars found
          cases argued
          by_cases empty : arguments = []
          · simp [plainArguments, found, truthy, empty]
          · simp [plainArguments, found, truthy, empty]
        · cases argued
      simp [itemCalls, kind, called, named, plain, OutputItem.plainCall]
  | _ => cases item <;> cases is

variable {items : List OutputItem}

theorem content_of_output {contents : List Json}
    (each : List.Forall₂ (IsItem text) contents items) :
    (contents.map itemContent).flatten.flatten =
      (items.map (OutputItem.collect MessagePart.outputText?)).flatten := by
  induction each with
  | nil => rfl
  | cons head _ ih =>
    simp only [List.map_cons, List.flatten_cons, List.flatten_append, ih, content_of_isItem head]

theorem calls_of_output {contents : List Json} (each : List.Forall₂ (IsItem text) contents items) :
    (contents.map (itemCalls text)).flatten = items.filterMap OutputItem.plainCall := by
  induction each with
  | nil => rfl
  | cons head _ ih =>
    simp only [List.map_cons, List.flatten_cons, ih, calls_of_isItem head, List.filterMap_cons]
    split <;> rename_i call <;> simp [call]

theorem parse_of_isResult (provider : OpenAICompatibleProvider) {payload : Fields}
    (result : IsResult text payload items) :
    ∃ response, parseResponsesResult text provider payload = .ok response ∧
      response.content = (items.map (OutputItem.collect MessagePart.outputText?)).flatten ∧
      response.toolCalls.getD [] = items.filterMap OutputItem.plainCall := by
  obtain ⟨contents, output, each⟩ := result.output
  have content := content_of_output each
  have calls := calls_of_output each
  refine ⟨responsesResult text provider payload, ?_, ?_, ?_⟩
  · simp only [parseResponsesResult, result.error, result.status, if_false]
  · simp only [responsesResult, output]
    rw [← content]
    split
    · rename_i whole empty known
      rcases result.outputText with absent | same
      · rw [absent] at known
        cases known
      · rw [same, ← content, empty] at known
        cases known
        rw [empty]
        rfl
    · rfl
  · simp only [responsesResult, output, calls]
    split
    · rename_i none_called
      rw [none_called]
      rfl
    · rfl

variable {provider : OpenAICompatibleProvider} {observed : Bool}

/-- What a normaliser remembers and emits of an event. -/
def CallMemory.after (memory : CallMemory) : Int × ItemEvent → CallMemory × List CallPiece
  | (index, .callAdded callId name initial) =>
    (memory.register index (some callId) (some name) initial,
      [⟨index, some callId, some name, initial⟩])
  | (index, .argumentsDelta chars) =>
    if chars = [] then (memory, [])
    else
      (memory.withArguments index ((memory.accumulatedArguments index).getD [] ++ chars),
        [⟨index, memory.callIds index, memory.callNames index, chars⟩])
  | (index, .argumentsDone chars) =>
    let previous := (memory.accumulatedArguments index).getD []
    let suffix := if previous <+: chars then chars.drop previous.length else []
    if suffix = [] then (memory, [])
    else
      (memory.withArguments index chars,
        [⟨index, memory.callIds index, memory.callNames index, suffix⟩])
  | _ => (memory, [])

theorem readPiece_toolCall (memory : CallMemory) {index : Int} {written : Option Json}
    (known : asInt written = some index) {kind : Fields} (plain : kind = [] ∨
      kind = [("type", .string "function".toList)]) (arguments : List Char) :
    readPiece (memory.toolCall index (written.getD .null) kind arguments) =
      some ⟨index, memory.callIds index, memory.callNames index, arguments⟩ := by
  cases written with
  | none => cases known
  | some json =>
    have found : asInt (some json) = some index := known
    rcases plain with rfl | rfl <;> cases callId : memory.callIds index <;>
      cases name : memory.callNames index <;>
      simp [CallMemory.toolCall, readPiece, found, callId, name, textField, objectField,
        List.lookup_cons]

theorem callPieces_singleton {call : Json} {piece : CallPiece} (read : readPiece call = some piece) :
    callPieces [.toolCallsDelta [call]] = [piece] := by
  simp only [callPieces, List.map_cons, List.map_nil, List.flatten_cons, List.flatten_nil,
    List.append_nil, List.filterMap_cons, read, List.filterMap_nil]

variable (provider observed)

/-- The normaliser on an event that says something. -/
theorem normalize_of_isEvent {event : Fields} {said : Int × ItemEvent}
    (is : IsEvent text event said) (memory : CallMemory) :
    ∃ deltas, normalizeResponsesStreamEvent text provider observed memory event =
        .ok ((memory.after said).1, deltas) ∧
      deltaText deltas = said.2.text ∧ callPieces deltas = (memory.after said).2 := by
  obtain ⟨index, saying⟩ := said
  obtain ⟨quiet, is⟩ := is
  have texts : ∀ chars, eventKind event = .text → textField event "delta" = some chars →
      ∃ deltas, normalizeResponsesStreamEvent text provider observed memory event =
          .ok (memory, deltas) ∧ deltaText deltas = chars ∧ callPieces deltas = [] := by
    intro chars kind delta
    refine ⟨(orNone chars).toList.map .delta, ?_, ?_, ?_⟩
    · simp only [normalizeResponsesStreamEvent, quiet, kind, delta, Option.bind_some]
    · by_cases empty : chars = [] <;> simp [deltaText, orNone, empty]
    · by_cases empty : chars = [] <;> simp [callPieces, orNone, empty]
  cases saying with
  | callAdded callId name initial =>
    obtain ⟨kind, position, item, there, call, called, named, begun⟩ := is
    have added : eventKind event = .itemAdded := by
      rw [eventKind, kind]
      rfl
    have piece := readPiece_toolCall (memory.register index (some callId) (some name) initial)
      position (.inr rfl) initial
    refine ⟨[.toolCallsDelta [(memory.register index (some callId) (some name) initial).toolCall
      index ((event.lookup "output_index").getD .null) [("type", .string "function".toList)]
      initial]], ?_, rfl, ?_⟩
    · simp only [normalizeResponsesStreamEvent, quiet, added, itemAdded, there, position, call,
        called, named, begun, if_true, CallMemory.after]
    · rw [callPieces_singleton piece]
      simp [CallMemory.after, CallMemory.register]
  | argumentsDelta chars =>
    obtain ⟨kind, position, delta⟩ := is
    have more : eventKind event = .argumentsDelta := by
      rw [eventKind, kind]
      rfl
    by_cases empty : chars = []
    · refine ⟨[], ?_, rfl, ?_⟩
      · simp only [normalizeResponsesStreamEvent, quiet, more, argumentsDelta, position, delta,
          CallMemory.after, if_pos empty]
      · simp only [CallMemory.after, if_pos empty]
        rfl
    · have piece := readPiece_toolCall (memory.withArguments index
        ((memory.accumulatedArguments index).getD [] ++ chars)) position (.inl rfl) chars
      refine ⟨[.toolCallsDelta [(memory.withArguments index
        ((memory.accumulatedArguments index).getD [] ++ chars)).toolCall index
          ((event.lookup "output_index").getD .null) [] chars]], ?_, rfl, ?_⟩
      · simp only [normalizeResponsesStreamEvent, quiet, more, argumentsDelta, position, delta,
          CallMemory.after, if_neg empty]
      · rw [callPieces_singleton piece]
        simp only [CallMemory.after, if_neg empty]
        rfl
  | argumentsDone chars =>
    obtain ⟨kind, position, arguments⟩ := is
    have done : eventKind event = .argumentsDone := by
      rw [eventKind, kind]
      rfl
    by_cases empty : (if (memory.accumulatedArguments index).getD [] <+: chars then
        chars.drop ((memory.accumulatedArguments index).getD []).length else []) = []
    · refine ⟨[], ?_, rfl, ?_⟩
      · simp only [normalizeResponsesStreamEvent, quiet, done, argumentsDone, position, arguments,
          CallMemory.after, if_pos empty]
      · simp only [CallMemory.after, if_pos empty]
        rfl
    · have piece := readPiece_toolCall (memory.withArguments index chars) position (.inl rfl)
        (if (memory.accumulatedArguments index).getD [] <+: chars then
          chars.drop ((memory.accumulatedArguments index).getD []).length else [])
      refine ⟨[.toolCallsDelta [(memory.withArguments index chars).toolCall index
        ((event.lookup "output_index").getD .null) []
        (if (memory.accumulatedArguments index).getD [] <+: chars then
          chars.drop ((memory.accumulatedArguments index).getD []).length else [])]], ?_, rfl, ?_⟩
      · simp only [normalizeResponsesStreamEvent, quiet, done, argumentsDone, position, arguments,
          CallMemory.after, if_neg empty]
      · rw [callPieces_singleton piece]
        simp only [CallMemory.after, if_neg empty]
        rfl
  | textDelta chars | refusalDelta chars =>
    obtain ⟨kind, delta⟩ := is
    refine texts chars ?_ delta
    rw [eventKind, kind]
    rfl
  | other =>
    rcases is with quietly | ⟨kind, item, there, call⟩
    · simp only [List.mem_cons, List.not_mem_nil, or_false] at quietly
      rcases quietly with kind | kind | kind
      · refine ⟨_, by simp only [normalizeResponsesStreamEvent, quiet, kind]; rfl, ?_, ?_⟩
        · split
          · cases (textField event "delta").bind orNone <;> rfl
          · rfl
        · split
          · cases (textField event "delta").bind orNone <;> rfl
          · rfl
      · refine ⟨_, by simp only [normalizeResponsesStreamEvent, quiet, kind]; rfl, ?_, ?_⟩ <;>
          split <;> rfl
      · exact ⟨[], by simp only [normalizeResponsesStreamEvent, quiet, kind]; rfl, rfl, rfl⟩
    · have added : eventKind event = .itemAdded := by
        rw [eventKind, kind]
        rfl
      refine ⟨[], ?_, rfl, rfl⟩
      simp only [normalizeResponsesStreamEvent, quiet, added, itemAdded, there, if_neg call,
        CallMemory.after]
      split
      · rename_i same _
        cases same
        rw [if_neg call]
      · rfl

end AverQel.Providers
