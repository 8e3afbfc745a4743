/- digest: The calls that a model streams, and what the validation loop decides about each. -/
import AverQel.Providers.StreamParsing
import Mathlib.Data.List.Sort

namespace AverQel.DeepSpace

open Foundation
open Providers (Json Fields)

/-- One streamed fragment of a call, as far as its fields have the expected types. -/
structure CallDelta where
  index : Option Int
  (id name arguments thoughtSignature : Option String)
  deriving DecidableEq, Repr

structure ToolCall where
  (id name arguments : String)
  thoughtSignature : Option String
  deriving DecidableEq, Repr

def unlessBlank (text : Option String) : Option String :=
  (text.map Text.strip).filter (fun stripped => stripped ≠ "")

namespace ToolCall

def fresh (index : Int) : ToolCall :=
  ⟨s!"tool_{index}", "", "", none⟩

def extend (current : ToolCall) (item : CallDelta) : ToolCall where
  id := (unlessBlank item.id).getD current.id
  name := (unlessBlank item.name).getD current.name
  arguments := current.arguments ++ item.arguments.getD ""
  thoughtSignature := (unlessBlank item.thoughtSignature).orElse fun _ => current.thoughtSignature

/-- `_tool_name` -/
def toolName (call : ToolCall) : String := if call.name = "" then "unknown" else call.name

end ToolCall

abbrev CallItems := List (Int × ToolCall)

def receiveDelta (accumulator : CallItems) (position : Nat) (item : CallDelta) : CallItems :=
  let index := item.index.getD position
  if (accumulator.lookup index).isSome then
    accumulator.map (fun entry => if entry.1 = index then (index, entry.2.extend item) else entry)
  else accumulator ++ [(index, (ToolCall.fresh index).extend item)]

/-- `_tool_call_accumulator` -/
def toolCallAccumulator (accumulator : CallItems) (deltas : List CallDelta) : CallItems :=
  deltas.zipIdx.foldl (fun calls item => receiveDelta calls item.2 item.1) accumulator

/-- `normalized_call_items` of a streamed reply. -/
def normalizedCallItems (deltas : List (List CallDelta)) : CallItems :=
  (deltas.foldl toolCallAccumulator []).insertionSort (fun left right => left.1 ≤ right.1)

/-- The stage of a managed task. -/
inductive TaskStage where
  | readPlan
  | startTask
  | work
  | verifyTask
  | verifyFinal
  | final
  deriving DecidableEq, Repr

/-- One tool of a connected service. -/
structure McpBinding where
  (exposedName serverName rawName : String)
  (catalogRevision serverId : Nat)
  deriving DecidableEq, Repr

structure ToolDecision where
  allowed : Bool
  reason : Option String
  requiresApproval : Bool
  deriving DecidableEq, Repr

/-- The tools, the policies and the text functions that the loop calls on. -/
structure Toolbox where
  parseToolArguments : String → Option Fields
  str : Json → String
  truthy : Json → Bool
  casefold : String → String
  repr : String → String
  dumps : Fields → String
  signature : String → Fields → Option TaskStage → Option String → String
  contains : String → Bool
  validate : String → Fields → Except String Fields
  readMode : String → Bool
  nativeToolNames : List String
  policyForTool : McpBinding → ToolDecision
  refreshServerBindings : McpBinding → Option (List (String × McpBinding))
  (maxConcurrentTools mcpMaxArgumentCharsPerCall mcpMaxCallsPerTurn mcpMaxDiscoveryCallsPerTurn : Nat)
  mcpMaxResultCharsPerTurn : Nat

/-- What a round knows of the request and its managed task. -/
structure RoundContext where
  managedTaskRun : Bool
  taskLifecycleStage : TaskStage
  activeTaskId : Option String
  (taskHasWorkEvidence allowExistingTaskState : Bool)
  mcpBindings : List (String × McpBinding)
  permittedToolNames : List String

/-- What the loop counts and loads from call to call. -/
structure CallBook where
  seenToolCalls : List (String × Nat)
  (mcpCallCount mcpDiscoveryCallCount mcpResultChars : Nat)
  mcpBindings : List (String × McpBinding)
  permittedToolNames : List String

/-- What becomes of a call. -/
inductive Verdict where
  /-- A tool message at once, without execution. -/
  | answered (output : String)
  /-- A tool message that is taken back with its call. -/
  | invalid (output : String)
  /-- A tool message, and the end of the loop and the turn. -/
  | duplicate (output : String)
  /-- No tool message; the loop and the turn end. -/
  | awaitsApproval
  | accepted (toolName : String) (arguments : Fields)

def mcpSearchTools : String := "mcp_search_tools"

def mcpGetToolSchema : String := "mcp_get_tool_schema"

def mcpCallTool : String := "mcp_call_tool"

def mcpGetResult : String := "mcp_get_result"

def mcpBroker : String := "mcp_broker"

def metadataOperations : List String := [mcpSearchTools, mcpGetToolSchema, mcpGetResult]

def implicitWebToolNames : List String := ["web_search", "url_read", "image_read"]

def deferredMessage : String :=
  "The call was deferred without execution. Managed task steps run in order; " ++
  "continue with the current persisted step before requesting this action."

namespace Toolbox

variable (box : Toolbox)

/-- `str(arguments.get(key) or "")` -/
def text (arguments : Fields) (key : String) : String :=
  match (arguments.lookup key).filter box.truthy with
  | some value => box.str value
  | none => ""

/-- `_is_parallel_managed_work_batch` -/
def parallelManagedWorkBatch (stage : TaskStage) (bindings : List (String × McpBinding))
    (calls : List ToolCall) : Bool :=
  stage = .work && 2 ≤ calls.length &&
    calls.length ≤ max 1 (min box.maxConcurrentTools 32) &&
    calls.all (fun call =>
      call.toolName ≠ "discover_tools" && (bindings.lookup call.toolName).isNone &&
        box.contains call.toolName && box.readMode call.toolName)

def startsManagedPlan (managedTaskRun : Bool) (items : CallItems) : Bool :=
  !managedTaskRun && items.any (fun item =>
    item.2.toolName = "todo_write" &&
      ((box.parseToolArguments item.2.arguments).bind (·.lookup "operation")).any (fun
        | .string operation => operation = "replace".toList
        | _ => false))

/-- The broker's operation under its own name; an unknown operation leaves no arguments. -/
def brokerOperation (toolName : String) (arguments : Option Fields) : String × Option Fields :=
  match arguments with
  | none => (toolName, none)
  | some fields =>
    if toolName = mcpBroker then
      let operation := box.casefold (Text.strip (box.text fields "operation"))
      let rest := fields.filter (fun field => field.1 ≠ "operation")
      if operation = "search" then (mcpSearchTools, some rest)
      else if operation = "schema" then (mcpGetToolSchema, some rest)
      else if operation = "call" then (mcpCallTool, some rest)
      else if operation = "result" then (mcpGetResult, some rest)
      else (toolName, none)
    else (toolName, some fields)

/-- `mcp_broker.resolve` -/
def resolve (bindings : List (String × McpBinding)) (toolRef : String) : Option McpBinding :=
  let ref := Text.strip toolRef
  if ref = "" || 128 < ref.length then none else bindings.lookup ref

/-- The tool that a brokered call names, with the arguments for it. -/
def resolveCall (bindings : List (String × McpBinding)) (toolName : String)
    (arguments : Fields) : Except String (String × Fields) :=
  if toolName ≠ mcpCallTool then .ok (toolName, arguments)
  else
    match resolve bindings (Text.strip (box.text arguments "tool_ref")),
      arguments.lookup "arguments" with
    | some binding, some (.object requested) =>
      if box.mcpMaxArgumentCharsPerCall < (box.dumps requested).length then
        .error <| "The MCP arguments exceed the safe per-call budget. " ++
          "Send a smaller request or use the connected service's pagination arguments."
      else .ok (binding.exposedName, requested)
    | _, _ =>
      .error <| "The MCP tool reference or arguments were invalid. " ++
        "Search for a connected tool and provide its exact tool_ref " ++
        "with a JSON object of arguments."

/-- `_load_implicit_web_tool` -/
def loadImplicitWebTool (toolName : String) : Bool :=
  toolName ∈ implicitWebToolNames && toolName ∈ box.nativeToolNames

/-- The permitted names after the check of the name that the model used; `none` refuses it. -/
def permit (round : RoundContext) (permitted : List String) (modelToolName : String) :
    Option (List String) :=
  if modelToolName ∈ permitted then some permitted
  else if (!round.managedTaskRun || round.taskLifecycleStage = .work) &&
      box.loadImplicitWebTool modelToolName then
    some (modelToolName :: permitted)
  else none

def unavailable (round : RoundContext) (modelToolName : String) : String :=
  if round.managedTaskRun && round.taskLifecycleStage ≠ .work then
    "The call was deferred without execution. Complete the current persisted " ++
      "task step before requesting this capability."
  else
    s!"The tool {box.repr modelToolName} is not available for this request. " ++
      "Choose one of the currently supplied tools."

def todoWriteEvidenceMaxChars : Nat := 1000

def todoWriteEvidenceCompactionMarker : List Char :=
  "\n… evidence compacted by DeepSpace …\n".toList

/-- `_repair_tool_arguments_for_validation` -/
def repairToolArguments (toolName : String) (arguments : Fields) : Fields :=
  if toolName ≠ "todo_write" then arguments
  else
    match arguments.lookup "evidence" with
    | some (.string evidence) =>
      if evidence.length ≤ todoWriteEvidenceMaxChars then arguments
      else
        let available := todoWriteEvidenceMaxChars - todoWriteEvidenceCompactionMarker.length
        let headChars := min 650 available
        let tail := evidence.drop (evidence.length - (available - headChars))
        let compacted := evidence.take headChars ++ todoWriteEvidenceCompactionMarker ++ tail
        arguments.map (fun field =>
          if field.1 = "evidence" then (field.1, .string compacted) else field)
    | _ => arguments

/-- The arguments of a native tool, repaired and validated; another tool's stay as they are. -/
def validated (toolName : String) (arguments : Fields) : Except String Fields :=
  if box.contains toolName then
    match box.validate toolName (repairToolArguments toolName arguments) with
    | .ok arguments => .ok arguments
    | .error exc =>
      .error <| s!"The {toolName} arguments do not match its tool contract: {exc}. " ++
        "Retry with one valid JSON object and do not invent unsupported fields."
  else .ok arguments

/-- Whether the order of a managed task defers the call. The texts of the single reasons are
dropped by the loop, which answers all of them with `deferredMessage`. -/
def lifecycleError (round : RoundContext) (permitted : List String)
    (first startsPlan parallelBatch : Bool) (modelToolName toolName : String)
    (arguments : Fields) : Bool :=
  let operation := box.text arguments "operation"
  let status := box.text arguments "status"
  let activeTask := box.text arguments "task_id" = round.activeTaskId.getD ""
  if startsPlan && (!first || toolName ≠ "todo_write") then true
  else if !round.allowExistingTaskState && (toolName = "todo_write" && operation ≠ "replace") then
    true
  else if round.managedTaskRun then
    if !first && !parallelBatch then true
    else if toolName ∉ permitted && modelToolName ∉ permitted then true
    else
      match round.taskLifecycleStage with
      | .startTask =>
        toolName ≠ "todo_write" || operation ≠ "update" || !activeTask || status ≠ "in_progress"
      | .work =>
        toolName = "todo_write" &&
          (operation ≠ "update" ||
            !activeTask || status ∉ ["completed", "blocked", "failed"] ||
            Text.strip (box.text arguments "evidence") = "" ||
            (status = "completed" && !round.taskHasWorkEvidence))
      | _ => false
  else false

/-- Count the call against the budgets of connected services. -/
def chargeBudget (book : CallBook) (toolName : String) : Except String CallBook :=
  let resultsSpent :=
    "The MCP result budget for this turn is exhausted. " ++
      "The collected results are available for the answer."
  if toolName ∈ metadataOperations then
    if box.mcpMaxResultCharsPerTurn ≤ book.mcpResultChars + 256 then .error resultsSpent
    else if box.mcpMaxDiscoveryCallsPerTurn ≤ book.mcpDiscoveryCallCount then
      .error <| "The MCP discovery budget for this turn is exhausted. " ++
        "Use the existing results or start a new request."
    else .ok { book with mcpDiscoveryCallCount := book.mcpDiscoveryCallCount + 1 }
  else if (book.mcpBindings.lookup toolName).isSome then
    if box.mcpMaxCallsPerTurn ≤ book.mcpCallCount then
      .error <| "The MCP remote-call budget for this turn is exhausted. " ++
        "Use the results already collected or start a new request."
    else if box.mcpMaxResultCharsPerTurn ≤ book.mcpResultChars + 256 then .error resultsSpent
    else .ok { book with mcpCallCount := book.mcpCallCount + 1 }
  else .ok book

/-- The tools of the productivity allowlist, `_MODES`. -/
def allowlist : List String :=
  ["discover_tools", "web_search", "url_read", "image_read", "analyze", "read", "find",
    "todo_write", "write", "edit", "delete", "sandbox_execute", "artifact_create", "ask_user"]

/-- `before_tool` -/
def beforeTool (toolName : String) : ToolDecision :=
  if toolName ∈ allowlist then ⟨true, none, false⟩
  else ⟨false, some "Tool is not in the DeepSpace productivity allowlist.", false⟩

def mcpCatalogChangedReason : String := "MCP tool catalog changed; refresh the tool list."

/-- `_refresh_mcp_binding_after_catalog_change`, and the policy's word on the new binding. -/
def rebind (book : CallBook) (binding : McpBinding) :
    CallBook × Option McpBinding × ToolDecision :=
  match box.refreshServerBindings binding with
  | none =>
    let error := "The latest MCP catalog could not be loaded. No action was performed; " ++
      "retry the tool search."
    (book, none, ⟨false, some error, false⟩)
  | some refreshed =>
    let others := book.mcpBindings.filter (fun entry => entry.2.serverId ≠ binding.serverId)
    let book := { book with mcpBindings := refreshed ++ others }
    match refreshed.lookup binding.exposedName with
    | some current => (book, some current, box.policyForTool current)
    | none =>
      let error := "This tool was removed or renamed in the latest MCP catalog. " ++
        "No action was performed. " ++
        "Search the updated catalog and load the current tool schema before trying again."
      (book, none, ⟨false, some error, false⟩)

/-- The policy's decision, with the binding that it is about. -/
def decision (book : CallBook) (toolName : String) :
    CallBook × Option McpBinding × ToolDecision :=
  let binding := book.mcpBindings.lookup toolName
  if toolName ∈ metadataOperations then
    (book, binding, ⟨true, some "DeepSpace MCP broker metadata operation.", false⟩)
  else
    match binding with
    | none => (book, none, beforeTool toolName)
    | some binding =>
      let decided := box.policyForTool binding
      if !decided.allowed && decided.reason = some mcpCatalogChangedReason then
        box.rebind book binding
      else (book, some binding, decided)

/-- The last part of the loop's body: duplicates, budgets, policy and approval. -/
def judgeAction (round : RoundContext) (book : CallBook) (toolName : String)
    (arguments : Fields) : CallBook × Verdict :=
  let ledgerCall := toolName = "todo_write"
  let signature := box.signature toolName arguments
    (if ledgerCall then some round.taskLifecycleStage else none)
    (if ledgerCall then round.activeTaskId else none)
  let count := (book.seenToolCalls.lookup signature).getD 0 + 1
  let book := { book with seenToolCalls := (signature, count) :: book.seenToolCalls }
  let duplicateLimit := if ledgerCall && box.text arguments "operation" = "check" then 1 else 2
  if duplicateLimit < count then
    (book, .duplicate "Duplicate tool call detected and stopped safely.")
  else
    match box.chargeBudget book toolName with
    | .error output => (book, .answered output)
    | .ok book =>
      let (book, binding, decided) := box.decision book toolName
      if !decided.allowed then
        (book, .answered (Text.orDefault decided.reason "Tool blocked by DeepSpace policy."))
      else if binding.isSome && decided.requiresApproval then (book, .awaitsApproval)
      else (book, .accepted toolName arguments)

/-- The body of the validation loop, up to the messages that it appends. -/
def judge (round : RoundContext) (items : CallItems) (parallelBatch : Bool) (book : CallBook)
    (callIndex : Int) (call : ToolCall) : CallBook × Verdict :=
  let discovery := items.find? (fun item => item.2.toolName = "discover_tools")
  if discovery.any (fun item => callIndex ≠ item.1) then
    (book, .answered <|
      "Tool discovery runs alone. Its returned schemas will be available on the next " ++
        "model turn, so this additional call was deferred without execution.")
  else
    match box.brokerOperation call.toolName (box.parseToolArguments call.arguments) with
    | (toolName, none) => (book, .invalid s!"The {toolName} arguments were invalid JSON.")
    | (toolName, some arguments) =>
      match box.resolveCall book.mcpBindings toolName arguments with
      | .error output => (book, .answered output)
      | .ok (toolName, arguments) =>
        match box.permit round book.permittedToolNames call.toolName with
        | none => (book, .answered (box.unavailable round call.toolName))
        | some permitted =>
          let book := { book with permittedToolNames := permitted }
          match box.validated toolName arguments with
          | .error output => (book, .invalid output)
          | .ok arguments =>
            let first := (items.head?.map Prod.fst) = some callIndex
            let startsPlan := box.startsManagedPlan round.managedTaskRun items
            if box.lifecycleError round permitted first startsPlan parallelBatch call.toolName
                toolName arguments then
              (book, .answered deferredMessage)
            else box.judgeAction round book toolName arguments

end Toolbox

end AverQel.DeepSpace
