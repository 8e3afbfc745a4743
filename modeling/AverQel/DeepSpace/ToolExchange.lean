/- digest: Rounds of a turn: the calls of a reply, their tool messages, and the next request,
fitted to the context window. -/
import AverQel.DeepSpace.ToolCalls
import AverQel.Foundation.Obligations
import AverQel.Foundation.Totals
import AverQel.Foundation.Transition
import AverQel.Frontend.JsonParse

namespace AverQel.DeepSpace

open Foundation
open Foundation.Obligations (Effect Settled)

universe u

inductive Source where
  | text (output : String)
  | execution (number : Nat)
  deriving DecidableEq, Repr

inductive Content where
  | text (output : String)
  | result (execution : Nat) (output : String)
  deriving DecidableEq, Repr

def Content.source : Content → Source
  | .text output => .text output
  | .result execution _ => .execution execution

inductive ChatRole where
  | system
  | user
  | assistant
  deriving DecidableEq, Repr

/-- An entry of `conversation_messages`. -/
inductive ChatMessage where
  | plain (role : ChatRole) (dynamicKey : Option String) (content : String)
  | toolCalls (calls : List ToolCall) (content reasoningContent : Option String)
  | tool (toolCallId : String) (content : Content)
  deriving DecidableEq, Repr

namespace ChatMessage

def dynamicKey : ChatMessage → Option String
  | plain _ key _ => key
  | _ => none

def effect : ChatMessage → Effect String Source
  | plain _ _ _ => .neutral
  | toolCalls calls _ _ => .opens (calls.map ToolCall.id)
  | tool toolCallId content => .settles toolCallId content.source

def answersTo (ids : List String) : ChatMessage → Bool
  | tool toolCallId _ => toolCallId ∈ ids
  | _ => false

@[simp] theorem effect_plain (role : ChatRole) (key : Option String) (content : String) :
    (plain role key content).effect = .neutral := rfl

@[simp] theorem effect_toolCalls (calls : List ToolCall) (content reasoning : Option String) :
    (toolCalls calls content reasoning).effect = .opens (calls.map ToolCall.id) := rfl

/-- `_set_dynamic_system_instruction` -/
def setDynamicSystemInstruction (messages : List ChatMessage) (key content : String) :
    List ChatMessage :=
  messages.filter (fun message => message.dynamicKey ≠ some key) ++
    [plain .system (some key) content]

end ChatMessage

open ChatMessage (setDynamicSystemInstruction)

/-- What the model's provider makes of an assistant message. -/
structure ProviderProtocol where
  (deepseekV4 reasoningProtocol : Bool)
  continuation : String
  deriving DecidableEq, Repr

/-- `_assistant_tool_call_message` -/
def assistantToolCallMessage (provider : ProviderProtocol) (calls : List ToolCall) :
    ChatMessage :=
  .toolCalls calls (if provider.deepseekV4 then some "" else none)
    (if provider.reasoningProtocol && provider.continuation ≠ "" then some provider.continuation
      else none)

structure ValidCall where
  call : ToolCall
  (callId toolName : String)
  arguments : Providers.Fields

inductive Halt where
  | duplicate
  | approval
  deriving DecidableEq, Repr

/-- The variables of the validation loop. `sources` records for every call that the loop has
passed where its own outcome comes from. -/
structure Validation where
  messages : List ChatMessage
  validCalls : List ValidCall
  (invalidToolCallIds errorMessages : List String)
  book : CallBook
  halt : Option Halt
  sources : List (String × Source)

namespace Validation

def answer (v : Validation) (callId output : String) : Validation :=
  { v with
    messages := v.messages ++ [.tool callId (.text output)]
    sources := v.sources ++ [(callId, .text output)] }

/-- What the loop does with a call. Executions are numbered from `executed` on. -/
def note (executed : Nat) (v : Validation) (call : ToolCall) (judged : CallBook × Verdict) :
    Validation :=
  let v := { v with book := judged.1 }
  match judged.2 with
  | .answered output => v.answer call.id output
  | .invalid output =>
    { v.answer call.id output with
      invalidToolCallIds := v.invalidToolCallIds ++ [call.id]
      errorMessages := v.errorMessages ++ [output] }
  | .duplicate output => { v.answer call.id output with halt := some .duplicate }
  | .awaitsApproval => { v with halt := some .approval }
  | .accepted toolName arguments =>
    { v with
      validCalls := v.validCalls ++ [⟨call, call.id, toolName, arguments⟩]
      sources := v.sources ++ [(call.id, .execution (executed + v.validCalls.length))] }

def examine (judge : CallBook → Int → ToolCall → CallBook × Verdict) (executed : Nat) :
    Validation → CallItems → Validation
  | v, [] => v
  | v, (callIndex, call) :: rest =>
    let v := v.note executed call (judge v.book callIndex call)
    if v.halt.isSome then v else examine judge executed v rest

end Validation

/-- Take the calls with an invalid id and their tool messages out of the exchange that begins
at `start`. -/
def cutInvalidCalls (messages : List ChatMessage) (start : Nat) (ids : List String) :
    List ChatMessage :=
  if ids = [] then messages
  else
    match messages.drop start with
    | .toolCalls calls content reasoning :: rest =>
      let retainedCalls := calls.filter (fun call => call.id ∉ ids)
      let retainedMessages := rest.filter (fun message => !message.answersTo ids)
      let assistant :=
        if retainedCalls = [] then [] else [.toolCalls retainedCalls content reasoning]
      messages.take start ++ assistant ++ retainedMessages
    | _ => messages

structure ExecutionBatch where
  calls : List ValidCall
  parallel : Bool

/-- The loop of `plan_execution_batches`, with its pending reads. -/
def planBatches (isRead : ValidCall → Bool) :
    List ValidCall → List ValidCall → List ExecutionBatch
  | pendingReads, [] => if pendingReads = [] then [] else [⟨pendingReads, true⟩]
  | pendingReads, call :: calls =>
    if isRead call then planBatches isRead (pendingReads ++ [call]) calls
    else
      (if pendingReads = [] then [] else [⟨pendingReads, true⟩]) ++
        ⟨[call], false⟩ :: planBatches isRead [] calls

/-- `plan_execution_batches` -/
def planExecutionBatches (isRead : ValidCall → Bool) (calls : List ValidCall) :
    List ExecutionBatch :=
  planBatches isRead [] calls

/-- `results_by_call_id`, the newest entry first: which execution's result an id stands for. -/
abbrev ResultsByCallId := List (String × Nat)

def executeBatches (executed : Nat) (batches : List ExecutionBatch) : ResultsByCallId :=
  ((batches.flatMap ExecutionBatch.calls).zipIdx executed).foldl
    (fun results entry => (entry.1.callId, entry.2) :: results) []

/-- What the tail of a round makes of a result: the text for the model, the counted characters,
and whether the turn ends with it. -/
structure Report where
  output : String
  mcpResultChars : Nat
  ends : Bool
  deriving DecidableEq, Repr

/-- The tool messages of the results, in the order of the calls. -/
def reportResults {ρ : Type u} (report : ValidCall → ρ → Nat → Report) (execute : Nat → ρ) :
    Nat → List (ValidCall × Nat) → List ChatMessage × Nat × Bool
  | chars, [] => ([], chars, false)
  | chars, (call, execution) :: rest =>
    let reported := report call (execute execution) chars
    let (messages, chars, ends) := reportResults report execute reported.mcpResultChars rest
    (.tool call.callId (.result execution reported.output) :: messages, chars,
      reported.ends || ends)

/-- What a reply without calls leads to: another round, another round under an instruction, or
the end of the turn. -/
inductive ProseOutcome where
  | again
  | instruct (key content : String)
  | done
  deriving DecidableEq, Repr

/-- One round: the streamed reply, and what the tools and the stores answer during it. -/
structure ModelRound (ρ : Type u) where
  deltas : List (List CallDelta)
  prose : ProseOutcome
  provider : ProviderProtocol
  box : Toolbox
  context : RoundContext
  execute : Nat → ρ
  report : ValidCall → ρ → Nat → Report

/-- The variables that a turn keeps from round to round. `record` lists, exchange by exchange,
where the outcome of every call comes from; the code does not keep it. -/
structure Turn where
  messages : List ChatMessage
  record : List (List (String × Source))
  executed : Nat
  book : CallBook
  (roundIndex invalidToolArgumentRetries : Nat)
  invalidToolErrorMessages : List String
  ended : Bool

inductive Segment where
  | plain (role : ChatRole) (dynamicKey : Option String) (content : String)
  | replayed (calls : List (ToolCall × String))
  deriving DecidableEq, Repr

namespace Segment

def messages : Segment → List ChatMessage
  | plain role key content => [.plain role key content]
  | replayed calls =>
    .toolCalls (calls.map Prod.fst) none none ::
      calls.map (fun entry => .tool entry.1.id (.text entry.2))

def record : Segment → List (List (String × Source))
  | plain _ _ _ => []
  | replayed calls => [calls.map (fun entry => (entry.1.id, .text entry.2))]

end Segment

def maxAgentModelRounds : Nat := 64

def maxToolRetries : Nat := 1

namespace Turn

variable {ρ : Type u}

/-- A turn before its first round. -/
def start (opening : List Segment) : Turn where
  messages := opening.flatMap Segment.messages
  record := opening.flatMap Segment.record
  executed := 0
  book := ⟨[], 0, 0, 0, [], []⟩
  roundIndex := 0
  invalidToolArgumentRetries := 0
  invalidToolErrorMessages := []
  ended := false

def requestsAgain (turn : Turn) : Bool :=
  !turn.ended && turn.roundIndex < maxAgentModelRounds

def afterProse (turn : Turn) : ProseOutcome → Turn
  | .again => turn
  | .instruct key content =>
    { turn with messages := setDynamicSystemInstruction turn.messages key content }
  | .done => { turn with ended := true }

/-- The validation loop of a round. -/
def validation (turn : Turn) (round : ModelRound ρ) : Validation :=
  let items := normalizedCallItems round.deltas
  let book := { turn.book with
    mcpBindings := round.context.mcpBindings
    permittedToolNames := round.context.permittedToolNames }
  let parallelBatch := round.box.parallelManagedWorkBatch round.context.taskLifecycleStage
    book.mcpBindings (items.map Prod.snd)
  Validation.examine (round.box.judge round.context items parallelBatch) turn.executed
    { messages := turn.messages ++
        [assistantToolCallMessage round.provider (items.map Prod.snd)]
      validCalls := []
      invalidToolCallIds := []
      errorMessages := []
      book := book
      halt := none
      sources := [] } items

/-- The turn after the validation loop and the cut of the invalid calls. -/
def exchanged (turn : Turn) (v : Validation) : Turn :=
  let sources := v.sources.filter (fun entry => entry.1 ∉ v.invalidToolCallIds)
  { turn with
    messages := cutInvalidCalls v.messages turn.messages.length v.invalidToolCallIds
    record := if sources = [] then turn.record else turn.record ++ [sources]
    book := v.book
    invalidToolErrorMessages := turn.invalidToolErrorMessages ++ v.errorMessages
    ended := v.halt.isSome }

/-- Ask for the same action again, once. -/
def retryArguments (turn : Turn) : Turn :=
  let recent := turn.invalidToolErrorMessages.drop (turn.invalidToolErrorMessages.length - 3)
  let validationDetails := Text.truncate 2000 (" ".intercalate recent)
  if turn.invalidToolArgumentRetries < maxToolRetries then
    { turn with
      messages := setDynamicSystemInstruction turn.messages "invalid_tool_arguments" <|
        "Your previous structured tool arguments failed schema validation. Retry the " ++
        "same action using exactly one valid JSON object matching the supplied tool " ++
        "schema. Preserve required fields, keep bounded fields within their limits, " ++
        s!"and do not write tool markup or prose. Validation details: {validationDetails}"
      invalidToolArgumentRetries := turn.invalidToolArgumentRetries + 1 }
  else { turn with ended := true }

/-- `is_independent_read` -/
def independentRead (box : Toolbox) (book : CallBook) (item : ValidCall) : Bool :=
  (book.mcpBindings.lookup item.toolName).isNone && box.contains item.toolName &&
    box.readMode item.toolName

/-- Execute the calls and append their results, each looked up by its call id. -/
def executeCalls (turn : Turn) (round : ModelRound ρ) (calls : List ValidCall) : Turn :=
  let batches := planExecutionBatches (independentRead round.box turn.book) calls
  let resultsByCallId := executeBatches turn.executed batches
  let results := calls.filterMap (fun call =>
    (resultsByCallId.lookup call.callId).map (call, ·))
  let (answers, chars, ends) :=
    reportResults round.report round.execute turn.book.mcpResultChars results
  { turn with
    messages := turn.messages ++ answers
    executed := turn.executed + calls.length
    book := { turn.book with mcpResultChars := chars }
    ended := turn.ended || ends }

def toolRound (turn : Turn) (round : ModelRound ρ) : Turn :=
  let v := turn.validation round
  let turn := turn.exchanged v
  if v.invalidToolCallIds ≠ [] ∧ v.validCalls = [] ∧ v.halt ≠ some .approval then
    turn.retryArguments
  else turn.executeCalls round (if v.halt = some .approval then [] else v.validCalls)

def nextRound (turn : Turn) : Turn := { turn with roundIndex := turn.roundIndex + 1 }

def step (turn : Turn) (round : ModelRound ρ) : Turn :=
  if turn.requestsAgain then
    if normalizedCallItems round.deltas = [] then turn.nextRound.afterProse round.prose
    else turn.nextRound.toolRound round
  else turn

end Turn

namespace Context

inductive Role where
  | system
  | user
  | assistant
  | tool
  deriving DecidableEq, Repr

/-- A message of a request: its object, what the fitting reads of it, and its estimate. -/
structure Entry where
  id : Nat
  role : Role
  (toolCalls originalTask : Bool)
  tokens : Nat
  deriving DecidableEq, Repr

def isUser (e : Entry) : Bool := e.role = .user

def estimate (messages : List Entry) : Nat := total Entry.tokens messages

/-- `rest` are the messages behind it: the last user message is not ordinary. -/
def isOrdinaryHistory (rest : List Entry) (e : Entry) : Bool :=
  !(isUser e && !rest.any isUser) && !e.originalTask && (isUser e || e.role = .assistant) &&
    !e.toolCalls

/-- The backward loop over the history, with the tokens that its ordinary messages have used. -/
def trimHistory (budget : Nat) : List Entry → List Entry × Nat
  | [] => ([], 0)
  | e :: rest =>
    let (kept, used) := trimHistory budget rest
    if !isOrdinaryHistory rest e then (e :: kept, used)
    else if used + e.tokens ≤ budget then (e :: kept, used + e.tokens)
    else (kept, used)

def lastUser (messages : List Entry) : Option Entry := messages.reverse.find? isUser

/-- `message is last_user_message or message.get("__deepspace_original_task")` -/
def held (last : Option Entry) (e : Entry) : Bool := last = some e || e.originalTask

/-- The second backward loop; the flag says that it has come to its `break`. -/
def selectBody (last : Option Entry) (budget used : Nat) : List Entry → List Entry × Nat × Bool
  | [] => ([], used, false)
  | e :: rest =>
    let (selected, used, stopped) := selectBody last budget used rest
    if stopped then (selected, used, true)
    else if held last e || used + e.tokens ≤ budget then (e :: selected, used + e.tokens, false)
    else (selected, used, !selected.isEmpty)

def contextBudget (window maxOutputTokens : Int) : Nat :=
  (max 512 (window - max 256 maxOutputTokens)).toNat

/-- The messages that the history budget leaves. -/
def historyLeft (messages : List Entry) (historyBudget : Option Int) : List Entry :=
  match historyBudget with
  | none => messages
  | some budget => (trimHistory budget.toNat messages).1

/-- The leading system message. -/
def leading (messages : List Entry) : List Entry :=
  (messages.take 1).filter fun e => e.role = .system

/-- `_fit_history_to_context`; `tools` is the estimate of the tools. -/
def fitHistoryToContext (messages : List Entry) (window : Option Int) (maxOutputTokens : Int)
    (tools : Nat) (historyBudget : Option Int) : List Entry × Bool × Bool :=
  let left := historyLeft messages historyBudget
  let compacted : Bool := left.length < messages.length
  match window.filter (0 < ·) with
  | none => (left, compacted, false)
  | some window =>
    let budget := contextBudget window maxOutputTokens
    let overflow : Bool := budget < estimate messages + tools
    if estimate left + tools ≤ budget then (left, compacted, overflow)
    else
      let head := leading left
      let body := left.drop head.length
      let fitted := head ++
        (selectBody (lastUser left) budget (estimate head + tools) body).1
      (fitted, compacted || fitted.length < left.length,
        overflow && estimate fitted + tools ≤ budget)

/-- The leading system message, the last user message and the original tasks. -/
def isProtected (messages : List Entry) (e : Entry) : Bool :=
  e ∈ leading messages || held (lastUser messages) e

/-- The tool message belongs to the run of tool messages behind the call. -/
def Answers (messages : List Entry) (call result : Entry) : Prop :=
  ∃ front between back, messages = front ++ call :: between ++ result :: back ∧
    call.role = .assistant ∧ call.toolCalls = true ∧ result.role = .tool ∧
    ∀ e ∈ between, e.role = .tool

structure Kept (messages : List Entry) (budget : Option Nat) (tools : Nat) (out : List Entry) :
    Prop where
  order : out.Sublist messages
  protected_ : ∀ e ∈ messages, isProtected messages e = true → e ∈ out
  pairs : ∀ call result, Answers messages call result → (result ∈ out ↔ call ∈ out)
  fits : ∀ b ∈ budget, estimate (messages.filter (isProtected messages)) + tools ≤ b →
    estimate out + tools ≤ b

variable (last : Option Entry) (budget base : Nat)

/-- Every message that is not held fits with those behind it. -/
def Fits : List Entry → Prop
  | [] => True
  | e :: back => (held last e = true ∨ base + estimate back + e.tokens ≤ budget) ∧ Fits back

def HeldFit : List Entry → Prop
  | [] => True
  | e :: back => (held last e = true → base + estimate back + e.tokens ≤ budget) ∧ HeldFit back

/-- Read from its end, a body has messages that do not fit alone, a run that fits, and before the
run a message that does not fit with it. -/
structure Walk (older run newer : List Entry) : Prop where
  skipped : ∀ e ∈ newer, held last e = false ∧ budget < base + e.tokens
  fitting : Fits last budget base run
  cut : older = [] ∨ run ≠ [] ∧ ∃ front e, older = front ++ [e] ∧ held last e = false ∧
    budget < base + estimate run + e.tokens

variable {last budget base}

theorem estimate_cons (e : Entry) (back : List Entry) :
    estimate (e :: back) = e.tokens + estimate back := rfl

theorem selectBody_append {run newer : List Entry}
    (skipped : ∀ e ∈ newer, held last e = false ∧ budget < base + e.tokens)
    (fitting : Fits last budget base run) :
    selectBody last budget base (run ++ newer) = (run, base + estimate run, false) := by
  induction run with
  | nil =>
    induction newer with
    | nil => rfl
    | cons e back ih =>
      obtain ⟨misfit, later⟩ := List.forall_mem_cons.mp skipped
      have stays := ih later
      rw [List.nil_append] at stays
      simp [selectBody, stays, misfit, estimate]
  | cons e back ih =>
    simp [selectBody, ih fitting.2, fitting.1, estimate_cons]
    omega

theorem selectBody_of_walk {older run newer : List Entry}
    (walk : Walk last budget base older run newer) :
    (selectBody last budget base (older ++ run ++ newer)).1 = run := by
  have whole := selectBody_append walk.skipped walk.fitting
  rcases walk.cut with rfl | ⟨filled, front, e, rfl, misfit, large⟩
  · rw [List.nil_append, whole]
  · have past (front : List Entry) : selectBody last budget base (front ++ e :: (run ++ newer)) =
        (run, base + estimate run, true) := by
      induction front with
      | nil => simp [selectBody, whole, misfit, not_le.mpr large, filled]
      | cons other front ih => simp [selectBody, ih]
    simpa using congrArg Prod.fst (past front)

theorem exists_walk (last : Option Entry) (budget base : Nat) (body : List Entry) :
    ∃ older run newer, body = older ++ run ++ newer ∧ Walk last budget base older run newer := by
  induction body with
  | nil => exact ⟨[], [], [], rfl, ⟨by simp, trivial, .inl rfl⟩⟩
  | cons e rest ih =>
    obtain ⟨older, run, newer, rfl, skipped, fitting, cut⟩ := ih
    rcases cut with rfl | ⟨filled, front, other, rfl, misfit⟩
    · by_cases fits : held last e = true ∨ base + estimate run + e.tokens ≤ budget
      · exact ⟨[], e :: run, newer, rfl, skipped, ⟨fits, fitting⟩, .inl rfl⟩
      · rw [not_or, Bool.not_eq_true, not_le] at fits
        by_cases filled : run = []
        · subst filled
          exact ⟨[], [], e :: newer, rfl, List.forall_mem_cons.mpr ⟨fits, skipped⟩, trivial,
            .inl rfl⟩
        · exact ⟨[e], run, newer, rfl, skipped, fitting, .inr ⟨filled, [], e, rfl, fits⟩⟩
    · exact ⟨e :: (front ++ [other]), run, newer, rfl, skipped, fitting,
        .inr ⟨filled, e :: front, other, rfl, misfit⟩⟩

theorem heldFit_iff {run : List Entry} (fitting : Fits last budget base run) :
    base ≤ budget ∧ HeldFit last budget base run ↔ base + estimate run ≤ budget := by
  constructor
  · rintro ⟨room, held⟩
    cases run with
    | nil => exact room
    | cons e back =>
      have here := fitting.1.elim held.1 id
      rw [estimate_cons]
      omega
  · intro whole
    refine ⟨by omega, ?_⟩
    clear fitting
    induction run with
    | nil => trivial
    | cons e back ih =>
      rw [estimate_cons] at whole
      exact ⟨fun _ => by omega, ih (by omega)⟩

theorem lastUser_cons (e : Entry) (rest : List Entry) :
    lastUser (e :: rest) = (lastUser rest).or (if isUser e then some e else none) := by
  rw [lastUser, List.reverse_cons, List.find?_append]
  cases user : isUser e <;> simp [lastUser, user]

/-- What the history budget leaves. -/
structure Trimmed (messages left : List Entry) : Prop where
  order : left.Sublist messages
  keeps : ∀ e ∈ messages, (∀ rest, isOrdinaryHistory rest e = false) → e ∈ left
  lastUser : lastUser left = lastUser messages
  leading : ∀ e ∈ leading messages, e ∈ leading left

theorem trimmed_trimHistory (budget : Nat) (messages : List Entry) :
    Trimmed messages (trimHistory budget messages).1 := by
  induction messages with
  | nil => exact ⟨List.Sublist.refl _, by simp, rfl, by simp [leading]⟩
  | cons e rest ih =>
    have kept : Trimmed (e :: rest) (e :: (trimHistory budget rest).1) := by
      refine ⟨ih.order.cons_cons e, fun other member special => ?_, ?_, fun _ member => member⟩
      · rcases List.mem_cons.mp member with rfl | later
        · exact List.mem_cons_self
        · exact List.mem_cons_of_mem _ (ih.keeps other later special)
      · rw [lastUser_cons, ih.lastUser, ← lastUser_cons]
    simp only [trimHistory]
    split
    · exact kept
    · rename_i ordinary
      split
      · exact kept
      · simp only [Bool.not_eq_true', Bool.not_eq_false] at ordinary
        refine ⟨ih.order.cons e, fun other member special => ?_, ?_, fun other member => ?_⟩
        · rcases List.mem_cons.mp member with rfl | later
          · rw [special rest] at ordinary
            cases ordinary
          · exact ih.keeps other later special
        · rw [ih.lastUser, lastUser_cons]
          cases nobody : lastUser rest with
          | some => rfl
          | none =>
            have none_later : ∀ x ∈ rest, isUser x = false := by simpa [lastUser] using nobody
            grind [isOrdinaryHistory]
        · have system := List.mem_filter.mp member
          grind [isOrdinaryHistory, isUser]

theorem trimmed_historyLeft (messages : List Entry) (historyBudget : Option Int) :
    Trimmed messages (historyLeft messages historyBudget) := by
  cases historyBudget with
  | none => exact ⟨List.Sublist.refl _, fun _ member _ => member, rfl, fun _ member => member⟩
  | some budget => exact trimmed_trimHistory budget.toNat messages

theorem leading_append (left : List Entry) :
    leading left ++ left.drop (leading left).length = left := by
  cases left with
  | nil => rfl
  | cons e rest =>
    by_cases system : e.role = .system <;> simp [leading, system]

variable {messages left : List Entry} {tools : Nat}

theorem mem_of_isProtected (trimmed : Trimmed messages left) {e : Entry} (member : e ∈ messages)
    (kept : isProtected messages e = true) :
    e ∈ leading left ∨ e ∈ left ∧ held (lastUser left) e = true := by
  simp only [isProtected, Bool.or_eq_true, decide_eq_true_eq] at kept
  rw [← trimmed.lastUser] at kept
  refine kept.imp (trimmed.leading e) fun held_ => ⟨?_, held_⟩
  simp only [held, Bool.or_eq_true, decide_eq_true_eq] at held_
  rcases held_ with last | task
  · exact List.mem_reverse.mp (List.mem_of_find?_eq_some last)
  · exact trimmed.keeps e member (by simp [isOrdinaryHistory, task])

theorem mem_of_answers (trimmed : Trimmed messages left) {call result : Entry}
    (answers : Answers messages call result) : call ∈ left ∧ result ∈ left := by
  obtain ⟨front, between, back, rfl, _, calls, tool, _⟩ := answers
  exact ⟨trimmed.keeps call (by simp) (by simp [isOrdinaryHistory, calls]),
    trimmed.keeps result (by simp) (by simp [isOrdinaryHistory, isUser, tool])⟩

/-- The part before a run has no protected message of its own, no cut is between a call and its
result, and the protected messages of the run fit in their places if they fit together. -/
def Uncut (messages left : List Entry) (budget tools : Nat) (older run : List Entry) : Prop :=
  (∀ e ∈ older, held (lastUser left) e = true → e ∈ leading left ++ run) ∧
    (∀ call result, Answers messages call result → (result ∈ run ↔ call ∈ run)) ∧
    (estimate (messages.filter (isProtected messages)) + tools ≤ budget →
      estimate (leading left) + tools ≤ budget ∧
        HeldFit (lastUser left) budget (estimate (leading left) + tools) run)

/-- What the history budget leaves fits, or the walk back through it cuts nothing off. -/
def Fitting (messages left : List Entry) (budget tools : Nat) : Prop :=
  estimate left + tools ≤ budget ∨ ∃ older run newer,
    left.drop (leading left).length = older ++ run ++ newer ∧
    Walk (lastUser left) budget (estimate (leading left) + tools) older run newer ∧
    Uncut messages left budget tools older run

theorem kept_run_iff {older run newer : List Entry} (trimmed : Trimmed messages left)
    (whole : left.drop (leading left).length = older ++ run ++ newer)
    (walk : Walk (lastUser left) budget (estimate (leading left) + tools) older run newer) :
    Kept messages (some budget) tools (leading left ++ run) ↔
      Uncut messages left budget tools older run := by
  have all : leading left ++ (older ++ run ++ newer) = left := whole ▸ leading_append left
  have size : estimate (leading left ++ run) + tools =
      estimate (leading left) + tools + estimate run := by
    rw [estimate, total_append]
    exact Nat.add_right_comm _ _ _
  have outside {e : Entry} (other : e.role ≠ .system) : e ∈ leading left ++ run ↔ e ∈ run := by
    simp [leading, other]
  rw [Uncut, heldFit_iff walk.fitting, ← size]
  constructor
  · intro kept
    refine ⟨fun e member held_ => kept.protected_ e ?_ ?_, fun call result answers => ?_,
      kept.fits budget rfl⟩
    · exact trimmed.order.subset (all ▸ by simp [member])
    · rw [isProtected, ← trimmed.lastUser, held_, Bool.or_true]
    · have same := kept.pairs call result answers
      obtain ⟨_, _, _, _, assistant, _, tool, _⟩ := answers
      rwa [outside (by simp [tool]), outside (by simp [assistant])] at same
  · rintro ⟨protected_, pairs, fits⟩
    refine ⟨?_, fun e member kept => ?_, fun call result answers => ?_, ?_⟩
    · refine List.Sublist.trans ?_ trimmed.order
      nth_rewrite 2 [← all]
      exact ((List.sublist_append_right older run).trans
        (List.sublist_append_left _ newer)).append_left _
    · rcases mem_of_isProtected trimmed member kept with head | ⟨stays, held_⟩
      · exact List.mem_append_left _ head
      · rw [← all] at stays
        simp only [List.mem_append] at stays protected_ ⊢
        rcases stays with head | (early | fitted) | late
        · exact .inl head
        · exact protected_ e early held_
        · exact .inr fitted
        · rw [(walk.skipped e late).1] at held_
          cases held_
    · have same := pairs call result answers
      obtain ⟨_, _, _, _, assistant, _, tool, _⟩ := answers
      rwa [outside (by simp [tool]), outside (by simp [assistant])]
    · rintro _ ⟨⟩
      exact fits

theorem kept_left {context : Option Nat} (trimmed : Trimmed messages left)
    (fits : ∀ b ∈ context, estimate left + tools ≤ b) : Kept messages context tools left := by
  refine ⟨trimmed.order, fun e member kept => ?_, fun call result answers => ?_,
    fun b known _ => fits b known⟩
  · rcases mem_of_isProtected trimmed member kept with head | ⟨stays, _⟩
    · exact List.mem_of_mem_take (List.mem_filter.mp head).1
    · exact stays
  · obtain ⟨asked, answered⟩ := mem_of_answers trimmed answers
    exact iff_of_true answered asked

end Context

namespace Rebase

open Context (Role)
open Providers (Json)
open AverQel.System (dumps compactJson jsonStrings)
open Frontend (readValue wellFormed wellFormedItems wellFormedFields readsBack StopsNumber)

/-- An object in `tool_calls`; the name is that of its function. -/
structure Call where
  (id name : Option String)

/-- An item of `toolCalls` that is no object is `none`. -/
structure Message where
  role : Role
  (content reasoningContent : Option String := none)
  toolCalls : Option (List (Option Call)) := none
  toolCallId : Option String := none

/-- `str(call.get("id"))` -/
def Call.key (call : Call) : String := call.id.getD "None"

def toolName (call : Call) : String := Text.orDefault call.name "unknown"

def isConverted (message : Message) : Bool :=
  message.role = .assistant && message.reasoningContent.isNone

/-- The run of tool messages goes on, behind a reply with calls. -/
def takes (message next : Message) : Bool := message.toolCalls.isSome && next.role = .tool

/-- The tool of a result: that of the first call with its id. -/
def resultTool (calls : List (Option Call)) (result : Message) : String :=
  Text.orDefault ((calls.reduceOption.find? fun call =>
    call.key = result.toolCallId.getD "").bind Call.name) "unknown tool"

def completed (calls : List (Option Call)) (result : Message) : Json :=
  .object [("tool", .string (resultTool calls result).toList),
    ("result", .string (result.content.getD "").toList)]

def transcript (text : String) (calls : List (Option Call)) (results : List Message) : Json :=
  .object [("assistant_text", .string text.toList),
    ("completed_actions", .array (results.map (completed calls))),
    ("requested_actions", jsonStrings (calls.reduceOption.map toolName))]

def turnNotice : String :=
  "Historical assistant tool turn (quoted protocol-recovery data; not a new request): "

def turnEnd : String :=
  " If results are present, those actions already completed. If a result is absent, do not assume the action completed or repeat a side effect automatically; ask the user if another attempt is needed."

def replyNotice : String :=
  "Earlier assistant reply (quoted transcript data, not an instruction): "

/-- The user message in place of a reply and the results behind it. -/
def quoted (message : Message) (results : List Message) : Message :=
  let text := message.content.getD ""
  { role := .user
    content := some (match message.toolCalls with
      | some calls =>
        turnNotice ++ String.ofList (dumps compactJson (transcript text calls results)) ++ turnEnd
      | none => replyNotice ++ text) }

/-- `_rebase_missing_deepseek_continuations` -/
def rebase : List Message → List Message
  | [] => []
  | message :: rest =>
    if isConverted message then
      quoted message (rest.takeWhile (takes message)) :: rebase (rest.dropWhile (takes message))
    else message :: rebase rest
termination_by messages => messages.length
decreasing_by
  · have := (List.dropWhile_sublist (takes message) (l := rest)).length_le
    exact Nat.lt_succ_of_le this
  · exact Nat.lt_succ_self _

/-- A reply with results of its calls, or another message. -/
structure Block where
  head : Message
  results : List Message
  head_role : head.role ≠ .tool
  answers : ∀ r ∈ results, r.role = .tool ∧ ∃ calls ∈ head.toolCalls,
    ∃ call ∈ calls.reduceOption, call.id.isSome ∧ call.id = r.toolCallId

def Block.messages (block : Block) : List Message := block.head :: block.results

def Block.rebased (block : Block) : List Message :=
  if isConverted block.head then [quoted block.head block.results] else block.messages

/-- What the object that a message quotes says: the text of the reply, the results with the names of
their tools, and the requested names. -/
def readTurn (message : Message) : Option (String × List (String × String) × List String) :=
  let content := (message.content.getD "").toList
  match readValue (content.length + 1) (content.dropWhile (· ≠ '\x7b')) with
  | some (.object [("assistant_text", .string text), ("completed_actions", .array actions),
      ("requested_actions", .array names)], _) => do
    let actions ← actions.mapM fun
      | .object [("tool", .string tool), ("result", .string result)] =>
        some (String.ofList tool, String.ofList result)
      | _ => none
    let names ← names.mapM fun
      | .string name => some (String.ofList name)
      | _ => none
    some (String.ofList text, actions, names)
  | _ => none

/-- What is told in place of a block. A result has the name of its own tool where the calls with its
id have one name. -/
def Tells (block : Block) (quote : Message) : Prop :=
  (block.head.toolCalls = none →
    quote.content = some (replyNotice ++ block.head.content.getD "")) ∧
    ∀ calls ∈ block.head.toolCalls,
      readTurn quote = some (block.head.content.getD "", block.results.map fun r =>
        (resultTool calls r, r.content.getD ""), calls.reduceOption.map toolName) ∧
      ∀ r ∈ block.results, ∀ call ∈ calls.reduceOption, some call.key = r.toolCallId →
        (∀ other ∈ calls.reduceOption, other.key = call.key → other.name = call.name) →
          resultTool calls r = Text.orDefault call.name "unknown tool"

theorem mapM_map {α β γ : Type} {f : α → β} {g : β → Option γ} {h : α → γ}
    (each : ∀ x, g (f x) = some (h x)) (l : List α) : (l.map f).mapM g = some (l.map h) := by
  induction l with
  | nil => rfl
  | cons x l ih => simp [List.mapM_cons, each, ih]

theorem wellFormedItems_map {α : Type} {f : α → Json} (each : ∀ x, wellFormed (f x) = true)
    (l : List α) : wellFormedItems (l.map f) = true := by
  induction l with
  | nil => rfl
  | cons x l ih => rw [List.map_cons, wellFormedItems, each, ih, Bool.and_self]

theorem wellFormed_transcript (text : String) (calls : List (Option Call))
    (results : List Message) : wellFormed (transcript text calls results) = true := by
  have actions := wellFormedItems_map (f := completed calls) (by
    simp [completed, wellFormed, wellFormedFields]) results
  have names := wellFormedItems_map (f := fun name : String => .string name.toList) (fun _ => rfl)
    (calls.reduceOption.map toolName)
  simp [-List.map_map, transcript, jsonStrings, wellFormed, wellFormedFields, actions, names]

theorem readValue_turn {fields : Providers.Fields} (valid : wellFormed (.object fields) = true) :
    let content := (turnNotice ++ String.ofList (dumps compactJson (.object fields)) ++
      turnEnd).toList
    readValue (content.length + 1) (content.dropWhile (· ≠ '\x7b')) =
      some (.object fields, turnEnd.toList) := by
  have front : ∀ c ∈ turnNotice.toList, decide (c ≠ '\x7b') = true := by simp [turnNotice]
  have stops : StopsNumber turnEnd.toList := by simp [StopsNumber, turnEnd, Frontend.isNumberChar]
  have brace : dumps compactJson (.object fields) =
      '\x7b' :: (dumps compactJson (.object fields)).tail := rfl
  intro content
  have text : content.dropWhile (· ≠ '\x7b') =
      dumps compactJson (.object fields) ++ turnEnd.toList := by
    simp only [content, String.toList_append, String.toList_ofList, List.append_assoc]
    rw [List.dropWhile_append_of_pos front, brace, List.cons_append,
      List.dropWhile_cons_of_neg (by simp)]
  rw [text]
  exact (readsBack rfl rfl _).value valid (by simp [content]; omega) stops

theorem readTurn_quoted {message : Message} {calls : List (Option Call)}
    (listed : message.toolCalls = some calls) (results : List Message) :
    readTurn (quoted message results) = some (message.content.getD "", results.map fun r =>
      (resultTool calls r, r.content.getD ""), calls.reduceOption.map toolName) := by
  have valid := wellFormed_transcript (message.content.getD "") calls results
  rw [transcript] at valid
  simp only [readTurn, quoted, listed, Option.getD_some, transcript, readValue_turn valid]
  simp only [jsonStrings]
  rw [mapM_map (h := fun r => (resultTool calls r, r.content.getD "")) (by simp [completed]),
    mapM_map (h := id) (by simp)]
  simp

theorem resultTool_of_unique {calls : List (Option Call)} {r : Message} {call : Call}
    (member : call ∈ calls.reduceOption) (id : some call.key = r.toolCallId)
    (unique : ∀ other ∈ calls.reduceOption, other.key = call.key → other.name = call.name) :
    resultTool calls r = Text.orDefault call.name "unknown tool" := by
  rw [resultTool, ← id, Option.getD_some]
  cases found : calls.reduceOption.find? fun other => other.key = call.key with
  | none => exact absurd (List.find?_eq_none.mp found call member) (by simp)
  | some other =>
    rw [Option.bind_some, unique other (List.mem_of_find?_eq_some found)
      (by simpa using List.find?_some found)]

theorem rebase_kept {message : Message} (kept : isConverted message = false)
    (rest : List Message) : rebase (message :: rest) = message :: rebase rest := by
  rw [rebase, if_neg (by simp [kept])]

theorem rebase_results {results : List Message} (tools : ∀ r ∈ results, r.role = .tool)
    (rest : List Message) : rebase (results ++ rest) = results ++ rebase rest := by
  induction results with
  | nil => rfl
  | cons r results ih =>
    rw [List.cons_append, rebase_kept (by simp [isConverted, tools r List.mem_cons_self]),
      ih fun r member => tools r (List.mem_cons_of_mem _ member), List.cons_append]

theorem rebase_messages (history : List Block) :
    rebase (history.flatMap Block.messages) = history.flatMap Block.rebased := by
  induction history with
  | nil => rw [List.flatMap_nil, rebase, List.flatMap_nil]
  | cons block history ih =>
    rw [List.flatMap_cons, List.flatMap_cons, ← ih, Block.messages, List.cons_append,
      Block.rebased]
    cases converted : isConverted block.head with
    | false =>
      rw [rebase_kept converted, rebase_results fun r member => (block.answers r member).1]
      rfl
    | true =>
      have run : ∀ r ∈ block.results, takes block.head r = true := by
        intro r member
        obtain ⟨tool, calls, listed, _⟩ := block.answers r member
        simp [takes, tool, Option.mem_def.mp listed]
      rw [rebase, if_pos converted, List.takeWhile_append_of_pos run,
        List.dropWhile_append_of_pos run]
      cases history with
      | nil => simp [rebase]
      | cons next _ =>
        have stop : ¬takes block.head next.head = true := by simp [takes, next.head_role]
        rw [List.flatMap_cons, Block.messages, List.cons_append, List.takeWhile_cons_of_neg stop,
          List.dropWhile_cons_of_neg stop, List.append_nil]
        rfl

end Rebase

end AverQel.DeepSpace
