/- digest: When every provider request answers each call once, with the result of that call. -/
import AverQel.DeepSpace.ToolExchange

namespace AverQel.DeepSpace

open Foundation Obligations
open Foundation.Transition

universe u

/-- The executions of calls, numbered from `n` on. -/
def ownResults (n : Nat) (calls : List ValidCall) : List (String × Nat) :=
  (calls.zipIdx n).map (fun entry => (entry.1.callId, entry.2))

def asExecution (entry : String × Nat) : String × Source := (entry.1, .execution entry.2)

def asText (entry : String × String) : String × Source := (entry.1, .text entry.2)

def refusalMessage (entry : String × String) : ChatMessage := .tool entry.1 (.text entry.2)

theorem asExecution_injective : Function.Injective asExecution := by
  rintro ⟨id, number⟩ ⟨id', number'⟩ same
  cases same
  rfl

variable {judge : CallBook → Int → ToolCall → CallBook × Verdict} {executed : Nat}

/-- What the loop adds while it passes calls: a tool message for each call that it does not
accept, and an outcome for all of them. -/
def Passed (executed : Nat) (v v' : Validation) (ids : List String) : Prop :=
  ∃ (answers : List (String × String)) (calls : List ValidCall)
      (sources : List (String × Source)),
    v'.messages = v.messages ++ answers.map refusalMessage ∧
    v'.validCalls = v.validCalls ++ calls ∧
    v'.sources = v.sources ++ sources ∧
    sources.map Prod.fst = ids ∧
    sources.Perm (answers.map asText ++
      (ownResults (executed + v.validCalls.length) calls).map asExecution)

theorem Passed.refl (v : Validation) : Passed executed v v [] :=
  ⟨[], [], [], by simp [ownResults]⟩

theorem Passed.trans {v v' v'' : Validation} {ids ids' : List String}
    (first : Passed executed v v' ids) (second : Passed executed v' v'' ids') :
    Passed executed v v'' (ids ++ ids') := by
  obtain ⟨answers, calls, sources, messages, valid, outcomes, named, agree⟩ := first
  obtain ⟨answers', calls', sources', messages', valid', outcomes', named', agree'⟩ := second
  refine ⟨answers ++ answers', calls ++ calls', sources ++ sources', ?_, ?_, ?_, ?_, ?_⟩
  · rw [messages', messages, List.append_assoc, List.map_append]
  · rw [valid', valid, List.append_assoc]
  · rw [outcomes', outcomes, List.append_assoc]
  · rw [List.map_append, named, named']
  · rw [valid, List.length_append, ← Nat.add_assoc] at agree'
    have numbered : ownResults (executed + v.validCalls.length) (calls ++ calls') =
        ownResults (executed + v.validCalls.length) calls ++
          ownResults (executed + v.validCalls.length + calls.length) calls' := by
      simp [ownResults, List.zipIdx_append]
    rw [numbered, List.map_append, List.map_append]
    refine (agree.append agree').trans ?_
    rw [List.append_assoc, List.append_assoc]
    refine List.Perm.append_left _ ?_
    rw [← List.append_assoc, ← List.append_assoc]
    exact List.perm_append_comm.append_right _

theorem passed_answer (v : Validation) (id output : String) :
    Passed executed v (v.answer id output) [id] :=
  ⟨[(id, output)], [], [(id, .text output)],
    by simp [Validation.answer, refusalMessage, asText, ownResults]⟩

theorem passed_note {v : Validation} {call : ToolCall} {judged : CallBook × Verdict}
    (through : (v.note executed call judged).halt = none) :
    Passed executed v (v.note executed call judged) [call.id] := by
  obtain ⟨book, verdict⟩ := judged
  cases verdict with
  | answered output | invalid output => exact passed_answer v call.id output
  | duplicate | awaitsApproval => cases through
  | accepted toolName arguments =>
    exact ⟨[], [⟨call, call.id, toolName, arguments⟩],
      [(call.id, .execution (executed + v.validCalls.length))],
      by simp [Validation.note, ownResults, asExecution]⟩

theorem passed_examine {v : Validation} {items : CallItems}
    (through : (Validation.examine judge executed v items).halt = none) :
    Passed executed v (Validation.examine judge executed v items)
      (items.map (fun item => item.2.id)) := by
  induction items generalizing v with
  | nil => exact Passed.refl v
  | cons item rest ih =>
    obtain ⟨callIndex, call⟩ := item
    simp only [Validation.examine] at through ⊢
    generalize judge v.book callIndex call = judged at through ⊢
    cases stops : (v.note executed call judged).halt with
    | some => simp [stops] at through
    | none =>
      simp only [stops, Option.isSome_none, Bool.false_eq_true, if_false] at through ⊢
      exact (passed_note stops).trans (ih through)

theorem cutInvalidCalls_exchange (prior : List ChatMessage) {calls : List ToolCall}
    (content reasoning : Option String) (answers : List (String × String)) (ids : List String)
    (some_call : calls ≠ []) :
    cutInvalidCalls (prior ++ [.toolCalls calls content reasoning] ++ answers.map refusalMessage)
        prior.length ids =
      prior ++
        ((if calls.filter (fun call => call.id ∉ ids) = [] then []
          else [.toolCalls (calls.filter (fun call => call.id ∉ ids)) content reasoning]) ++
        (answers.filter (fun entry => entry.1 ∉ ids)).map refusalMessage) := by
  by_cases none : ids = []
  · subst none
    simp [cutInvalidCalls, some_call]
  · have kept : (answers.map refusalMessage).filter (fun message => !message.answersTo ids) =
        (answers.filter (fun entry => entry.1 ∉ ids)).map refusalMessage := by
      rw [List.filter_map]
      refine congrArg (List.map refusalMessage) (List.filter_congr ?_)
      intro entry _
      simp [refusalMessage, ChatMessage.answersTo]
    have dropped : (prior ++ [ChatMessage.toolCalls calls content reasoning] ++
        answers.map refusalMessage).drop prior.length =
          .toolCalls calls content reasoning :: answers.map refusalMessage := by
      rw [List.append_assoc, List.drop_left]
      rfl
    have taken : (prior ++ [ChatMessage.toolCalls calls content reasoning] ++
        answers.map refusalMessage).take prior.length = prior := by
      rw [List.append_assoc, List.take_left]
    simp only [cutInvalidCalls, if_neg none, dropped, taken]
    rw [kept, List.append_assoc]

theorem planBatches_calls (isRead : ValidCall → Bool) (pending calls : List ValidCall) :
    (planBatches isRead pending calls).flatMap ExecutionBatch.calls = pending ++ calls := by
  induction calls generalizing pending with
  | nil =>
    by_cases none : pending = []
    · simp [planBatches, none]
    · simp [planBatches, none]
  | cons call calls ih =>
    cases reads : isRead call with
    | true => simp [planBatches, reads, ih]
    | false =>
      by_cases none : pending = []
      · simp [planBatches, reads, none, ih]
      · simp [planBatches, reads, none, ih]

theorem executeBatches_eq (executed : Nat) (isRead : ValidCall → Bool) (calls : List ValidCall) :
    executeBatches executed (planExecutionBatches isRead calls) =
      (ownResults executed calls).reverse := by
  have order : (planExecutionBatches isRead calls).flatMap ExecutionBatch.calls = calls := by
    rw [planExecutionBatches, planBatches_calls, List.nil_append]
  rw [executeBatches, order, ownResults, ← List.map_reverse]
  have stacked : ∀ (entries : List (ValidCall × Nat)) (results : ResultsByCallId),
      entries.foldl (fun results entry => (entry.1.callId, entry.2) :: results) results =
        (entries.map (fun entry => (entry.1.callId, entry.2))).reverse ++ results := by
    intro entries
    induction entries with
    | nil => exact fun _ => rfl
    | cons entry entries ih => simp [ih]
  rw [stacked, List.append_nil, List.map_reverse]

theorem reportResults_effects {ρ : Type u} (report : ValidCall → ρ → Nat → Report)
    (execute : Nat → ρ) (chars : Nat) (results : List (ValidCall × Nat)) :
    (reportResults report execute chars results).1.map ChatMessage.effect =
      (results.map (fun entry => asExecution (entry.1.callId, entry.2))).map
        (fun entry => .settles entry.1 entry.2) := by
  induction results generalizing chars with
  | nil => rfl
  | cons entry rest ih =>
    simp only [reportResults, List.map_cons, ih]
    rfl

theorem ownResults_ids (n : Nat) (calls : List ValidCall) :
    (ownResults n calls).map Prod.fst = calls.map ValidCall.callId := by
  rw [ownResults, List.map_map]
  show (calls.zipIdx n).map (ValidCall.callId ∘ Prod.fst) = _
  rw [← List.map_map, List.zipIdx_map_fst]

theorem ownResults_numbers_nodup (n : Nat) (calls : List ValidCall) :
    ((ownResults n calls).map Prod.snd).Nodup := by
  rw [ownResults, List.map_map]
  show ((calls.zipIdx n).map Prod.snd).Nodup
  rw [List.zipIdx_map_snd]
  exact List.nodup_range'

theorem lookedUp_eq (n : Nat) (calls : List ValidCall) :
    (calls.filterMap (fun call =>
        ((ownResults n calls).reverse.lookup call.callId).map (call, ·))).map
        (fun entry => (entry.1.callId, entry.2)) =
      collected (ownResults n calls) := by
  have byId : ∀ (results : ResultsByCallId) (entries : List (String × Nat)),
      entries.map Prod.fst = calls.map ValidCall.callId →
      (calls.filterMap (fun call => (results.lookup call.callId).map (call, ·))).map
          (fun entry => (entry.1.callId, entry.2)) =
        entries.filterMap (fun entry => (results.lookup entry.1).map (entry.1, ·)) := by
    intro results entries same
    have left : entries.filterMap (fun entry => (results.lookup entry.1).map (entry.1, ·)) =
        (entries.map Prod.fst).filterMap (fun id => (results.lookup id).map (id, ·)) := by
      rw [List.filterMap_map]
      rfl
    rw [left, same, List.filterMap_map, List.map_filterMap]
    refine List.filterMap_congr ?_
    intro call _
    rw [Option.map_map]
    rfl
  exact byId _ _ (ownResults_ids n calls)

namespace Turn

variable {ρ : Type u}

def Answered (turn : Turn) : Prop := Settled ChatMessage.effect turn.record turn.messages

def ValidRequest (turn : Turn) : Prop := turn.requestsAgain = true → turn.Answered

def KeepsIdsApart (turn : Turn) (round : ModelRound ρ) : Prop :=
  (turn.step round).requestsAgain = true →
    ((turn.validation round).validCalls.map ValidCall.callId).Nodup ∧
      ∀ id ∈ (turn.validation round).validCalls.map ValidCall.callId,
        id ∉ (turn.validation round).invalidToolCallIds

instance (turn : Turn) (round : ModelRound ρ) : Decidable (turn.KeepsIdsApart round) :=
  inferInstanceAs (Decidable (_ → _ ∧ _))

theorem settled_setDynamicSystemInstruction {record : List (List (String × Source))}
    {messages : List ChatMessage} (key content : String)
    (settled : Settled ChatMessage.effect record messages) :
    Settled ChatMessage.effect record
      (ChatMessage.setDynamicSystemInstruction messages key content) := by
  have kept : Settled ChatMessage.effect record
      (messages.filter (fun message => message.dynamicKey ≠ some key)) := by
    refine settled.filter _ ?_
    intro message dropped
    cases message with
    | plain => rfl
    | toolCalls | tool => simp [ChatMessage.dynamicKey] at dropped
  have instruction : Settled ChatMessage.effect [] [.plain .system (some key) content] :=
    Settled.neutral (ChatMessage.effect_plain _ _ _) Settled.nil
  have appended := kept.append_iff.mpr instruction
  rwa [List.append_nil] at appended

theorem answered_afterProse {turn : Turn} (answered : turn.Answered) (prose : ProseOutcome) :
    (turn.afterProse prose).Answered := by
  cases prose with
  | again => exact answered
  | instruct key content => exact settled_setDynamicSystemInstruction key content answered
  | done => exact answered

variable {turn : Turn} {round : ModelRound ρ}

theorem passed_validation (through : (turn.validation round).halt = none) :
    ∃ answers : List (String × String),
      (turn.validation round).messages = turn.messages ++
        [assistantToolCallMessage round.provider
          ((normalizedCallItems round.deltas).map Prod.snd)] ++ answers.map refusalMessage ∧
      (turn.validation round).sources.map Prod.fst =
        ((normalizedCallItems round.deltas).map Prod.snd).map ToolCall.id ∧
      (turn.validation round).sources.Perm (answers.map asText ++
        (ownResults turn.executed (turn.validation round).validCalls).map asExecution) := by
  obtain ⟨answers, calls, sources, messages, valid, outcomes, named, agree⟩ :=
    passed_examine through
  have own : (turn.validation round).validCalls = calls := valid
  have outcome : (turn.validation round).sources = sources := outcomes
  refine ⟨answers, messages, ?_, ?_⟩
  · rw [outcome, named, List.map_map]
    rfl
  · rw [outcome, own]
    exact agree

theorem settled_exchanged_iff (answered : turn.Answered)
    (some_call : normalizedCallItems round.deltas ≠ [])
    (through : (turn.validation round).halt = none) {extra : List ChatMessage}
    {paid : List (String × Source)}
    (pays : extra.map ChatMessage.effect = paid.map (fun entry => .settles entry.1 entry.2)) :
    Settled ChatMessage.effect (turn.exchanged (turn.validation round)).record
        ((turn.exchanged (turn.validation round)).messages ++ extra) ↔
      (((ownResults turn.executed (turn.validation round).validCalls).filter
        (fun entry => entry.1 ∉ (turn.validation round).invalidToolCallIds)).map
          asExecution).Perm paid := by
  obtain ⟨answers, messages, named, agree⟩ := passed_validation through
  have present : (normalizedCallItems round.deltas).map Prod.snd ≠ [] := by simpa using some_call
  generalize turn.validation round = v at messages named agree ⊢
  generalize (normalizedCallItems round.deltas).map Prod.snd = calls at messages named present
  let kept := answers.filter (fun entry => entry.1 ∉ v.invalidToolCallIds)
  let owed := v.sources.filter (fun entry => entry.1 ∉ v.invalidToolCallIds)
  let retained := calls.filter (fun call => call.id ∉ v.invalidToolCallIds)
  have names : owed.map Prod.fst = retained.map ToolCall.id := by
    have left : owed.map Prod.fst =
        (v.sources.map Prod.fst).filter (fun id => id ∉ v.invalidToolCallIds) := by
      rw [List.filter_map]
      rfl
    rw [left, named, List.filter_map]
    rfl
  have nothing : owed = [] ↔ retained = [] := by
    rw [← List.map_eq_nil_iff (f := Prod.fst), names, List.map_eq_nil_iff]
  have pays : (kept.map refusalMessage ++ extra).map ChatMessage.effect =
      (kept.map asText ++ paid).map (fun entry => .settles entry.1 entry.2) := by
    rw [List.map_append, List.map_append, pays, List.map_map, List.map_map]
    rfl
  have due : owed.Perm (kept.map asText ++
      ((ownResults turn.executed v.validCalls).filter
        (fun entry => entry.1 ∉ v.invalidToolCallIds)).map asExecution) := by
    have filtered := agree.filter (fun entry => entry.1 ∉ v.invalidToolCallIds)
    rw [List.filter_append, List.filter_map, List.filter_map] at filtered
    exact filtered
  have cut : (turn.exchanged v).messages ++ extra = turn.messages ++
      ((if retained = [] then [] else [assistantToolCallMessage round.provider retained]) ++
        (kept.map refusalMessage ++ extra)) := by
    show cutInvalidCalls v.messages turn.messages.length v.invalidToolCallIds ++ extra = _
    rw [messages, assistantToolCallMessage, cutInvalidCalls_exchange turn.messages _ _ answers
      v.invalidToolCallIds present, List.append_assoc, List.append_assoc]
    rfl
  have settled : Settled ChatMessage.effect (turn.exchanged v).record
        ((turn.exchanged v).messages ++ extra) ↔ owed.Perm (kept.map asText ++ paid) := by
    rw [cut]
    show Settled ChatMessage.effect
      (if owed = [] then turn.record else turn.record ++ [owed]) _ ↔ _
    by_cases empty : owed = []
    · rw [if_pos empty, if_pos (nothing.mp empty), List.nil_append,
        ← List.append_nil turn.record, answered.append_iff, settled_nil_iff pays, empty,
        List.nil_perm]
    · rw [if_neg empty, if_neg (mt nothing.mpr empty), answered.append_iff]
      exact settled_exchange_iff (by rw [names]; rfl) pays
  rw [settled]
  constructor
  · intro same
    exact (List.perm_append_left_iff _).mp (due.symm.trans same)
  · intro same
    exact due.trans ((List.perm_append_left_iff _).mpr same)

theorem answered_executeCalls_iff (answered : turn.Answered)
    (some_call : normalizedCallItems round.deltas ≠ [])
    (through : (turn.validation round).halt = none) :
    ((turn.exchanged (turn.validation round)).executeCalls round
        (turn.validation round).validCalls).Answered ↔
      ((turn.validation round).validCalls.map ValidCall.callId).Nodup ∧
        ∀ id ∈ (turn.validation round).validCalls.map ValidCall.callId,
          id ∉ (turn.validation round).invalidToolCallIds := by
  generalize lookups : (turn.validation round).validCalls.filterMap (fun call =>
    ((ownResults turn.executed (turn.validation round).validCalls).reverse.lookup
      call.callId).map (call, ·)) = results
  have kept : results.map (fun entry => asExecution (entry.1.callId, entry.2)) =
      (collected (ownResults turn.executed (turn.validation round).validCalls)).map
        asExecution := by
    rw [← lookedUp_eq, lookups, List.map_map]
    rfl
  have pays := reportResults_effects round.report round.execute
    (turn.validation round).book.mcpResultChars results
  rw [kept] at pays
  have settled := settled_exchanged_iff answered some_call through pays
  have executed : ((turn.exchanged (turn.validation round)).executeCalls round
      (turn.validation round).validCalls).messages =
        (turn.exchanged (turn.validation round)).messages ++
          (reportResults round.report round.execute
            (turn.validation round).book.mcpResultChars results).1 := by
    simp only [executeCalls, executeBatches_eq]
    rw [← lookups]
    rfl
  have unfolded : ((turn.exchanged (turn.validation round)).executeCalls round
        (turn.validation round).validCalls).Answered ↔
      ((ownResults turn.executed (turn.validation round).validCalls).filter (fun entry =>
        entry.1 ∉ (turn.validation round).invalidToolCallIds)).Perm
          (collected (ownResults turn.executed (turn.validation round).validCalls)) := by
    rw [← List.map_perm_map_iff asExecution_injective, ← settled, ← executed]
    rfl
  have ids := filter_perm_collected_iff
    (fun id => decide (id ∉ (turn.validation round).invalidToolCallIds))
    (ownResults_numbers_nodup turn.executed (turn.validation round).validCalls)
  rw [ownResults_ids] at ids
  rw [unfolded]
  simpa using ids

theorem answered_retryArguments (answered : turn.Answered)
    (some_call : normalizedCallItems round.deltas ≠ [])
    (through : (turn.validation round).halt = none)
    (nothing : (turn.validation round).validCalls = []) :
    (turn.exchanged (turn.validation round)).retryArguments.Answered := by
  have exchanged : (turn.exchanged (turn.validation round)).Answered := by
    have settled := @settled_exchanged_iff _ _ _ answered some_call through [] [] rfl
    rw [List.append_nil] at settled
    refine settled.mpr ?_
    rw [nothing]
    exact List.Perm.refl []
  unfold retryArguments
  split
  · exact settled_setDynamicSystemInstruction _ _ exchanged
  · exact exchanged

theorem not_requestsAgain_of_ended {turn : Turn} (ended : turn.ended = true) :
    turn.requestsAgain = false := by
  rw [requestsAgain, ended]
  rfl

theorem ended_toolRound {halt : Halt} (stops : (turn.validation round).halt = some halt) :
    (turn.toolRound round).ended = true := by
  have ended : (turn.exchanged (turn.validation round)).ended = true := by
    show (turn.validation round).halt.isSome = true
    rw [stops]
    rfl
  unfold toolRound
  dsimp only
  split
  · unfold retryArguments
    split
    · exact ended
    · rfl
  · show (_ || _) = true
    rw [ended, Bool.true_or]

theorem validRequest_toolRound_iff (answered : turn.Answered)
    (some_call : normalizedCallItems round.deltas ≠ []) :
    (turn.toolRound round).ValidRequest ↔
      ((turn.toolRound round).requestsAgain = true →
        ((turn.validation round).validCalls.map ValidCall.callId).Nodup ∧
          ∀ id ∈ (turn.validation round).validCalls.map ValidCall.callId,
            id ∉ (turn.validation round).invalidToolCallIds) := by
  cases through : (turn.validation round).halt with
  | some =>
    have silent := not_requestsAgain_of_ended (ended_toolRound through)
    rw [ValidRequest, silent]
    exact ⟨fun _ again => absurd again Bool.false_ne_true,
      fun _ again => absurd again Bool.false_ne_true⟩
  | none =>
    refine imp_congr_right fun _ => ?_
    by_cases retries : (turn.validation round).invalidToolCallIds ≠ [] ∧
        (turn.validation round).validCalls = [] ∧
          (turn.validation round).halt ≠ some .approval
    · have again : turn.toolRound round =
          (turn.exchanged (turn.validation round)).retryArguments := if_pos retries
      rw [again, retries.2.1]
      exact ⟨fun _ => ⟨List.nodup_nil, fun id listed => absurd listed List.not_mem_nil⟩,
        fun _ => answered_retryArguments answered some_call through retries.2.1⟩
    · have executes : turn.toolRound round =
          (turn.exchanged (turn.validation round)).executeCalls round
            (turn.validation round).validCalls := by
        rw [toolRound, if_neg retries, through]
        rfl
      rw [executes]
      exact answered_executeCalls_iff answered some_call through

theorem validRequest_step_iff (turn : Turn) (round : ModelRound ρ) (valid : turn.ValidRequest) :
    (turn.step round).ValidRequest ↔ turn.KeepsIdsApart round := by
  cases active : turn.requestsAgain with
  | false =>
    have same : turn.step round = turn := by simp [step, active]
    rw [ValidRequest, KeepsIdsApart, same, active]
    exact ⟨fun _ again => absurd again Bool.false_ne_true,
      fun _ again => absurd again Bool.false_ne_true⟩
  | true =>
    have answered : turn.nextRound.Answered := valid active
    by_cases some_call : normalizedCallItems round.deltas = []
    · have prose : turn.step round = turn.nextRound.afterProse round.prose := by
        rw [step, if_pos active, if_pos some_call]
      have none : (turn.validation round).validCalls = [] := by
        simp only [validation, some_call]
        rfl
      rw [ValidRequest, KeepsIdsApart, prose, none]
      exact ⟨fun _ _ => ⟨List.nodup_nil, fun id listed => absurd listed List.not_mem_nil⟩,
        fun _ _ => answered_afterProse answered round.prose⟩
    · have tools : turn.step round = turn.nextRound.toolRound round := by
        rw [step, if_pos active, if_neg some_call]
      rw [KeepsIdsApart, tools]
      exact validRequest_toolRound_iff answered some_call

theorem answered_start (opening : List Segment) : (start opening).Answered := by
  induction opening with
  | nil => exact Settled.nil
  | cons segment rest ih =>
    cases segment with
    | plain role key content =>
      exact Settled.neutral (ChatMessage.effect_plain role key content) ih
    | replayed =>
      refine Settled.exchange ?_ ?_ (List.Perm.refl _) ih
      · rw [ChatMessage.effect_toolCalls, List.map_map, List.map_map]
        rfl
      · rw [List.map_map, List.map_map]
        rfl

/-- Over all rounds of a turn: every provider request answers each call once, by its own outcome,
exactly when no round that a request follows gives one id to two of the calls that it executes, or
to one that it executes and one that it rejects. -/
theorem every_request_answered_iff (opening : List Segment) (rounds : List (ModelRound ρ)) :
    (∀ turn ∈ trace step (start opening) rounds, turn.ValidRequest) ↔
      Guarded KeepsIdsApart step (start opening) rounds :=
  forall_trace_iff_guarded (I := fun _ => True) (fun _ _ _ => trivial)
    (fun turn round _ valid => validRequest_step_iff turn round valid) trivial
    fun _ => answered_start opening

/-- A toolbox of one search tool. -/
def searchBox : Toolbox where
  parseToolArguments arguments := some [("query", .string arguments.toList)]
  str _ := ""
  truthy _ := false
  casefold text := text
  repr text := text
  dumps _ := ""
  signature toolName _ _ _ := toolName
  contains _ := true
  validate _ arguments := .ok arguments
  readMode _ := true
  nativeToolNames := ["web_search"]
  policyForTool _ := ⟨false, none, false⟩
  refreshServerBindings _ := none
  maxConcurrentTools := 8
  mcpMaxArgumentCharsPerCall := 20000
  mcpMaxCallsPerTurn := 8
  mcpMaxDiscoveryCallsPerTurn := 8
  mcpMaxResultCharsPerTurn := 60000

/-- Two searches of one reply, both under one id. -/
def twoSearches (id : String) : ModelRound String where
  deltas :=
    [[⟨some 0, some "search", some "web_search", some "lean", none⟩,
      ⟨some 1, some id, some "web_search", some "mathlib", none⟩]]
  prose := .done
  provider := ⟨false, false, ""⟩
  box := searchBox
  context := ⟨false, .final, none, false, true, [], ["web_search"]⟩
  execute execution := if execution = 0 then "about lean" else "about mathlib"
  report _ result chars := ⟨result, chars, false⟩

theorem shared_id_shares_result :
    ((start []).step (twoSearches "search")).messages =
      [.toolCalls [⟨"search", "web_search", "lean", none⟩,
          ⟨"search", "web_search", "mathlib", none⟩] none none,
        .tool "search" (.result 1 "about mathlib"),
        .tool "search" (.result 1 "about mathlib")] ∧
    ¬ ∀ turn ∈ trace step (start []) [twoSearches "search"], turn.ValidRequest := by
  refine ⟨by decide +kernel, ?_⟩
  intro all
  have first : (start []).ValidRequest := fun _ => answered_start []
  have next : ((start []).step (twoSearches "search")).ValidRequest :=
    all _ (List.mem_cons_of_mem _ (List.mem_singleton_self _))
  have apart := (validRequest_step_iff _ _ first).mp next
  revert apart
  decide +kernel

/-- Under two ids the next request is valid. -/
example : (start []).KeepsIdsApart (twoSearches "second") := by decide +kernel

end Turn

end AverQel.DeepSpace
