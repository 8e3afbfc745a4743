/- digest: One committed transaction as a step, and what it can do to a queued turn. -/
import AverQel.DeepSpace.Recovery
import AverQel.Foundation.Transition

namespace AverQel.DeepSpace

open Foundation Transition
open Foundation.Text (nonempty truncate)

/-- The transactions that read or write the rows of a conversation. `recoverStaleRuns`,
`closeStream` and `recoverClaims` are the transactions of `recover_stale_claims`; `claim` is the
locked one of `claim_next`. -/
inductive Operation where
  | enqueue (request : EnqueueRequest)
  | updateQueuedPrompt (requestId expectedPrompt prompt : String) (fits : Bool)
  | retryFailed (failedRequestId clientRequestId : String) (fits : Bool)
  | promote (requestId : String)
  | pause (reason : String) (failedRequestId : Option String)
  | resume
  | resumeAfterFailure
  | requestCancel (requestId : String)
  | requestCancelByRequestId (requestId : String)
  | cancelAllForConversation
  | clearForConversation
  | releaseClaim (requestId : String)
  | recoverStaleRuns (staleAfter : Time)
  | closeStream (requestId : String) (runId : Uuid)
  | recoverClaims (staleAfter : Time)
  | resumePaused
  | claim
  | finish (requestId status : String) (error : Option String)
  | createRun (runId assistantMessageId : Uuid) (checkpoint : Option Checkpoint) (fits : Bool)
  | updateCheckpoint (runId : Uuid) (status : Option RunStatus) (checkpoint : Option Checkpoint)
      (lastError : Option String) (fits : Bool)
  | heartbeat (runId : Uuid)
  | recordStep (runId : Uuid) (fits : Bool)
  | resolveApproval (approvalId : String) (decision : Conversation.Decision)
  | clearPendingApproval (runId : Uuid) (checkpoint : Option Checkpoint) (fits : Bool)
  | claimUserQuestion (questionId answer : String)
  | requestCancelRuns
  | finishRequestedCancellations
  | finishRun (runId : Uuid) (status : RunStatus) (error : Option String)
  | finishForRequest (requestId : String) (status : RunStatus) (error : Option String)
  | expireStaleRun (runId : Uuid)
  | saveMessage (message : Message)
  | appendEvent (requestId : String) (name : EventName) (frameStatus : Option String)

namespace Operation

/-- The effect of a transaction that commits at time `now`. -/
def apply (now : Time) : Operation → Conversation → Conversation
  | enqueue request => Conversation.enqueue request
  | updateQueuedPrompt requestId expected prompt fits =>
    Conversation.updateQueuedPrompt requestId expected prompt fits
  | retryFailed failed requestId fits => Conversation.retryFailed failed requestId fits
  | promote requestId => Conversation.promote requestId
  | pause reason failed => Conversation.pause now reason failed
  | resume => Conversation.resume
  | resumeAfterFailure => Conversation.resumeAfterFailure
  | requestCancel requestId => Conversation.requestCancel now requestId
  | requestCancelByRequestId requestId => Conversation.requestCancelByRequestId now requestId
  | cancelAllForConversation => Conversation.cancelAllForConversation now
  | clearForConversation => Conversation.clearForConversation now
  | releaseClaim requestId => Conversation.releaseClaim requestId
  | recoverStaleRuns staleAfter =>
    Conversation.recoverStaleRunsForTerminalTurns now (now - staleAfter)
  | closeStream requestId runId => Conversation.closeExpiredWorkerStream now requestId runId
  | recoverClaims staleAfter => Conversation.recoverClaims now (now - staleAfter)
  | resumePaused => Conversation.resumePaused
  | claim => Conversation.claim now
  | finish requestId status error => Conversation.finish now requestId status error
  | createRun runId messageId checkpoint fits =>
    Conversation.createRun now runId messageId checkpoint fits
  | updateCheckpoint runId status checkpoint lastError fits =>
    Conversation.updateCheckpoint now runId status checkpoint lastError fits
  | heartbeat runId => Conversation.heartbeat now runId
  | recordStep runId fits => Conversation.recordStep now runId fits
  | resolveApproval approvalId decision => Conversation.resolveApproval now approvalId decision
  | clearPendingApproval runId checkpoint fits =>
    Conversation.clearPendingApproval now runId checkpoint fits
  | claimUserQuestion questionId answer => Conversation.claimUserQuestion now questionId answer
  | requestCancelRuns => Conversation.requestCancelRuns now
  | finishRequestedCancellations => Conversation.finishRequestedCancellations now
  | finishRun runId status error => Conversation.finishRun now runId status error
  | finishForRequest requestId status error =>
    Conversation.finishForRequest now requestId status error
  | expireStaleRun runId => Conversation.expireStaleRun now runId
  | saveMessage message => Conversation.saveMessage message
  | appendEvent requestId name frameStatus =>
    Conversation.appendEvent now requestId name frameStatus

end Operation

structure Call where
  now : Time
  operation : Operation

def step (c : Conversation) (call : Call) : Conversation := call.operation.apply call.now c

namespace Conversation

/-- The loop of the recovery of ended turns, seen from one turn. -/
def recoverEndedTurnLoop (now cutoff : Time) (c : Conversation) (runs : List AgentRun)
    (turn : QueuedTurn) : QueuedTurn :=
  runs.foldl
    (fun row run =>
      if c.recoveryTarget cutoff run = some row.clientRequestId then
        recoverEndedTurn now (c.newestTerminalEvent row.clientRequestId) run row
      else row)
    turn

end Conversation

namespace Operation

/-- What a transaction does to a turn that is already stored. -/
def turnChange (now : Time) (c : Conversation) : Operation → QueuedTurn → QueuedTurn
  | updateQueuedPrompt requestId expected prompt fits, turn =>
    if turn.clientRequestId = requestId ∧ turn.status = .queued ∧
        turn.regenerateMessageId = none ∧ turn.prompt = expected ∧ fits = true then
      { turn with prompt := truncate 4000 prompt }
    else turn
  | promote requestId, turn =>
    if turn.clientRequestId = requestId ∧ turn.status = .queued then
      { turn with
        priority := ((c.turns.rows.filter (fun turn => turn.status = .queued)).map
          QueuedTurn.priority).foldl max 0 + 1 }
    else turn
  | requestCancel requestId, turn | requestCancelByRequestId requestId, turn =>
    if turn.clientRequestId = requestId then cancelTurn now turn else turn
  | cancelAllForConversation, turn => cancelTurn now turn
  | clearForConversation, turn => clearTurn now turn
  | releaseClaim requestId, turn =>
    if turn.clientRequestId = requestId then releaseTurn turn else turn
  | recoverStaleRuns staleAfter, turn =>
    c.recoverEndedTurnLoop now (now - staleAfter) (c.staleRuns (now - staleAfter)) turn
  | recoverClaims staleAfter, turn =>
    if c.hasActiveRun = false ∧ staleClaim (now - staleAfter) turn = true then
      recoverClaim now (c.newestRunFor turn.clientRequestId) turn
    else turn
  | resumePaused, turn =>
    if c.pausedTurn.map QueuedTurn.clientRequestId = some turn.clientRequestId then
      { turn with status := .running, error := none }
    else turn
  | claim, turn =>
    if c.claimable.map QueuedTurn.clientRequestId = some turn.clientRequestId then
      { turn with status := .running, startedAt := some now }
    else turn
  | finish requestId status error, turn =>
    if turn.clientRequestId = requestId then finishTurn now (finishStatus status) error turn
    else turn
  | _, turn => turn

end Operation

/-- A turn that a transaction has just stored. -/
structure NewTurn (c : Conversation) (turn : QueuedTurn) : Prop where
  queued : turn.status = .queued
  not_started : turn.startedAt = none
  not_completed : turn.completedAt = none
  fresh : ∀ old ∈ c.turns.rows, old.clientRequestId ≠ turn.clientRequestId

structure TurnsStep (change : QueuedTurn → QueuedTurn) (c c' : Conversation) : Prop where
  keeps : ∀ turn ∈ c.turns.rows, change turn ∈ c'.turns.rows
  origin : ∀ turn' ∈ c'.turns.rows,
    (∃ turn ∈ c.turns.rows, change turn = turn') ∨ NewTurn c turn'

/-- What `enqueue` and `retry_failed` store, linked to the request that it retries. -/
structure AddedTurn (c : Conversation) (link : Option String) (turn : QueuedTurn) : Prop
    extends NewTurn c turn where
  sequence : turn.sequence = c.nextSequence
  link : turn.resumeFromRequestId = link
  room : c.queuedCount < maxTurnsPerConversation

def RowsStep (change : QueuedTurn → QueuedTurn) (link : Option String) (c c' : Conversation) :
    Prop :=
  ∃ added : Option QueuedTurn, c'.turns.rows = c.turns.rows.map change ++ added.toList ∧
    ∀ turn ∈ added, AddedTurn c link turn

namespace RowsStep

variable {change : QueuedTurn → QueuedTurn} {link : Option String} {c c' : Conversation}

theorem of_rows (rows : c'.turns.rows = c.turns.rows.map change) : RowsStep change link c c' := by
  refine ⟨none, ?_, ?_⟩
  · simpa using rows
  · intro turn member
    exact absurd member (Option.not_mem_none turn)

theorem of_idle (same : c'.turns = c.turns) (idle : ∀ turn ∈ c.turns.rows, change turn = turn) :
    RowsStep change link c c' := by
  refine of_rows ?_
  rw [same, List.map_congr_left (g := fun turn => turn) idle, List.map_id']

theorem of_unchanged (same : c'.turns = c.turns) : RowsStep (fun turn => turn) link c c' :=
  of_idle same fun _ _ => rfl

theorem of_modify {f : QueuedTurn → QueuedTurn} {requestId : String}
    {hf : ∀ turn, (f turn).clientRequestId = turn.clientRequestId}
    (agree : ∀ turn ∈ c.turns.rows,
      change turn = if turn.clientRequestId = requestId then f turn else turn) :
    RowsStep change link c (c.modifyTurn requestId f hf) :=
  of_rows (List.map_congr_left fun turn member => (agree turn member).symm)

theorem of_addTurn {turn : QueuedTurn} (queued : turn.status = .queued)
    (not_started : turn.startedAt = none) (not_completed : turn.completedAt = none)
    (sequence : turn.sequence = c.nextSequence) (room : c.queuedCount < maxTurnsPerConversation) :
    RowsStep (fun turn => turn) turn.resumeFromRequestId c (c.addTurn turn) := by
  unfold Conversation.addTurn
  split
  · rename_i turns inserted
    have new : NewTurn c turn :=
      ⟨queued, not_started, not_completed, fun old member => Table.fresh_of_insert? inserted member⟩
    refine ⟨some turn, ?_, ?_⟩
    · rw [List.map_id', Option.toList_some]
      exact Table.rows_of_insert? inserted
    · intro other member
      cases Option.mem_some.mp member
      exact ⟨new, sequence, rfl, room⟩
  · exact of_unchanged rfl

theorem turnsStep (step : RowsStep change link c c') : TurnsStep change c c' := by
  obtain ⟨added, rows, new⟩ := step
  refine ⟨?_, ?_⟩
  · intro turn member
    rw [rows]
    exact List.mem_append_left _ (List.mem_map_of_mem member)
  · intro turn' member
    rw [rows] at member
    rcases List.mem_append.mp member with old | fresh
    · exact .inl (List.mem_map.mp old)
    · exact .inr (new turn' (Option.mem_toList.mp fresh)).toNewTurn

end RowsStep

theorem Conversation.recoverEndedTurnLoop_clientRequestId (now cutoff : Time) (c : Conversation)
    (runs : List AgentRun) (turn : QueuedTurn) :
    (c.recoverEndedTurnLoop now cutoff runs turn).clientRequestId = turn.clientRequestId := by
  unfold recoverEndedTurnLoop
  induction runs generalizing turn with
  | nil => rfl
  | cons run runs ih =>
    rw [List.foldl_cons, ih]
    split
    · exact recoverEndedTurn_clientRequestId _ _ _ _
    · rfl

theorem Conversation.rows_reconcileRun (now cutoff : Time) (stored c : Conversation)
    (run : AgentRun) :
    (reconcileRun now cutoff stored c run).turns.rows = c.turns.rows.map (fun row =>
      if stored.recoveryTarget cutoff run = some row.clientRequestId then
        recoverEndedTurn now (stored.newestTerminalEvent row.clientRequestId) run row
      else row) := by
  have unchanged : c.turns.rows = c.turns.rows.map (fun row => row) := (List.map_id' _).symm
  cases target : stored.recoveryTarget cutoff run with
  | none => simp [reconcileRun, target]
  | some requestId =>
    cases found : c.turns.find? requestId with
    | none =>
      have missing := Table.find?_eq_none_iff.mp found
      simp only [reconcileRun, target, found, Option.some.injEq]
      refine unchanged.trans (List.map_congr_left fun row member => ?_)
      rw [if_neg fun same => missing row member same.symm]
    | some =>
      simp only [reconcileRun, target, found, Option.some.injEq]
      refine List.map_congr_left fun row _ => ?_
      by_cases same : row.clientRequestId = requestId
      · simp [same]
      · simp [same, Ne.symm same]

theorem Conversation.rows_foldl_reconcileRun (now cutoff : Time) (stored : Conversation)
    (runs : List AgentRun) (c : Conversation) :
    (runs.foldl (reconcileRun now cutoff stored) c).turns.rows =
      c.turns.rows.map (stored.recoverEndedTurnLoop now cutoff runs) := by
  induction runs generalizing c with
  | nil =>
    change c.turns.rows = c.turns.rows.map (fun row => row)
    rw [List.map_id']
  | cons run runs ih =>
    rw [List.foldl_cons, ih, rows_reconcileRun, List.map_map]
    rfl

namespace Operation

theorem turnChange_clientRequestId (now : Time) (c : Conversation) (op : Operation)
    (turn : QueuedTurn) : (op.turnChange now c turn).clientRequestId = turn.clientRequestId := by
  cases op with
  | recoverStaleRuns => exact c.recoverEndedTurnLoop_clientRequestId _ _ _ turn
  | cancelAllForConversation => exact cancelTurn_clientRequestId now turn
  | clearForConversation => exact clearTurn_clientRequestId now turn
  | _ =>
    simp only [turnChange]
    try split
    all_goals first | rfl | simp

def onlyRuns : Operation → Bool
  | pause .. | resume | resumeAfterFailure | closeStream .. | createRun .. | updateCheckpoint ..
  | heartbeat .. | recordStep .. | resolveApproval .. | clearPendingApproval ..
  | claimUserQuestion .. | requestCancelRuns | finishRequestedCancellations | finishRun ..
  | finishForRequest .. | expireStaleRun .. | saveMessage .. | appendEvent .. => true
  | _ => false

/-- The parts of a conversation, besides its messages, that a transaction may write. -/
structure Writes where
  (turns runs events control : Bool)

def writes : Operation → Writes
  | enqueue .. | updateQueuedPrompt .. | retryFailed .. | promote .. | requestCancel ..
  | requestCancelByRequestId .. | cancelAllForConversation | releaseClaim .. | recoverClaims ..
  | resumePaused | claim | finish .. => ⟨true, false, false, false⟩
  | clearForConversation => ⟨true, false, false, true⟩
  | pause .. | resume | resumeAfterFailure => ⟨false, false, false, true⟩
  | recoverStaleRuns .. => ⟨true, true, false, false⟩
  | closeStream .. | appendEvent .. => ⟨false, false, true, false⟩
  | saveMessage .. => ⟨false, false, false, false⟩
  | _ => ⟨false, true, false, false⟩

structure Frame (w : Writes) (c c' : Conversation) : Prop where
  turns : w.turns = false → c'.turns = c.turns
  runs : w.runs = false → c'.runs = c.runs
  events : w.events = false → c'.events = c.events
  control : w.control = false → c'.control = c.control

theorem frame_recoverStaleRuns (now cutoff : Time) (stored c : Conversation)
    (runs : List AgentRun) :
    Frame ⟨true, true, false, false⟩ c (runs.foldl (Conversation.reconcileRun now cutoff stored) c) := by
  induction runs generalizing c with
  | nil => exact ⟨fun _ => rfl, fun _ => rfl, fun _ => rfl, fun _ => rfl⟩
  | cons run runs ih =>
    obtain ⟨_, _, events, control⟩ := ih (Conversation.reconcileRun now cutoff stored c run)
    refine ⟨fun written => (by cases written), fun written => (by cases written),
      fun kept => (events kept).trans ?_, fun kept => (control kept).trans ?_⟩
    all_goals
      unfold Conversation.reconcileRun
      split
      · rfl
      · split <;> rfl

theorem frame_apply (now : Time) (c : Conversation) (op : Operation) :
    Frame op.writes c (op.apply now c) := by
  cases op with
  | recoverStaleRuns => exact frame_recoverStaleRuns now _ c c _
  | _ =>
    simp only [apply, Conversation.enqueue, Conversation.addTurn, Conversation.retryFailed,
      Conversation.updateQueuedPrompt, Conversation.promote, Conversation.resumeAfterFailure,
      Conversation.closeExpiredWorkerStream, Conversation.recoverClaims, Conversation.resumePaused,
      Conversation.claim, Conversation.createRun, Conversation.updateCheckpoint,
      Conversation.recordStep, Conversation.resolveApproval, Conversation.clearPendingApproval,
      Conversation.claimUserQuestion, Conversation.finishForRequest, Conversation.expireStaleRun,
      Conversation.saveMessage]
    repeat' split
    all_goals constructor <;> intro kept <;> first | rfl | cases kept

theorem turns_apply_of_onlyRuns (now : Time) (c : Conversation) {op : Operation}
    (h : op.onlyRuns) : (op.apply now c).turns = c.turns :=
  (frame_apply now c op).turns (by cases op <;> first | rfl | cases h)

def newLink : Operation → Option String
  | enqueue request => (nonempty request.resumeFromRequestId).map (truncate 255)
  | retryFailed failedRequestId _ _ => some failedRequestId
  | _ => none

/-- Every transaction changes each stored turn by its row change, in place, and adds at most one
turn behind them. -/
theorem rowsStep (now : Time) (c : Conversation) (op : Operation) :
    RowsStep (op.turnChange now c) op.newLink c (op.apply now c) := by
  cases op with
  | enqueue request =>
    simp only [apply, Conversation.enqueue]
    split
    · exact .of_unchanged rfl
    · split
      · exact .of_unchanged rfl
      · rename_i room
        split
        · exact .of_addTurn rfl rfl rfl rfl (Nat.lt_of_not_le room)
        · exact .of_unchanged rfl
  | retryFailed failed requestId fits =>
    simp only [apply, Conversation.retryFailed]
    split
    · exact .of_unchanged rfl
    · split
      · exact .of_unchanged rfl
      · split
        · exact .of_unchanged rfl
        · split
          · exact .of_unchanged rfl
          · rename_i room
            split
            · exact .of_addTurn rfl rfl rfl rfl (Nat.lt_of_not_le room)
            · exact .of_unchanged rfl
  | updateQueuedPrompt requestId expected prompt fits =>
    simp only [apply, Conversation.updateQueuedPrompt]
    cases found : c.turns.find? requestId with
    | none =>
      have missing := Table.find?_eq_none_iff.mp found
      exact .of_idle rfl fun turn member => if_neg fun guard => missing turn member guard.1
    | some row =>
      have only : ∀ turn ∈ c.turns.rows, turn.clientRequestId = requestId → turn = row := by
        intro turn member same
        have here := Table.find?_eq_some_iff.mpr ⟨member, same⟩
        exact Option.some.inj (here.symm.trans found)
      dsimp only
      split
      · rename_i editable
        refine .of_modify fun turn member => ?_
        by_cases same : turn.clientRequestId = requestId
        · rw [only turn member same]
          have rowKey := (Table.find?_eq_some_iff.mp found).2
          simp [turnChange, editable, rowKey]
        · simp [turnChange, same]
      · rename_i editable
        refine .of_idle rfl fun turn member => if_neg fun guard => editable ?_
        rw [← only turn member guard.1]
        exact guard.2
  | promote requestId =>
    simp only [apply, Conversation.promote]
    cases found : (c.turns.find? requestId).filter (fun turn => turn.status = .queued) with
    | none =>
      refine .of_idle rfl fun turn member => if_neg fun guard => ?_
      have here := Table.find?_eq_some_iff.mpr ⟨member, guard.1⟩
      simp [here, guard.2] at found
    | some row =>
      obtain ⟨here, queued⟩ := Option.filter_eq_some_iff.mp found
      refine .of_modify fun turn member => ?_
      by_cases same : turn.clientRequestId = requestId
      · have isRow : turn = row :=
          Option.some.inj ((Table.find?_eq_some_iff.mpr ⟨member, same⟩).symm.trans here)
        subst isRow
        have isQueued : turn.status = .queued := by simpa using queued
        simp [turnChange, same, isQueued]
      · simp [turnChange, same]
  | requestCancel | requestCancelByRequestId | releaseClaim | finish =>
    exact .of_modify fun turn _ => rfl
  | cancelAllForConversation | clearForConversation => exact .of_rows rfl
  | recoverStaleRuns => exact .of_rows (c.rows_foldl_reconcileRun _ _ _ _)
  | recoverClaims staleAfter =>
    simp only [apply, Conversation.recoverClaims]
    split
    · rename_i active
      exact .of_idle rfl fun turn _ => if_neg fun guard => by simp [active] at guard
    · rename_i active
      refine .of_rows (List.map_congr_left fun turn _ => ?_)
      have idle : c.hasActiveRun = false := by simpa using active
      simp [turnChange, idle]
  | resumePaused =>
    simp only [apply, Conversation.resumePaused]
    cases found : c.pausedTurn with
    | none => exact .of_idle rfl fun turn _ => by simp [turnChange, found]
    | some => exact .of_modify fun turn _ => by simp [turnChange, found, eq_comm]
  | claim =>
    simp only [apply, Conversation.claim]
    cases found : c.claimable with
    | none => exact .of_idle rfl fun turn _ => by simp [turnChange, found]
    | some => exact .of_modify fun turn _ => by simp [turnChange, found, eq_comm]
  | _ => exact .of_unchanged (turns_apply_of_onlyRuns now c rfl)

theorem turnsStep (now : Time) (c : Conversation) (op : Operation) :
    TurnsStep (op.turnChange now c) c (op.apply now c) :=
  (op.rowsStep now c).turnsStep

end Operation

theorem Operation.find?_apply (now : Time) {c : Conversation} {requestId : String} {turn : QueuedTurn}
    (op : Operation) (found : c.turns.find? requestId = some turn) :
    (op.apply now c).turns.find? requestId = some (op.turnChange now c turn) := by
  obtain ⟨member, rfl⟩ := Table.find?_eq_some_iff.mp found
  exact Table.find?_eq_some_iff.mpr
    ⟨(op.turnsStep now c).keeps turn member, op.turnChange_clientRequestId now c turn⟩

end AverQel.DeepSpace
