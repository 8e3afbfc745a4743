/- digest: Recovery of stale queue claims and of runs whose turn has already ended. -/
import AverQel.DeepSpace.TurnQueueStore

namespace AverQel.DeepSpace

open Foundation
open Foundation.Text (nonempty orDefault strip truncate)

def interruptedError : String :=
  "DeepSpace stopped before this response finished. The saved prompt is available to retry."

/-- The run status that a stored `done` frame reports. -/
def reportedRunStatus (frameStatus : Option String) : RunStatus :=
  match RunStatus.ofString (orDefault frameStatus "ready") with
  | .cancelled => .cancelled
  | .failed => .failed
  | .blocked => .blocked
  | .awaitingUser => .awaitingUser
  | .awaitingApproval => .awaitingApproval
  | _ => .ready

def reportedTurnStatus : RunStatus → TurnStatus
  | .cancelled => .cancelled
  | .failed | .blocked => .failed
  | .awaitingUser => .awaitingUser
  | .awaitingApproval => .awaitingApproval
  | _ => .completed

def recoveredAsCancelled (run : AgentRun) (turn : QueuedTurn) : Bool :=
  run.cancelRequested || turn.status = .cancelled

/-- What the recovery writes to an ended turn, from the newest terminal frame of its request. -/
def recoverEndedTurn (now : Time) (event : Option RunEvent) (run : AgentRun)
    (turn : QueuedTurn) : QueuedTurn :=
  match event with
  | none =>
    if recoveredAsCancelled run turn then
      { turn with status := .cancelled, error := none, completedAt := some now }
    else { turn with status := .failed, error := some interruptedError, completedAt := some now }
  | some event =>
    if event.eventName = .error then
      { turn with
        status := .failed
        error := some (orDefault turn.error "DeepSpace could not complete this response.")
        completedAt := some now }
    else
      let status := reportedTurnStatus (reportedRunStatus event.frameStatus)
      { turn with status := status, completedAt := if status.isTerminal then some now else none }

/-- What the recovery of an ended turn writes to its run. -/
def recoverEndedRun (now : Time) (event : Option RunEvent) (turn : QueuedTurn)
    (run : AgentRun) : AgentRun :=
  let closed := { run with updatedAt := now, heartbeatAt := none }
  match event with
  | none =>
    if recoveredAsCancelled run turn then
      { closed with
        status := .cancelled, lastError := some "cancelled_after_worker_lease_expired" }
    else { closed with status := .failed, lastError := some "worker_lease_expired" }
  | some event =>
    if event.eventName = .error then
      { closed with
        status := .failed
        lastError := some (orDefault run.lastError "terminal_error_event_persisted") }
    else { closed with status := reportedRunStatus event.frameStatus }

/-- What the recovery of an ended turn writes to the assistant message. -/
def recoverEndedMetadata (event : Option RunEvent) (turn : QueuedTurn)
    (metadata : MessageMetadata) : MessageMetadata :=
  match event with
  | none => metadata
  | some event =>
    if event.eventName = .error then
      if metadata.status = some "streaming" then
        { metadata with
          status := some "error"
          errorCode := some "DEEPSPACE_WORKER_FAILED"
          errorMessage := some (orDefault turn.error "DeepSpace could not complete this response.")
          runtimeActive := false }
      else { metadata with runtimeActive := false }
    else
      let run := reportedRunStatus event.frameStatus
      { metadata with
        status :=
          if metadata.status = some "streaming" then
            match run with
            | .failed => some "error"
            | .blocked => some "blocked"
            | _ => some "ready"
          else metadata.status
        runtimeActive := run = .awaitingUser || run = .awaitingApproval }

@[simp] theorem recoverEndedTurn_clientRequestId (now : Time) (event : Option RunEvent)
    (run : AgentRun) (turn : QueuedTurn) :
    (recoverEndedTurn now event run turn).clientRequestId = turn.clientRequestId := by
  unfold recoverEndedTurn
  cases event with
  | none | some => dsimp only; split <;> rfl

@[simp] theorem recoverEndedRun_id (now : Time) (event : Option RunEvent) (turn : QueuedTurn)
    (run : AgentRun) : (recoverEndedRun now event turn run).id = run.id := by
  unfold recoverEndedRun
  cases event with
  | none | some => dsimp only; split <;> rfl

def staleClaim (cutoff : Time) (turn : QueuedTurn) : Bool :=
  turn.status.isClaimed && before turn.startedAt cutoff

/-- What the recovery writes to a stale claim, from the newest run of its request. -/
def recoverClaim (now : Time) (run : Option AgentRun) (turn : QueuedTurn) : QueuedTurn :=
  match run with
  | none => { turn with status := .queued, startedAt := none }
  | some run =>
    match run.status with
    | .failed | .blocked =>
      { turn with
        status := .failed
        error := some (truncate 2000 (orDefault run.lastError "DeepSpace agent run failed."))
        completedAt := some now }
    | .completed => { turn with status := .completed, completedAt := some now }
    | .cancelled => { turn with status := .cancelled, completedAt := some now }
    | _ => { turn with status := .queued, startedAt := none }

@[simp] theorem recoverClaim_clientRequestId (now : Time) (run : Option AgentRun)
    (turn : QueuedTurn) : (recoverClaim now run turn).clientRequestId = turn.clientRequestId := by
  unfold recoverClaim
  cases run with
  | none => rfl
  | some => dsimp only; split <;> rfl

namespace Conversation

def recoveryRequestId (c : Conversation) (run : AgentRun) : Option String :=
  (c.assistantOf run).bind (fun message =>
    nonempty (some (strip (message.metadata.clientRequestId.getD ""))))

def endedTurn (c : Conversation) (cutoff : Time) (requestId : String) : Option QueuedTurn :=
  (c.turns.find? requestId).filter (fun turn =>
    turn.status.isTerminal && before turn.completedAt cutoff)

def recoveryTarget (c : Conversation) (cutoff : Time) (run : AgentRun) : Option String :=
  (c.recoveryRequestId run).filter (fun requestId => (c.endedTurn cutoff requestId).isSome)

def newestTerminalEvent (c : Conversation) (requestId : String) : Option RunEvent :=
  maxBy RunEvent.createdAt (c.terminalEvents requestId)

def staleRuns (c : Conversation) (cutoff : Time) : List AgentRun :=
  c.runs.rows.filter (leaseExpired cutoff)

/-- One pass of the loop of `_recover_stale_runs_for_terminal_turns`. The queries read the
stored rows (the session does not flush), the changes go to the loaded ones. -/
def reconcileRun (now cutoff : Time) (stored c : Conversation)
    (run : AgentRun) : Conversation :=
  match stored.recoveryTarget cutoff run with
  | none => c
  | some requestId =>
    match c.turns.find? requestId with
    | none => c
    | some turn =>
      let event := stored.newestTerminalEvent requestId
      { c with
        turns := c.turns.modify requestId (recoverEndedTurn now event run)
          (recoverEndedTurn_clientRequestId now event run)
        runs := c.runs.modify run.id (recoverEndedRun now event turn)
          (recoverEndedRun_id now event turn)
        messages :=
          match run.assistantMessageId with
          | none => c.messages
          | some messageId => c.messages.modify messageId
              (fun row => { row with metadata := recoverEndedMetadata event turn row.metadata })
              (fun _ => rfl) }

/-- `_recover_stale_runs_for_terminal_turns`, up to its commit. -/
def recoverStaleRunsForTerminalTurns (now cutoff : Time) (c : Conversation) : Conversation :=
  (c.staleRuns cutoff).foldl (reconcileRun now cutoff c) c

def interruptedRuns (cutoff : Time) (c : Conversation) : List (String × Uuid) :=
  (c.staleRuns cutoff).filterMap (fun run =>
    (c.recoveryTarget cutoff run).bind (fun requestId =>
      if (c.newestTerminalEvent requestId).isNone then some (requestId, run.id) else none))

/-- `_close_expired_worker_stream` -/
def closeExpiredWorkerStream (now : Time) (requestId : String) (runId : Uuid)
    (c : Conversation) : Conversation :=
  match c.runs.find? runId with
  | none => c
  | some run =>
    let cancelled : Bool := run.lastError = some "cancelled_after_worker_lease_expired"
    if !cancelled && run.lastError ≠ some "worker_lease_expired" then c
    else if (c.terminalEvents requestId).isEmpty then
      let closed :=
        match c.assistantOf run with
        | none => c
        | some assistant =>
          { c with
            messages := c.messages.modify assistant.id
              (fun row => { row with metadata := leaseExpiredMetadata cancelled row.metadata })
              (fun _ => rfl) }
      closed.appendEvent now requestId (if cancelled then .done else .error)
        (if cancelled then some "cancelled" else none)
    else c

/-- The transaction of `recover_stale_claims` on the stale claims themselves. -/
def recoverClaims (now cutoff : Time) (c : Conversation) : Conversation :=
  if c.hasActiveRun then c
  else c.mapTurns
    (fun turn =>
      if staleClaim cutoff turn then recoverClaim now (c.newestRunFor turn.clientRequestId) turn
      else turn)
    (fun turn => by split <;> simp)

/-- The claims and runs whose browser stream that transaction closes afterwards. -/
def expiredRuns (cutoff : Time) (c : Conversation) : List (String × Uuid) :=
  if c.hasActiveRun then []
  else (c.turns.rows.filter (staleClaim cutoff)).filterMap (fun turn =>
    (c.newestRunFor turn.clientRequestId).bind (fun run =>
      match run.status with
      | .failed | .blocked => some (turn.clientRequestId, run.id)
      | .cancelled =>
        if run.lastError = some "cancelled_after_worker_lease_expired" then
          some (turn.clientRequestId, run.id)
        else none
      | _ => none))

def closeStreams (now : Time) (pairs : List (String × Uuid)) (c : Conversation) : Conversation :=
  pairs.foldl (fun c pair => c.closeExpiredWorkerStream now pair.1 pair.2) c

/-- `recover_stale_claims` -/
def recoverStaleClaims (now staleAfter : Time) (c : Conversation) : Conversation :=
  let cutoff := now - staleAfter
  let reconciled :=
    (c.recoverStaleRunsForTerminalTurns now cutoff).closeStreams now (c.interruptedRuns cutoff)
  (reconciled.recoverClaims now cutoff).closeStreams now (reconciled.expiredRuns cutoff)

/-- `claim_next` -/
def claimNext (now : Time) (c : Conversation) : Conversation :=
  ((c.recoverStaleClaims now staleDispatchAfter).resumeAfterFailure).claim now

/-- The order of `list_open`: failed turns last, then as they are dispatched. -/
def listKey (turn : QueuedTurn) : ℕ ×ₗ (ℕᵒᵈ ×ₗ ℕ) :=
  toLex (if turn.status = .failed then 1 else 0,
    toLex (OrderDual.toDual turn.priority, turn.sequence))

/-- What `list_open` returns after its recovery: of a chain of retries only the newest failed
attempt is shown. -/
def listedTurns (c : Conversation) : List QueuedTurn :=
  let rows := (c.turns.rows.filter (fun turn =>
    turn.status.isVisible || turn.status = .completed)).insertionSort (listKey · ≤ listKey ·)
  let parents := rows.filterMap (fun turn => nonempty turn.resumeFromRequestId)
  rows.filter (fun turn =>
    turn.status.isVisible && (turn.status ≠ .failed || turn.clientRequestId ∉ parents))

/-- `list_open` -/
def listOpen (now : Time) (c : Conversation) : Conversation × List QueuedTurn :=
  let recovered := c.recoverStaleClaims now staleDispatchAfter
  (recovered, recovered.listedTurns)

end Conversation

end AverQel.DeepSpace
