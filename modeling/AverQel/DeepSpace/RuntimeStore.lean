/- digest: The transactions on agent runs, assistant messages and the durable event log. -/
import Mathlib.Data.List.Sort
import AverQel.DeepSpace.Rows

namespace AverQel.DeepSpace

open Foundation
open Foundation.Text (nonempty orDefault strip truncate)

def Checkpoint.empty : Checkpoint := ⟨none, none, none, none, none⟩

namespace Conversation

def runRequestId (c : Conversation) (run : AgentRun) : Option String :=
  (run.assistantMessageId.bind c.messages.find?).bind (fun message => message.metadata.clientRequestId)

def newestRunFor (c : Conversation) (requestId : String) : Option AgentRun :=
  maxBy AgentRun.updatedAt
    (c.runs.rows.filter (fun run => c.runRequestId run = some requestId))

def hasActiveRun (c : Conversation) : Bool :=
  c.runs.rows.any (fun run => run.status.isActive)

def assistantOf (c : Conversation) (run : AgentRun) : Option Message :=
  (run.assistantMessageId.bind c.messages.find?).filter (fun message => message.role = .assistant)

def runsByUpdate (c : Conversation) : List AgentRun :=
  c.runs.rows.insertionSort (fun a b => b.updatedAt ≤ a.updatedAt)

/-- `latest_sequence` -/
def latestSequence (c : Conversation) (requestId : String) : Nat :=
  ((c.events.filter (fun event => event.clientRequestId = requestId)).map RunEvent.sequence).foldl max 0

/-- The stored `done` and `error` frames of a request. -/
def terminalEvents (c : Conversation) (requestId : String) : List RunEvent :=
  c.events.filter (fun event => event.clientRequestId = requestId && event.eventName.isTerminal)

/-- `append_event` -/
def appendEvent (now : Time) (requestId : String) (name : EventName)
    (frameStatus : Option String) (c : Conversation) : Conversation :=
  { c with events := c.events ++ [
      { clientRequestId := strip requestId
        sequence := c.latestSequence (strip requestId) + 1
        eventName := name
        frameStatus := frameStatus
        createdAt := now }] }

/-- The chat service stores a message, or stores new metadata of one. -/
def saveMessage (message : Message) (c : Conversation) : Conversation :=
  match c.messages.insert? message with
  | some messages => { c with messages := messages }
  | none =>
    { c with
      messages := c.messages.modify message.id
        (fun row => { row with metadata := message.metadata }) (fun _ => rfl) }

def modifyRun (c : Conversation) (runId : Uuid) (f : AgentRun → AgentRun)
    (hf : ∀ run, (f run).id = run.id) : Conversation :=
  { c with runs := c.runs.modify runId f hf }

/-- `create_run`; `fits` is the answer of the storage quota. -/
def createRun (now : Time) (runId assistantMessageId : Uuid)
    (checkpoint : Option Checkpoint) (fits : Bool) (c : Conversation) : Conversation :=
  if fits then
    match c.runs.insert?
        { id := runId
          assistantMessageId := some assistantMessageId
          status := .running
          cancelRequested := false
          stepCount := 0
          lastSequence := 0
          checkpoint := checkpoint.getD .empty
          lastError := none
          updatedAt := now
          heartbeatAt := some now } with
    | some runs => { c with runs := runs }
    | none => c
  else c

/-- `update_checkpoint` -/
def updateCheckpoint (now : Time) (runId : Uuid) (status : Option RunStatus)
    (checkpoint : Option Checkpoint) (lastError : Option String) (fits : Bool)
    (c : Conversation) : Conversation :=
  if (checkpoint.isSome || lastError.isSome) && !fits then c
  else c.modifyRun runId
    (fun run =>
      { run with
        updatedAt := now
        status := status.getD run.status
        checkpoint := checkpoint.getD run.checkpoint
        lastError := (lastError.map (truncate 2000)).or run.lastError
        heartbeatAt := if status.all RunStatus.isWorker then some now else run.heartbeatAt })
    (fun _ => rfl)

/-- `heartbeat` -/
def heartbeat (now : Time) (runId : Uuid) (c : Conversation) : Conversation :=
  c.modifyRun runId
    (fun run =>
      if run.status.isWorker && !run.cancelRequested then
        { run with heartbeatAt := some now, updatedAt := now }
      else run)
    (fun run => by split <;> rfl)

/-- `record_step`, without the retained step rows. -/
def recordStep (now : Time) (runId : Uuid) (fits : Bool) (c : Conversation) : Conversation :=
  if fits then c.modifyRun runId
    (fun run =>
      { run with
        lastSequence := run.lastSequence + 1
        stepCount := run.stepCount + 1
        updatedAt := now
        heartbeatAt :=
          if run.status.isWorker && !run.cancelRequested then some now else run.heartbeatAt })
    (fun _ => rfl)
  else c

/-- `get_run_for_approval` -/
def getRunForApproval (c : Conversation) (approvalId : String) : Option AgentRun :=
  ((c.runsByUpdate.filter (fun run =>
      run.status = .awaitingApproval || run.status = .running || run.status = .blocked)).take 25).find?
    (fun run => match run.checkpoint.pendingApproval with
      | some pending => pending.approvalId = approvalId
      | none => false)

inductive Decision where
  | approved
  | denied
  deriving DecidableEq, Repr

def Decision.toString : Decision → String
  | approved => "approved"
  | denied => "denied"

/-- The decision of a pending approval counts once it is set to anything but `pending`. -/
def alreadyResolved (pending : PendingApproval) : Bool :=
  match nonempty pending.decision with
  | none => false
  | some decision => decision ≠ "pending"

/-- `resolve_approval` -/
def resolveApproval (now : Time) (approvalId : String) (decision : Decision)
    (c : Conversation) : Conversation :=
  match c.getRunForApproval approvalId with
  | none => c
  | some found =>
    match found.checkpoint.pendingApproval with
    | none => c
    | some pending =>
      if alreadyResolved pending then c
      else c.modifyRun found.id
        (fun run =>
          { run with
            checkpoint :=
              { found.checkpoint with
                pendingApproval := some
                  { pending with decision := some decision.toString, resolvedAt := some now }
                phase := some "approval_resolved" }
            status := match decision with
              | .approved => .running
              | .denied => .blocked
            updatedAt := now })
        (fun _ => rfl)

/-- `clear_pending_approval` -/
def clearPendingApproval (now : Time) (runId : Uuid) (checkpoint : Option Checkpoint)
    (fits : Bool) (c : Conversation) : Conversation :=
  c.updateCheckpoint now runId (some .running)
    (some { checkpoint.getD .empty with pendingApproval := none, phase := some "tool" }) none fits

/-- The loop of `claim_user_question` over the locked runs: the run it stops at, and whether
that run is claimed by this call. -/
def questionClaim (questionId : String) : List AgentRun → Option (AgentRun × Bool)
  | [] => none
  | run :: rest =>
    match run.checkpoint.pendingUserQuestion with
    | none => questionClaim questionId rest
    | some pending =>
      if pending.questionId ≠ questionId then questionClaim questionId rest
      else if run.status = .running &&
          (run.checkpoint.phase = some "question_claimed" ||
            run.checkpoint.phase = some "question_resumed") then some (run, false)
      else if run.status ≠ .awaitingUser then questionClaim questionId rest
      else some (run, true)

/-- `claim_user_question` -/
def claimUserQuestion (now : Time) (questionId answer : String) (c : Conversation) :
    Conversation :=
  match questionClaim questionId
      (c.runsByUpdate.filter (fun run => run.status = .awaitingUser || run.status = .running)) with
  | some (found, true) =>
    c.modifyRun found.id
      (fun run =>
        { run with
          checkpoint :=
            { run.checkpoint with
              status := some "running"
              phase := some "question_claimed"
              pendingUserQuestion := run.checkpoint.pendingUserQuestion.map (fun pending =>
                { pending with answer := some answer, answerSubmittedAt := some now }) }
          status := .running
          updatedAt := now
          heartbeatAt := some now })
      (fun _ => rfl)
  | _ => c

/-- `request_cancel` of the runtime store: every active run of the conversation. -/
def requestCancelRuns (now : Time) (c : Conversation) : Conversation :=
  { c with
    runs := c.runs.mapRows
      (fun run =>
        if run.status.isActive then
          { run with cancelRequested := true, status := .cancelling, updatedAt := now }
        else run)
      (fun run => by split <;> rfl) }

/-- `finish_requested_cancellations` -/
def finishRequestedCancellations (now : Time) (c : Conversation) : Conversation :=
  { c with
    runs := c.runs.mapRows
      (fun run =>
        if run.status = .cancelling ∧ run.cancelRequested = true then
          { run with
            status := .cancelled
            heartbeatAt := none
            updatedAt := now
            lastError := some "user_cancelled" }
        else run)
      (fun run => by split <;> rfl) }

/-- `finish` of the runtime store -/
def finishRun (now : Time) (runId : Uuid) (status : RunStatus) (error : Option String)
    (c : Conversation) : Conversation :=
  c.modifyRun runId
    (fun run =>
      { run with
        status := status
        updatedAt := now
        heartbeatAt := none
        lastError := ((nonempty error).map (truncate 2000)).or run.lastError })
    (fun _ => rfl)

/-- The statuses that `finish_for_request` accepts, as the run status that it stores. -/
def finishTarget : RunStatus → Option RunStatus
  | .ready | .completed => some .ready
  | .failed => some .failed
  | .cancelled => some .cancelled
  | .blocked => some .blocked
  | _ => none

/-- The metadata that `finish_for_request` leaves on the assistant message. -/
def finishedMetadata (target : RunStatus) (error : Option String) (metadata : MessageMetadata) :
    MessageMetadata :=
  let closed :=
    if metadata.status = some "streaming" then
      match target with
      | .failed => some "error"
      | .blocked => some "blocked"
      | _ => some "ready"
    else metadata.status
  let marked := { metadata with runtimeActive := false, status := closed }
  if target = .failed ∧ closed = some "error" then
    { marked with
      errorCode := marked.errorCode.or (some "DEEPSPACE_WORKER_FAILED")
      errorMessage := marked.errorMessage.or ((nonempty error).map (truncate 2000)) }
  else marked

/-- `finish_for_request` -/
def finishForRequest (now : Time) (requestId : String) (status : RunStatus)
    (error : Option String) (c : Conversation) : Conversation :=
  match finishTarget status, c.newestRunFor requestId with
  | some target, some found =>
    let closed := c.modifyRun found.id
      (fun run =>
        if run.status.isActive then
          { run with
            status := target
            updatedAt := now
            heartbeatAt := none
            lastError := ((nonempty error).map (truncate 2000)).or run.lastError }
        else run)
      (fun run => by split <;> rfl)
    match c.assistantOf found with
    | none => closed
    | some assistant =>
      { closed with
        messages := closed.messages.modify assistant.id
          (fun message => { message with metadata := finishedMetadata target error message.metadata })
          (fun _ => rfl) }
  | _, _ => c

def leaseExpired (cutoff : Time) (run : AgentRun) : Bool :=
  run.status.isWorker && (run.heartbeatAt.isNone || before run.heartbeatAt cutoff)

/-- `DEEPSPACE_RUN_STALE_MINUTES` -/
def runStaleAfter : Time := 30 * 60 * 1000000

def leaseExpiredMessage : String :=
  "The DeepSpace worker stopped before this response finished. The saved prompt is available to retry."

/-- The metadata of the message of a run whose lease expired. -/
def leaseExpiredMetadata (cancelled : Bool) (metadata : MessageMetadata) : MessageMetadata :=
  if metadata.status = some "streaming" then
    if cancelled then { metadata with status := some "ready", runtimeActive := false }
    else
      { metadata with
        status := some "error"
        runtimeActive := false
        errorCode := some "DEEPSPACE_WORKER_LEASE_EXPIRED"
        errorMessage := some leaseExpiredMessage }
  else metadata

/-- The transaction of `maintenance_heartbeat` on one run it selected. -/
def expireStaleRun (now : Time) (runId : Uuid) (c : Conversation) : Conversation :=
  match c.runs.find? runId with
  | none => c
  | some found =>
    if leaseExpired (now - runStaleAfter) found then
      let expired := c.modifyRun runId
        (fun run =>
          { run with
            status := if run.cancelRequested then .cancelled else .failed
            lastError := some (if run.cancelRequested then "cancelled_after_worker_lease_expired"
              else "worker_lease_expired")
            updatedAt := now
            heartbeatAt := none })
        (fun _ => rfl)
      match c.assistantOf found with
      | none => expired
      | some assistant =>
        { expired with
          messages := expired.messages.modify assistant.id
            (fun message =>
              { message with metadata := leaseExpiredMetadata found.cancelRequested message.metadata })
            (fun _ => rfl) }
    else c

end Conversation

end AverQel.DeepSpace
