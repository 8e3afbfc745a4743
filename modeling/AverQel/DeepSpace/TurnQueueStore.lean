/- digest: The transactions of the turn queue, recovery included, on one conversation. -/
import Mathlib.Data.Prod.Lex
import Mathlib.Order.Nat
import AverQel.DeepSpace.RuntimeStore

namespace AverQel.DeepSpace

open Foundation
open Foundation.Text (nonempty orDefault strip truncate)

/-- `MAX_TURNS_PER_CONVERSATION` -/
def maxTurnsPerConversation : Nat := 100

/-- `STALE_DISPATCH_AFTER` -/
def staleDispatchAfter : Time := 10 * 60 * 1000000

/-- The arguments of `enqueue`; `fits` is the answer of the storage quota. -/
structure EnqueueRequest where
  (clientRequestId prompt : String)
  regenerateMessageId : Option Uuid
  thinkingEnabled : Bool
  reasoningEffort : Option String
  (roles permissions attachmentFileIds : List String)
  steer : Bool
  resumeFromRequestId : Option String
  fits : Bool
  deriving DecidableEq, Repr

/-- A request that leaves every optional argument out. -/
def EnqueueRequest.plain (requestId prompt : String) (steer : Bool) : EnqueueRequest where
  clientRequestId := requestId
  prompt := prompt
  regenerateMessageId := none
  thinkingEnabled := false
  reasoningEffort := none
  roles := []
  permissions := []
  attachmentFileIds := []
  steer := steer
  resumeFromRequestId := none
  fits := true

def sortedSet (names : List String) : List String :=
  names.eraseDups.insertionSort (· ≤ ·)

namespace Conversation

def mapTurns (c : Conversation) (f : QueuedTurn → QueuedTurn)
    (hf : ∀ turn, (f turn).clientRequestId = turn.clientRequestId) : Conversation :=
  { c with turns := c.turns.mapRows f hf }

def modifyTurn (c : Conversation) (requestId : String) (f : QueuedTurn → QueuedTurn)
    (hf : ∀ turn, (f turn).clientRequestId = turn.clientRequestId) : Conversation :=
  { c with turns := c.turns.modify requestId f hf }

def addTurn (c : Conversation) (turn : QueuedTurn) : Conversation :=
  match c.turns.insert? turn with
  | some turns => { c with turns := turns }
  | none => c

def queuedCount (c : Conversation) : Nat :=
  c.turns.rows.countP (fun turn => turn.status.isQueueable)

def nextSequence (c : Conversation) : Nat :=
  (c.turns.rows.map QueuedTurn.sequence).foldl max 0 + 1

/-- `state().paused` -/
def queuePaused (c : Conversation) : Bool :=
  match c.control with
  | none => false
  | some control => control.paused

/-- `pause` -/
def pause (now : Time) (reason : String) (failedRequestId : Option String)
    (c : Conversation) : Conversation :=
  { c with
    control := some
      { paused := true
        reason := (nonempty (some reason)).map (truncate 2000)
        failedRequestId := failedRequestId
        pausedAt := some now } }

/-- `resume` -/
def resume (c : Conversation) : Conversation :=
  { c with
    control := some { paused := false, reason := none, failedRequestId := none, pausedAt := none } }

/-- `resume_after_failure`: only a pause that names a failed request is lifted. -/
def resumeAfterFailure (c : Conversation) : Conversation :=
  match c.control with
  | none => c
  | some control =>
    if control.paused && control.failedRequestId.isSome then
      { c with
        control := some
          { paused := false, reason := none, failedRequestId := none, pausedAt := none } }
    else c

/-- `enqueue` -/
def enqueue (request : EnqueueRequest) (c : Conversation) : Conversation :=
  match c.turns.find? request.clientRequestId with
  | some _ => c
  | none =>
    if maxTurnsPerConversation ≤ c.queuedCount then c
    else if request.fits then
      c.addTurn
        { clientRequestId := truncate 255 request.clientRequestId
          regenerateMessageId := request.regenerateMessageId
          resumeFromRequestId := (nonempty request.resumeFromRequestId).map (truncate 255)
          prompt := truncate 4000 request.prompt
          priority := if request.steer then 1 else 0
          sequence := c.nextSequence
          thinkingEnabled := request.thinkingEnabled
          reasoningEffort := request.reasoningEffort
          roles := sortedSet request.roles
          permissions := sortedSet request.permissions
          attachmentFileIds := request.attachmentFileIds.eraseDups
          status := .queued
          error := none
          startedAt := none
          completedAt := none }
    else c

/-- `update_queued_prompt` -/
def updateQueuedPrompt (requestId expectedPrompt prompt : String) (fits : Bool)
    (c : Conversation) : Conversation :=
  match c.turns.find? requestId with
  | none => c
  | some turn =>
    if turn.status = .queued ∧ turn.regenerateMessageId = none ∧
        turn.prompt = expectedPrompt ∧ fits = true then
      c.modifyTurn requestId (fun row => { row with prompt := truncate 4000 prompt })
        (fun _ => rfl)
    else c

def existingRetry (c : Conversation) (failedRequestId : String) : Option QueuedTurn :=
  maxBy QueuedTurn.sequence (c.turns.rows.filter (fun turn =>
    turn.resumeFromRequestId = some failedRequestId &&
      (turn.status.isQueueable || turn.status = .completed)))

/-- `retry_failed`; `clientRequestId` is the given id or the generated one. -/
def retryFailed (failedRequestId clientRequestId : String) (fits : Bool) (c : Conversation) :
    Conversation :=
  match (c.turns.find? failedRequestId).filter (fun turn => turn.status = .failed) with
  | none => c
  | some failed =>
    if (c.turns.find? (truncate 255 clientRequestId)).isSome then c
    else if (c.existingRetry failedRequestId).isSome then c
    else if maxTurnsPerConversation ≤ c.queuedCount then c
    else if fits then
      c.addTurn
        { clientRequestId := truncate 255 clientRequestId
          regenerateMessageId := failed.regenerateMessageId
          resumeFromRequestId := some failedRequestId
          prompt := failed.prompt
          priority := max 1 (failed.priority + 1)
          sequence := c.nextSequence
          thinkingEnabled := failed.thinkingEnabled
          reasoningEffort := failed.reasoningEffort
          roles := failed.roles
          permissions := failed.permissions
          attachmentFileIds := failed.attachmentFileIds
          status := .queued
          error := none
          startedAt := none
          completedAt := none }
    else c

/-- `promote` -/
def promote (requestId : String) (c : Conversation) : Conversation :=
  match (c.turns.find? requestId).filter (fun turn => turn.status = .queued) with
  | none => c
  | some _ =>
    let top := ((c.turns.rows.filter (fun turn => turn.status = .queued)).map
      QueuedTurn.priority).foldl max 0
    c.modifyTurn requestId (fun row => { row with priority := top + 1 }) (fun _ => rfl)

end Conversation

/-- The row change of `request_cancel` and `cancel_all_for_conversation`. -/
def cancelTurn (now : Time) (turn : QueuedTurn) : QueuedTurn :=
  if turn.status.isQueueable then
    if turn.status = .queued || turn.status.isPaused then
      { turn with status := .cancelled, completedAt := some now }
    else { turn with status := .cancelling }
  else turn

/-- The row change of `clear_for_conversation`: failed turns are cleared as well, and a paused
turn is left `cancelling`. -/
def clearTurn (now : Time) (turn : QueuedTurn) : QueuedTurn :=
  if turn.status.isQueueable || turn.status = .failed then
    if turn.status.isActive then { turn with status := .cancelling }
    else { turn with status := .cancelled, completedAt := some now }
  else turn

/-- The row change of `release_claim`. -/
def releaseTurn (turn : QueuedTurn) : QueuedTurn :=
  if turn.status = .running then { turn with status := .queued, startedAt := none } else turn

/-- The statuses that `finish` accepts; every other text becomes `failed`. -/
def finishStatus : String → TurnStatus
  | "completed" => .completed
  | "cancelled" => .cancelled
  | "failed" => .failed
  | "awaiting_user" => .awaitingUser
  | "awaiting_approval" => .awaitingApproval
  | _ => .failed

/-- The row change of `finish`. -/
def finishTurn (now : Time) (status : TurnStatus) (error : Option String) (turn : QueuedTurn) :
    QueuedTurn :=
  { turn with
    status := status
    error := (nonempty error).map (truncate 2000)
    completedAt := if status.isTerminal then some now else none }

@[simp] theorem cancelTurn_clientRequestId (now : Time) (turn : QueuedTurn) :
    (cancelTurn now turn).clientRequestId = turn.clientRequestId := by
  unfold cancelTurn
  split
  · split <;> rfl
  · rfl

@[simp] theorem clearTurn_clientRequestId (now : Time) (turn : QueuedTurn) :
    (clearTurn now turn).clientRequestId = turn.clientRequestId := by
  unfold clearTurn
  split
  · split <;> rfl
  · rfl

@[simp] theorem releaseTurn_clientRequestId (turn : QueuedTurn) :
    (releaseTurn turn).clientRequestId = turn.clientRequestId := by
  unfold releaseTurn
  split <;> rfl

namespace Conversation

/-- `request_cancel` -/
def requestCancel (now : Time) (requestId : String) (c : Conversation) : Conversation :=
  c.modifyTurn requestId (cancelTurn now) (cancelTurn_clientRequestId now)

/-- `request_cancel_by_request_id`, for a request of this conversation. -/
def requestCancelByRequestId (now : Time) (requestId : String) (c : Conversation) :
    Conversation :=
  c.modifyTurn requestId (cancelTurn now) (cancelTurn_clientRequestId now)

/-- `cancel_all_for_conversation` -/
def cancelAllForConversation (now : Time) (c : Conversation) : Conversation :=
  c.mapTurns (cancelTurn now) (cancelTurn_clientRequestId now)

/-- `clear_for_conversation` -/
def clearForConversation (now : Time) (c : Conversation) : Conversation :=
  { c.mapTurns (clearTurn now) (clearTurn_clientRequestId now) with
    control := c.control.map (fun _ =>
      { paused := false, reason := none, failedRequestId := none, pausedAt := none }) }

/-- `release_claim` -/
def releaseClaim (requestId : String) (c : Conversation) : Conversation :=
  c.modifyTurn requestId releaseTurn releaseTurn_clientRequestId

def pausedTurn (c : Conversation) : Option QueuedTurn :=
  minBy QueuedTurn.sequence (c.turns.rows.filter (fun turn => turn.status.isPaused))

/-- `resume_paused` -/
def resumePaused (c : Conversation) : Conversation :=
  match c.pausedTurn with
  | none => c
  | some turn =>
    c.modifyTurn turn.clientRequestId
      (fun row => { row with status := .running, error := none }) (fun _ => rfl)

def dispatchKey (turn : QueuedTurn) : ℕ ×ₗ ℕᵒᵈ :=
  toLex (turn.priority, OrderDual.toDual turn.sequence)

/-- `next_queued_request_id`, as a row. -/
def nextQueued (c : Conversation) : Option QueuedTurn :=
  maxBy dispatchKey (c.turns.rows.filter (fun turn => turn.status = .queued))

/-- The turn that the locked transaction of `claim_next` hands to a worker. -/
def claimable (c : Conversation) : Option QueuedTurn :=
  if c.queuePaused then none
  else if c.turns.rows.any (fun turn => turn.status.isActive) then none
  else if c.hasActiveRun then none
  else c.nextQueued

/-- The locked transaction of `claim_next`. -/
def claim (now : Time) (c : Conversation) : Conversation :=
  match c.claimable with
  | none => c
  | some turn =>
    c.modifyTurn turn.clientRequestId
      (fun row => { row with status := .running, startedAt := some now }) (fun _ => rfl)

/-- `finish` -/
def finish (now : Time) (requestId status : String) (error : Option String)
    (c : Conversation) : Conversation :=
  c.modifyTurn requestId (finishTurn now (finishStatus status) error) (fun _ => rfl)

end Conversation

end AverQel.DeepSpace
