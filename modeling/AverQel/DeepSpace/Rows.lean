/- digest: The durable rows of one conversation: queued turns, agent runs, messages, events. -/
import AverQel.Base
import AverQel.Foundation.Table
import AverQel.Foundation.Text

namespace AverQel.DeepSpace

open Foundation

inductive TurnStatus where
  | queued
  | running
  | cancelling
  | awaitingUser
  | awaitingApproval
  | completed
  | cancelled
  | failed
  deriving DecidableEq, Repr

namespace TurnStatus

/-- `QUEUEABLE_STATUSES` -/
def isQueueable : TurnStatus → Bool
  | queued | running | cancelling | awaitingUser | awaitingApproval => true
  | completed | cancelled | failed => false

/-- `QUEUE_VISIBLE_STATUSES` -/
def isVisible : TurnStatus → Bool
  | queued | awaitingUser | awaitingApproval | failed => true
  | running | cancelling | completed | cancelled => false

/-- `ACTIVE_QUEUE_STATUSES` -/
def isActive : TurnStatus → Bool
  | running | cancelling | awaitingUser | awaitingApproval => true
  | queued | completed | cancelled | failed => false

/-- `TERMINAL_QUEUE_STATUSES` -/
def isTerminal : TurnStatus → Bool
  | completed | cancelled | failed => true
  | queued | running | cancelling | awaitingUser | awaitingApproval => false

/-- `PAUSED_QUEUE_STATUSES` -/
def isPaused : TurnStatus → Bool
  | awaitingUser | awaitingApproval => true
  | queued | running | cancelling | completed | cancelled | failed => false

def isClaimed : TurnStatus → Bool
  | running | cancelling => true
  | queued | awaitingUser | awaitingApproval | completed | cancelled | failed => false

end TurnStatus

/-- Statuses of an agent run; `other` is any text that no code compares against. -/
inductive RunStatus where
  | running
  | awaitingUser
  | awaitingApproval
  | cancelling
  | ready
  | completed
  | failed
  | cancelled
  | blocked
  | other (name : String)
  deriving DecidableEq, Repr

namespace RunStatus

def ofString : String → RunStatus
  | "running" => running
  | "awaiting_user" => awaitingUser
  | "awaiting_approval" => awaitingApproval
  | "cancelling" => cancelling
  | "ready" => ready
  | "completed" => completed
  | "failed" => failed
  | "cancelled" => cancelled
  | "blocked" => blocked
  | name => other name

/-- `ACTIVE_RUN_STATUSES` -/
def isActive : RunStatus → Bool
  | running | awaitingUser | awaitingApproval | cancelling => true
  | ready | completed | failed | cancelled | blocked | other _ => false

/-- `WORKER_RUN_STATUSES` -/
def isWorker : RunStatus → Bool
  | running | cancelling => true
  | awaitingUser | awaitingApproval | ready | completed | failed | cancelled | blocked
  | other _ => false

end RunStatus

/-- `deepspace_queued_turns` -/
structure QueuedTurn where
  clientRequestId : String
  regenerateMessageId : Option Uuid
  resumeFromRequestId : Option String
  prompt : String
  (priority sequence : Nat)
  thinkingEnabled : Bool
  reasoningEffort : Option String
  (roles permissions attachmentFileIds : List String)
  status : TurnStatus
  error : Option String
  (startedAt completedAt : Option Time)
  deriving DecidableEq, Repr

structure PendingApproval where
  approvalId : String
  decision : Option String
  resolvedAt : Option Time
  deriving DecidableEq, Repr

structure PendingUserQuestion where
  questionId : String
  answer : Option String
  answerSubmittedAt : Option Time
  deriving DecidableEq, Repr

/-- The members of a run checkpoint that the stores read or write. -/
structure Checkpoint where
  (status phase clientRequestId : Option String)
  pendingApproval : Option PendingApproval
  pendingUserQuestion : Option PendingUserQuestion
  deriving DecidableEq, Repr

/-- `deepspace_agent_runs` -/
structure AgentRun where
  id : Uuid
  assistantMessageId : Option Uuid
  status : RunStatus
  cancelRequested : Bool
  (stepCount lastSequence : Nat)
  checkpoint : Checkpoint
  lastError : Option String
  updatedAt : Time
  heartbeatAt : Option Time
  deriving DecidableEq, Repr

inductive MessageRole where
  | user
  | assistant
  deriving DecidableEq, Repr

/-- The members of `metadata_json` that the stores read or write. -/
structure MessageMetadata where
  (clientRequestId status : Option String)
  runtimeActive : Bool
  (errorCode errorMessage : Option String)
  deriving DecidableEq, Repr

structure Message where
  id : Uuid
  role : MessageRole
  metadata : MessageMetadata
  deriving DecidableEq, Repr

inductive EventName where
  | done
  | error
  | other (name : String)
  deriving DecidableEq, Repr

/-- `is_terminal_event` -/
def EventName.isTerminal : EventName → Bool
  | done | error => true
  | other _ => false

/-- `deepspace_run_events`; `frameStatus` is the `status` member of the payload of the stored
frame, `none` when the payload does not parse or has no such member. -/
structure RunEvent where
  clientRequestId : String
  sequence : Nat
  eventName : EventName
  frameStatus : Option String
  createdAt : Time
  deriving DecidableEq, Repr

/-- `deepspace_queue_controls` -/
structure QueueControl where
  paused : Bool
  (reason failedRequestId : Option String)
  pausedAt : Option Time
  deriving DecidableEq, Repr

/-- Everything durable about one conversation of one user. -/
structure Conversation where
  turns : Table QueuedTurn QueuedTurn.clientRequestId
  runs : Table AgentRun AgentRun.id
  messages : Table Message Message.id
  events : List RunEvent
  control : Option QueueControl

namespace Conversation

def empty : Conversation := ⟨.empty, .empty, .empty, [], none⟩

def turnStatus (c : Conversation) (requestId : String) : Option TurnStatus :=
  (c.turns.find? requestId).map QueuedTurn.status

def SingleActive (c : Conversation) : Prop :=
  (c.turns.rows.filter (fun turn => turn.status.isActive)).length ≤ 1

instance (c : Conversation) : Decidable c.SingleActive :=
  inferInstanceAs (Decidable (_ ≤ _))

end Conversation

theorem TurnStatus.not_isActive_of_isTerminal {s : TurnStatus} (h : s.isTerminal) :
    s.isActive = false := by
  cases s <;> first | rfl | cases h

theorem TurnStatus.isActive_of_isPaused {s : TurnStatus} (h : s.isPaused) : s.isActive := by
  cases s <;> first | rfl | cases h

theorem TurnStatus.isActive_of_isClaimed {s : TurnStatus} (h : s.isClaimed) : s.isActive := by
  cases s <;> first | rfl | cases h

theorem TurnStatus.not_isTerminal_of_isClaimed {s : TurnStatus} (claimed : s.isClaimed) :
    ¬ s.isTerminal := by
  intro ended
  have active := TurnStatus.isActive_of_isClaimed claimed
  rw [TurnStatus.not_isActive_of_isTerminal ended] at active
  cases active

end AverQel.DeepSpace
