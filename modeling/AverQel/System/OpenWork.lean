/- digest: Whether a conversation is archived while its queue or its runs still have work. -/
import AverQel.DeepSpace.Operations
import AverQel.System.ItemOrigins

namespace AverQel.DeepSpace

/-- The text of a turn status in its column. -/
def TurnStatus.name : TurnStatus → String
  | queued => "queued"
  | running => "running"
  | cancelling => "cancelling"
  | awaitingUser => "awaiting_user"
  | awaitingApproval => "awaiting_approval"
  | completed => "completed"
  | cancelled => "cancelled"
  | failed => "failed"

/-- The text of a run status in its column. -/
def RunStatus.name : RunStatus → String
  | running => "running"
  | awaitingUser => "awaiting_user"
  | awaitingApproval => "awaiting_approval"
  | cancelling => "cancelling"
  | ready => "ready"
  | completed => "completed"
  | failed => "failed"
  | cancelled => "cancelled"
  | blocked => "blocked"
  | other name => name

/-- `PROTECTED_RUN_STATUSES` -/
def protectedRunStatuses : List String :=
  ["running", "cancelling", "awaiting_approval", "awaiting_user", "blocked", "failed"]

/-- `PROTECTED_QUEUE_STATUSES`; no turn ever is in status `stopping`. -/
def protectedQueueStatuses : List String := ["queued", "running", "stopping", "failed"]

theorem TurnStatus.protected_iff (status : TurnStatus) : status.name ∈ protectedQueueStatuses ↔
    status = .queued ∨ status = .running ∨ status = .failed := by
  cases status <;> simp [name, protectedQueueStatuses]

theorem RunStatus.protected_of_isActive {status : RunStatus} (active : status.isActive) :
    status.name ∈ protectedRunStatuses := by
  cases status with
  | running | awaitingUser | awaitingApproval | cancelling => simp [name, protectedRunStatuses]
  | ready | completed | failed | cancelled | blocked | other => cases active

/-- What the tables beside the queue and the runs say about the use of a conversation. -/
structure OtherUse where
  (unresolvedEvent linkedActiveEvent activeUpload activeArtifactJob referencedArtifact : Bool)
  activeSchedule : Bool
  deriving DecidableEq, Repr

namespace Conversation

variable (c : Conversation)

/-- The queries of `_protection_reason` on one conversation. -/
def facts (other : OtherUse) : System.ConversationFacts where
  unresolvedEvent := other.unresolvedEvent
  linkedActiveEvent := other.linkedActiveEvent
  activeRun := c.runs.rows.any fun run => run.status.name ∈ protectedRunStatuses
  activeQueue := c.turns.rows.any fun turn => turn.status.name ∈ protectedQueueStatuses
  pausedQueue := c.queuePaused
  activeUpload := other.activeUpload
  activeArtifactJob := other.activeArtifactJob
  referencedArtifact := other.referencedArtifact
  activeSchedule := other.activeSchedule

def continues (turn : QueuedTurn) : Bool :=
  turn.status.isQueueable ||
    (turn.status = .failed && (c.existingRetry turn.clientRequestId).isNone)

def OpenWork : Prop :=
  (∃ turn ∈ c.turns.rows, c.continues turn) ∨ ∃ run ∈ c.runs.rows, run.status.isActive

instance : Decidable c.OpenWork := inferInstanceAs (Decidable (_ ∨ _))

def HeldTurn : Prop :=
  ∃ turn ∈ c.turns.rows, turn.status = .cancelling ∨ turn.status.isPaused

instance : Decidable c.HeldTurn := inferInstanceAs (Decidable (∃ _ ∈ _, _ ∨ _))

variable {c}

theorem heldTurn_of_reason_eq_none {other : OtherUse} (free : (c.facts other).reason = none)
    (open_ : c.OpenWork) : c.HeldTurn := by
  have unused := System.ConversationFacts.idle_of_reason_eq_none free
  rcases open_ with ⟨turn, member, continues⟩ | ⟨run, member, active⟩
  · have unlisted := List.any_eq_false.mp unused.2 turn member
    rw [decide_eq_true_eq, TurnStatus.protected_iff] at unlisted
    refine ⟨turn, member, ?_⟩
    simp only [Conversation.continues] at continues
    cases status : turn.status with
    | queued | running | failed => simp [status] at unlisted
    | completed | cancelled => simp [status, TurnStatus.isQueueable] at continues
    | cancelling => exact .inl rfl
    | awaitingUser | awaitingApproval => exact .inr rfl
  · have unlisted := List.any_eq_false.mp unused.1 run member
    rw [decide_eq_true_eq] at unlisted
    exact absurd (RunStatus.protected_of_isActive active) unlisted

end Conversation

end AverQel.DeepSpace

namespace AverQel.System

open DeepSpace (Conversation OtherUse)
open Foundation Transition

theorem LifecycleStore.unused_of_unprotected {s : LifecycleStore}
    {conversations : ConversationIndex} {item : LifecycleItem} {tenantId : Uuid} {now : Time}
    (free : s.protectionReason conversations item tenantId now = none)
    (isConversation : item.source.sourceType = "conversation") :
    ∃ facts ∈ conversations tenantId item.source.sourceId, facts.reason = none := by
  simp only [protectionReason] at free
  split_ifs at free
  cases found : conversations tenantId item.source.sourceId with
  | none =>
    rw [found] at free
    cases free
  | some facts =>
    rw [found] at free
    exact ⟨facts, rfl, free⟩

structure Workspace where
  conversations : Uuid → Uuid → Conversation
  lifecycle : LifecycleStore

inductive WorkspaceCall where
  | conversation (tenantId conversationId : Uuid) (call : DeepSpace.Call)
  | lifecycle (now : Time) (other : Uuid → Uuid → OtherUse) (operation : LifecycleOperation)

namespace Workspace

variable (parse : String → Option Uuid) (w : Workspace)

/-- What `_protection_reason` finds out about the conversation of a source id. -/
def index (other : Uuid → Uuid → OtherUse) : ConversationIndex := fun tenantId sourceId =>
  (parse sourceId).map fun id => (w.conversations tenantId id).facts (other tenantId id)

def lifecycleCall (now : Time) (other : Uuid → Uuid → OtherUse) (operation : LifecycleOperation) :
    LifecycleCall :=
  ⟨now, w.index parse other, operation⟩

def step : WorkspaceCall → Workspace
  | .conversation tenantId conversationId call =>
    { w with
      conversations := Function.update w.conversations tenantId
        (Function.update (w.conversations tenantId) conversationId
          (DeepSpace.step (w.conversations tenantId conversationId) call)) }
  | .lifecycle now other operation =>
    { w with lifecycle := w.lifecycle.step (w.lifecycleCall parse now other operation) }

def taken : WorkspaceCall → List LifecycleItem
  | .conversation .. => []
  | .lifecycle now other operation => w.lifecycle.taken (w.lifecycleCall parse now other operation)

/-- The conversation of an item satisfies `p`. -/
def ConversationOf (p : Conversation → Prop) (item : LifecycleItem) : Prop :=
  item.source.sourceType = "conversation" ∧
    ∃ id ∈ parse item.source.sourceId, p (w.conversations item.source.tenantId id)

def SparesOpenWork (call : WorkspaceCall) : Prop :=
  ∀ row ∈ (w.step parse call).lifecycle.items.rows, row.state = .archived →
    (∀ item ∈ w.lifecycle.items.rows, item.id = row.id → item.state ≠ .archived) →
    ¬ w.ConversationOf parse Conversation.OpenWork row

def TakesNoHeldTurn (call : WorkspaceCall) : Prop :=
  ∀ item ∈ w.taken parse call, ¬ w.ConversationOf parse Conversation.HeldTurn item

instance (p : Conversation → Prop) [DecidablePred p] (item : LifecycleItem) :
    Decidable (w.ConversationOf parse p item) :=
  inferInstanceAs (Decidable (_ ∧ ∃ id ∈ parse item.source.sourceId, _))

instance (call : WorkspaceCall) : Decidable (w.SparesOpenWork parse call) :=
  inferInstanceAs (Decidable (∀ row ∈ _, _ → _ → ¬ _))

instance (call : WorkspaceCall) : Decidable (w.TakesNoHeldTurn parse call) :=
  inferInstanceAs (Decidable (∀ item ∈ _, ¬ _))

variable {parse w}

theorem sparesOpenWork_of_takesNoHeldTurn {call : WorkspaceCall}
    (guard : w.TakesNoHeldTurn parse call) : w.SparesOpenWork parse call := by
  cases call with
  | conversation =>
    intro row member archived fresh
    exact absurd archived (fresh row member rfl)
  | lifecycle now other operation =>
    intro row member archived fresh conversation
    obtain ⟨isConversation, id, parsed, open_⟩ := conversation
    let call := w.lifecycleCall parse now other operation
    cases (w.lifecycle.follows_step call).rows row member with
    | observed seen =>
      cases seen with
      | active state =>
        rw [state] at archived
        cases archived
      | kept item stored sameId source state =>
        exact absurd (state.trans archived) (fresh item stored sameId)
    | marked state =>
      rw [state] at archived
      cases archived
    | archived item stored sameId source was _ _ taken =>
      have free : w.lifecycle.protectionReason call.conversations item item.source.tenantId
          call.now = none := LifecycleStore.unprotected_of_taken taken
      rw [← source] at isConversation parsed open_
      obtain ⟨facts, found, unused⟩ :=
        LifecycleStore.unused_of_unprotected free isConversation
      have itsFacts : (w.conversations item.source.tenantId id).facts
          (other item.source.tenantId id) = facts := by
        have mapped : (parse item.source.sourceId).map (fun id =>
            (w.conversations item.source.tenantId id).facts (other item.source.tenantId id)) =
              some facts := found
        rw [Option.mem_def.mp parsed] at mapped
        exact Option.some.inj mapped
      rw [← itsFacts] at unused
      exact guard item taken
        ⟨isConversation, id, parsed, DeepSpace.Conversation.heldTurn_of_reason_eq_none unused open_⟩

def fresh (retention : Uuid → Option RetentionSetting) : Workspace :=
  ⟨fun _ _ => .empty, LifecycleStore.fresh retention⟩

/-- In every run of the queue, the runs and the index, no conversation with open work is archived
when none is taken that has a turn in a status that the protections leave out. -/
theorem open_work_spared_of_takesNoHeldTurn (parse : String → Option Uuid)
    (retention : Uuid → Option RetentionSetting) (calls : List WorkspaceCall)
    (guard : Guarded (TakesNoHeldTurn parse) (step parse) (fresh retention) calls) :
    Guarded (SparesOpenWork parse) (step parse) (fresh retention) calls := by
  refine (guarded_iff_of_guarded (I := fun _ => True) (fun _ _ _ _ => trivial) ?_ trivial
    guard).mpr (guarded_true (step parse) (fresh retention) calls)
  intro w call _ held
  exact iff_of_true (sparesOpenWork_of_takesNoHeldTurn held) trivial

def readId (text : String) : Option Uuid := if text = "conversation-9" then some 9 else none

def unusedElsewhere : Uuid → Uuid → OtherUse := fun _ _ =>
  ⟨false, false, false, false, false, false⟩

def markedConversation : List WorkspaceCall :=
  [ .lifecycle 0 unusedElsewhere (.recordActivity 5
      ⟨⟨1, "chat_history", "conversation", "conversation-9"⟩, "conversation_created", 10, some 2,
        none, none, none, none, false⟩)
  , .lifecycle (31 * day) unusedElsewhere (.preview 1 6) ]

def archiveConversation : WorkspaceCall :=
  .lifecycle (31 * day) unusedElsewhere (.archiveItem 1 5 2 false)

def monthlyRetention : Uuid → Option RetentionSetting := fun _ => some ⟨"30", 1⟩

/-- A conversation without work is archived. -/
theorem idle_conversation_archived :
    Guarded (SparesOpenWork readId) (step readId) (fresh monthlyRetention)
      (markedConversation ++ [archiveConversation]) :=
  open_work_spared_of_takesNoHeldTurn readId monthlyRetention _ (by decide +kernel)

/-- A turn is claimed and then cancelled before its worker has stored a run; the conversation is
archived while the turn is still `cancelling`. -/
theorem cancelling_turn_archived :
    ¬ ∀ (retention : Uuid → Option RetentionSetting) (calls : List WorkspaceCall),
      Guarded (SparesOpenWork readId) (step readId) (fresh retention) calls := by
  intro always
  let request : DeepSpace.EnqueueRequest := .plain "a" "Summarise" false
  let calls : List WorkspaceCall := markedConversation ++
    [ .conversation 1 9 ⟨31 * day, .enqueue request⟩
    , .conversation 1 9 ⟨31 * day, .claim⟩
    , .conversation 1 9 ⟨31 * day, .requestCancel "a"⟩
    , archiveConversation ]
  have archived : ¬ Guarded (SparesOpenWork readId) (step readId) (fresh monthlyRetention)
      calls := by decide +kernel
  exact archived (always monthlyRetention calls)

end Workspace

end AverQel.System
