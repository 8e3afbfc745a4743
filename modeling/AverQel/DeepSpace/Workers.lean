/- digest: Dispatchers and workers around one conversation, and its single active turn. -/
import AverQel.DeepSpace.SingleActive

namespace AverQel.DeepSpace

open Foundation Transition

/-- One conversation with the parties that work on it. -/
structure System where
  conversation : Conversation
  /-- Turns that a dispatcher has claimed and not yet handed over. -/
  claims : List String
  /-- Worker messages of the broker, which may deliver one more than once. -/
  tasks : List String
  /-- Held per-request locks. -/
  locks : List String
  /-- Workers between their start check and their report. -/
  workers : List String

namespace System

def initial : System := ⟨.empty, [], [], [], []⟩

/-- What the parties do. A `call` is a transaction of an API request or of maintenance. -/
inductive Action where
  | call (now : Time) (operation : Operation)
  | dispatch (now : Time)
  | send (requestId : String)
  | sendFailed (now : Time) (requestId : String)
  | submit (requestId : String)
  | start (requestId : String)
  | report (now : Time) (requestId status : String) (error : Option String)
  | crash (requestId : String)
  | expireLock (requestId : String)

def isServerCall : Operation → Bool
  | .claim | .releaseClaim .. | .finish .. => false
  | _ => true

/-- The transaction that an action commits. -/
def transaction (s : System) : Action → Option Call
  | .call now operation => if isServerCall operation then some ⟨now, operation⟩ else none
  | .dispatch now => some ⟨now, .claim⟩
  | .sendFailed now requestId =>
    if requestId ∈ s.claims then some ⟨now, .releaseClaim requestId⟩ else none
  | .report now requestId status error =>
    if requestId ∈ s.workers then some ⟨now, .finish requestId status error⟩ else none
  | .send _ | .submit _ | .start _ | .crash _ | .expireLock _ => none

/-- The check of `run_deepspace_task` on the turn that it reads. -/
def mayStart (s : System) (requestId : String) : Bool :=
  match s.conversation.turns.find? requestId with
  | none => true
  | some turn => turn.status.isClaimed

/-- The parties after an action. -/
def parties (s : System) : Action → System
  | .call _ _ => s
  | .dispatch _ =>
    match s.conversation.claimable with
    | none => s
    | some turn => { s with claims := turn.clientRequestId :: s.claims }
  | .send requestId =>
    if requestId ∈ s.claims then
      { s with claims := s.claims.erase requestId, tasks := requestId :: s.tasks }
    else s
  | .sendFailed _ requestId => { s with claims := s.claims.erase requestId }
  | .submit requestId => { s with tasks := requestId :: s.tasks }
  | .start requestId =>
    if requestId ∈ s.tasks ∧ requestId ∉ s.locks ∧ s.mayStart requestId = true then
      { s with locks := requestId :: s.locks, workers := requestId :: s.workers }
    else s
  | .report _ requestId _ _ =>
    if requestId ∈ s.workers then
      { s with workers := s.workers.erase requestId, locks := s.locks.erase requestId }
    else s
  | .crash requestId => { s with workers := s.workers.erase requestId }
  | .expireLock requestId =>
    if requestId ∈ s.workers then s else { s with locks := s.locks.erase requestId }

def step (s : System) (action : Action) : System :=
  { s.parties action with
    conversation :=
      match s.transaction action with
      | none => s.conversation
      | some call => DeepSpace.step s.conversation call }

theorem conversation_run (s : System) (actions : List Action) :
    ∃ calls, (run step s actions).conversation = run DeepSpace.step s.conversation calls := by
  refine run_simulation (f := conversation) (fun s action => ?_) s actions
  cases committed : s.transaction action with
  | none => exact ⟨[], by simp [step, committed, run]⟩
  | some call => exact ⟨[call], by simp [step, committed, run]⟩

def KeepsSingleActive (s : System) (action : Action) : Prop :=
  ∀ call ∈ s.transaction action, call.operation.KeepsSingleActive call.now s.conversation

theorem singleActive_step_iff {s : System} (single : s.conversation.SingleActive)
    (action : Action) :
    (s.step action).conversation.SingleActive ↔ s.KeepsSingleActive action := by
  unfold KeepsSingleActive
  cases committed : s.transaction action with
  | none => simpa [step, committed] using single
  | some call =>
    simp only [step, committed, Option.mem_some_iff, forall_eq', DeepSpace.step]
    exact Operation.singleActive_apply_iff call.now single call.operation

/-- Every state of a run has at most one active turn exactly when no step of the run writes a
paused status next to an active turn. -/
theorem single_active_turn_iff (actions : List Action) :
    (∀ s ∈ trace step initial actions, s.conversation.SingleActive) ↔
      Guarded KeepsSingleActive step initial actions :=
  forall_trace_iff_guarded (I := fun _ => True) (fun _ _ _ => trivial)
    (fun _ action _ single => singleActive_step_iff single action) trivial (by decide)

/-- The worker of `a` starts late in the grace period; before it stores its run, recovery queues
`a` again and a steered `b` is claimed; then the worker of `a` reports a question. -/
def overtakenWorker : List Action :=
  [ .call 0 (.enqueue (.plain "a" "go" false))
  , .dispatch 0
  , .send "a"
  , .start "a"
  , .call 1 (.enqueue (.plain "b" "go" true))
  , .call (staleDispatchAfter + 1) (.recoverStaleRuns staleDispatchAfter)
  , .call (staleDispatchAfter + 1) (.recoverClaims staleDispatchAfter)
  , .dispatch (staleDispatchAfter + 1)
  , .send "b"
  , .report (staleDispatchAfter + 2) "a" "awaiting_user" none ]

theorem overtaken_worker_leaves_two_active_turns :
    ¬ ∀ actions, ∀ s ∈ trace step initial actions, s.conversation.SingleActive := by
  intro always
  have two : ¬ (run step initial overtakenWorker).conversation.SingleActive := by decide
  exact two (always overtakenWorker _ (run_mem_trace step initial overtakenWorker))

end System

end AverQel.DeepSpace
