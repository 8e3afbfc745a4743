/- digest: Which transactions let a cancelled turn run again, and when a provider's stream stops. -/
import AverQel.DeepSpace.SingleActive

namespace AverQel.DeepSpace

open Foundation Transition

def Conversation.Stopped (requestId : String) (c : Conversation) : Prop :=
  c.turnStatus requestId ≠ some .queued ∧ c.turnStatus requestId ≠ some .running

instance (requestId : String) (c : Conversation) : Decidable (c.Stopped requestId) :=
  inferInstanceAs (Decidable (_ ∧ _))

def endsClaim (run : Option AgentRun) : Bool :=
  match run.map AgentRun.status with
  | some .failed | some .blocked | some .completed | some .cancelled => true
  | _ => false

theorem stopped_recoverClaim_iff (now : Time) (run : Option AgentRun) (turn : QueuedTurn) :
    ((recoverClaim now run turn).status ≠ .queued ∧ (recoverClaim now run turn).status ≠ .running)
      ↔ endsClaim run = true := by
  cases run with
  | none => simp [recoverClaim, endsClaim]
  | some run => cases status : run.status <;> simp [recoverClaim, endsClaim, status]

namespace Operation

/-- The cancel and clear transactions that find the turn in a status they act on. -/
def acceptsCancel (c : Conversation) (requestId : String) : Operation → Bool
  | requestCancel target | requestCancelByRequestId target =>
    target = requestId && (c.turnStatus requestId).any TurnStatus.isQueueable
  | cancelAllForConversation => (c.turnStatus requestId).any TurnStatus.isQueueable
  | clearForConversation =>
    (c.turnStatus requestId).any (fun status => status.isQueueable || status = .failed)
  | _ => false

/-- The transaction does not start the cancelled turn again: recovery that takes it for a stale
claim finds that its newest run has ended, and a resumption picks another turn. -/
def KeepsStopped (requestId : String) (now : Time) (c : Conversation) : Operation → Prop
  | recoverClaims staleAfter =>
    c.hasActiveRun = false →
      (c.turns.find? requestId).any (staleClaim (now - staleAfter)) = true →
        endsClaim (c.newestRunFor requestId) = true
  | resumePaused => c.pausedTurn.map QueuedTurn.clientRequestId ≠ some requestId
  | _ => True

instance (requestId : String) (now : Time) (c : Conversation) :
    ∀ op : Operation, Decidable (op.KeepsStopped requestId now c)
  | recoverClaims .. | resumePaused => by unfold KeepsStopped; infer_instance
  | enqueue .. | updateQueuedPrompt .. | retryFailed .. | promote .. | pause .. | resume
  | resumeAfterFailure | requestCancel .. | requestCancelByRequestId .. | cancelAllForConversation
  | clearForConversation | releaseClaim .. | recoverStaleRuns .. | closeStream .. | claim
  | finish .. | createRun .. | updateCheckpoint .. | heartbeat .. | recordStep ..
  | resolveApproval .. | clearPendingApproval .. | claimUserQuestion .. | requestCancelRuns
  | finishRequestedCancellations | finishRun .. | finishForRequest .. | expireStaleRun ..
  | saveMessage .. | appendEvent .. => .isTrue trivial

variable {requestId : String}

theorem turnStatus_apply (now : Time) {c : Conversation} {turn : QueuedTurn} (op : Operation)
    (found : c.turns.find? requestId = some turn) :
    (op.apply now c).turnStatus requestId = some (op.turnChange now c turn).status := by
  rw [Conversation.turnStatus, op.find?_apply now found]
  rfl

theorem stopped_of_acceptsCancel (now : Time) {c : Conversation} {op : Operation}
    (accepted : op.acceptsCancel c requestId) :
    (op.apply now c).Stopped requestId := by
  have stored : ∃ turn, c.turns.find? requestId = some turn := by
    cases found : c.turns.find? requestId with
    | some turn => exact ⟨turn, rfl⟩
    | none => cases op <;> simp [acceptsCancel, Conversation.turnStatus, found] at accepted
  obtain ⟨turn, found⟩ := stored
  have key := (Table.find?_eq_some_iff.mp found).2
  unfold Conversation.Stopped
  rw [op.turnStatus_apply now found]
  have status : c.turnStatus requestId = some turn.status := by simp [Conversation.turnStatus, found]
  cases op with
  | requestCancel target | requestCancelByRequestId target =>
    simp only [acceptsCancel, status, Option.any_some, Bool.and_eq_true, decide_eq_true_eq] at accepted
    have same : turn.clientRequestId = target := key.trans accepted.1.symm
    simp only [turnChange, if_pos same, cancelTurn_status, accepted.2, if_true]
    split <;> simp
  | cancelAllForConversation =>
    simp only [acceptsCancel, status, Option.any_some] at accepted
    simp only [turnChange, cancelTurn_status, accepted, if_true]
    split <;> simp
  | clearForConversation =>
    simp only [acceptsCancel, status, Option.any_some] at accepted
    simp only [turnChange, clearTurn_status, accepted, if_true]
    split <;> simp
  | _ => cases accepted

/-- From a stopped turn, a transaction leaves it stopped exactly under its condition. -/
theorem stopped_apply_iff (now : Time) {c : Conversation} {turn : QueuedTurn}
    (found : c.turns.find? requestId = some turn) (stopped : c.Stopped requestId) (op : Operation) :
    (op.apply now c).Stopped requestId ↔ op.KeepsStopped requestId now c := by
  obtain ⟨member, key⟩ := Table.find?_eq_some_iff.mp found
  have before_step : turn.status ≠ .queued ∧ turn.status ≠ .running := by
    simpa [Conversation.Stopped, Conversation.turnStatus, found] using stopped
  have after_step : (op.apply now c).Stopped requestId ↔
      (op.turnChange now c turn).status ≠ .queued ∧ (op.turnChange now c turn).status ≠ .running := by
    simp [Conversation.Stopped, op.turnStatus_apply now found]
  rw [after_step]
  cases idle : op.movesTurns with
  | false =>
    rw [(turnChange_sameProgress now c idle turn).status]
    refine iff_of_true before_step ?_
    cases op <;> trivial
  | true =>
    cases op with
    | recoverClaims staleAfter =>
      simp only [turnChange, KeepsStopped, found, Option.any_some, key]
      split
      · rename_i taken
        rw [stopped_recoverClaim_iff]
        exact ⟨fun ended _ _ => ended, fun condition => condition taken.1 taken.2⟩
      · rename_i left
        exact iff_of_true before_step fun noRun stale => absurd ⟨noRun, stale⟩ left
    | resumePaused =>
      simp only [turnChange, KeepsStopped, key]
      split
      · rename_i chosen
        exact iff_of_false (fun done => done.2 rfl) fun other => other chosen
      · rename_i other
        exact iff_of_true before_step other
    | requestCancel target | requestCancelByRequestId target =>
      refine iff_of_true ?_ trivial
      simp only [turnChange]
      split
      · rw [cancelTurn_status]
        split
        · split <;> simp
        · exact before_step
      · exact before_step
    | cancelAllForConversation =>
      refine iff_of_true ?_ trivial
      simp only [turnChange, cancelTurn_status]
      split
      · split <;> simp
      · exact before_step
    | clearForConversation =>
      refine iff_of_true ?_ trivial
      simp only [turnChange, clearTurn_status]
      split
      · split <;> simp
      · exact before_step
    | releaseClaim =>
      refine iff_of_true ?_ trivial
      simp only [turnChange, releaseTurn, if_neg before_step.2, ite_self]
      exact before_step
    | claim =>
      refine iff_of_true ?_ trivial
      simp only [turnChange]
      split
      · rename_i chosen
        obtain ⟨row, claimed, same⟩ := Option.map_eq_some_iff.mp chosen
        obtain ⟨rowMember, queued, _⟩ := Conversation.claimable_spec claimed
        have isRow : row = turn := c.turns.eq_of_key_eq rowMember member same
        exact absurd (isRow ▸ queued) before_step.1
      · exact before_step
    | finish target status =>
      refine iff_of_true ?_ trivial
      simp only [turnChange]
      split
      · exact TurnStatus.not_waiting_of_terminal_or_paused (finishStatus_terminal_or_paused status)
      · exact before_step
    | recoverStaleRuns staleAfter =>
      refine iff_of_true ?_ trivial
      cases target : c.isRecoveryTarget (now - staleAfter) turn.clientRequestId with
      | false =>
        rw [turnChange_recoverStaleRuns_of_not_target now staleAfter c target]
        exact before_step
      | true =>
        obtain ⟨paused, terminal, _⟩ :=
          turnChange_recoverStaleRuns_of_target now staleAfter c target
        exact TurnStatus.not_waiting_of_terminal_or_paused (by rw [terminal, paused])
    | _ => cases idle

end Operation

def KeepsStopped (requestId : String) (c : Conversation) (call : Call) : Prop :=
  call.operation.KeepsStopped requestId call.now c

instance (requestId : String) (c : Conversation) (call : Call) :
    Decidable (KeepsStopped requestId c call) := by
  delta KeepsStopped
  infer_instance

/-- After an accepted cancellation the turn stays stopped throughout exactly when no recovery
takes it for a claim without an ended run and no resumption picks it. -/
theorem cancellation_kept_iff {c : Conversation} {cancel : Call} {requestId : String}
    (accepted : cancel.operation.acceptsCancel c requestId) (later : List Call) :
    (∀ s ∈ trace step (step c cancel) later, s.Stopped requestId) ↔
      Guarded (KeepsStopped requestId) step (step c cancel) later := by
  have stopped := Operation.stopped_of_acceptsCancel cancel.now accepted
  have stored : ∃ turn, (step c cancel).turns.find? requestId = some turn := by
    cases found : c.turns.find? requestId with
    | some => exact ⟨_, cancel.operation.find?_apply cancel.now found⟩
    | none =>
      cases op : cancel.operation <;>
        simp [op, Operation.acceptsCancel, Conversation.turnStatus, found] at accepted
  refine forall_trace_iff_guarded
    (I := fun s => ∃ turn, s.turns.find? requestId = some turn) ?_ ?_ stored stopped
  · rintro s call ⟨turn, found⟩
    exact ⟨_, call.operation.find?_apply call.now found⟩
  · rintro s call ⟨turn, found⟩ stoppedBefore
    exact Operation.stopped_apply_iff call.now found stoppedBefore call.operation

/-- The turn `a` while a worker holds it. -/
def claimedConversation : Conversation :=
  run step .empty [⟨0, .enqueue (.plain "a" "go" false)⟩, ⟨0, .claim⟩]

theorem cancelled_claim_stays_stopped :
    (run step (step claimedConversation ⟨1, .requestCancel "a"⟩)
      [⟨2, .recoverStaleRuns staleDispatchAfter⟩, ⟨2, .recoverClaims staleDispatchAfter⟩,
        ⟨3, .releaseClaim "a"⟩, ⟨4, .finish "a" "cancelled" none⟩, ⟨5, .claim⟩]).Stopped "a" :=
  (cancellation_kept_iff (by decide) _).mpr (by decide) _ (run_mem_trace step _ _)

def Operation.isQueueUpkeep : Operation → Bool
  | recoverStaleRuns .. | closeStream .. | recoverClaims .. | resumeAfterFailure | claim
  | releaseClaim .. | resumePaused | finish .. => true
  | _ => false

/-- A worker that died before it stored its run: `claim_next` takes the cancelled turn for a
claim that was never started, and claims it again. -/
theorem stale_cancellation_runs_again :
    ¬ ∀ (earlier : List Call) (cancel : Call) (requestId : String) (later : List Call),
      cancel.operation.acceptsCancel (run step .empty earlier) requestId →
      (∀ call ∈ later, call.operation.isQueueUpkeep) →
      ∀ s ∈ trace step (step (run step .empty earlier) cancel) later, s.Stopped requestId := by
  intro kept
  let earlier : List Call := [⟨0, .enqueue (.plain "a" "go" false)⟩, ⟨0, .claim⟩]
  let later : List Call :=
    [⟨staleDispatchAfter + 1, .recoverStaleRuns staleDispatchAfter⟩,
      ⟨staleDispatchAfter + 1, .recoverClaims staleDispatchAfter⟩,
      ⟨staleDispatchAfter + 1, .resumeAfterFailure⟩, ⟨staleDispatchAfter + 1, .claim⟩]
  have running : ¬ (run step (step (run step .empty earlier) ⟨1, .requestCancel "a"⟩)
      later).Stopped "a" := by decide
  exact running (kept earlier ⟨1, .requestCancel "a"⟩ "a" later (by decide) (by decide) _
    (run_mem_trace step _ later))

namespace ProviderStream

inductive StreamError where
  | request (status : Nat) (noRetry rejectsImage : Bool)
  | noText
  | timeout
  | os
  | other
  deriving DecidableEq

namespace StreamError

/-- `retryable_provider_error`; a timeout and other exceptions are passed on before. -/
def retryable : StreamError → Bool
  | request status noRetry _ => !noRetry && (status = 408 || status = 429 || 500 ≤ status)
  | os => true
  | noText | timeout | other => false

def rejects : StreamError → Bool
  | request _ _ rejectsImage => rejectsImage
  | noText | timeout | os | other => false

end StreamError

/-- What the provider's iterator gives; `marker` is an item that says `runtime_cancelled` itself. -/
inductive Ready (α : Type) where
  | item (value : α)
  | marker
  | ended
  | failed (error : StreamError)

/-- A round of the loop: its start, what is ready by the end of the wait, and the answers of Redis,
which may fail, and of the run (false without a run). Times are in milliseconds. -/
structure Poll (α : Type) where
  (start now : Time)
  ready : Option (Ready α)
  redis : Option Bool
  durable : Bool

/-- A stream with its deadline, and whether the deadline of the run is over when it has failed. -/
structure Attempt (α : Type) where
  deadline : Time
  polls : List (Poll α)
  expired : Bool

inductive StreamEnd where
  | running
  | returned
  | cancelled
  | raised (error : StreamError)
  deriving DecidableEq

variable {α : Type}

def durableInterval : Time := 2000

/-- `_cancellable_provider_stream`, with the Redis client and the time of the last durable check:
the items with the times at which they were ready, and the end. -/
def cancellable (deadline : Time) :
    Bool → Time → List (Poll α) → List (α × Time) × StreamEnd
  | _, _, [] => ([], .running)
  | client, checked, poll :: rest =>
    if deadline ≤ poll.start then ([], .raised .timeout)
    else
      match poll.ready with
      | some (.item value) =>
        let later := cancellable deadline client checked rest
        ((value, poll.now) :: later.1, later.2)
      | some .marker => ([], .cancelled)
      | some .ended => ([], .returned)
      | some (.failed error) => ([], .raised error)
      | none =>
        let client' := client && poll.redis.isSome
        let checks : Bool := !client' || durableInterval ≤ poll.now - checked
        if (client && poll.redis == some true) || (checks && poll.durable) then ([], .cancelled)
        else cancellable deadline client' (if checks then poll.now else checked) rest

namespace Attempt

def stream (attempt : Attempt α) (client : Bool) : List (α × Time) × StreamEnd :=
  cancellable attempt.deadline client 0 attempt.polls

def items (attempt : Attempt α) : List α :=
  attempt.polls.filterMap fun poll =>
    match poll.ready with
    | some (.item value) => some value
    | _ => none

/-- The error is the stream's own, or its deadline is over. -/
def Raises (attempt : Attempt α) (error : StreamError) : Prop :=
  (∃ poll ∈ attempt.polls, poll.ready = some (.failed error)) ∨
    error = .timeout ∧ ∃ poll ∈ attempt.polls, attempt.deadline ≤ poll.start

end Attempt

/-- What a call has yielded, how it ends, and the streams that it has started. -/
structure Retried (α : Type) where
  yielded : List (α × Time)
  finish : StreamEnd
  attempts : List (Attempt α)
  fallback : Option (Attempt α)

def Retried.started (r : Retried α) : List (Attempt α) := r.attempts ++ r.fallback.toList

section Retries

-- the Redis client, what the fallback factory gives, and `image_fallback_no_text_message`
variable (client : Bool) (fallback : Option (Option (Attempt α))) (noTextMessage : Bool)

/-- One attempt; `again` is the rest of the loop. -/
def attemptOnce (attempt : Attempt α) (again : Option (Retried α)) : Retried α :=
  let (yielded, finish) := attempt.stream client
  let done : Retried α := ⟨yielded, finish, [attempt], none⟩
  match finish with
  | .raised error =>
    if yielded.isEmpty && error.rejects && (fallback.isSome || noTextMessage) then
      match fallback.join with
      | some other => ⟨(other.stream client).1, (other.stream client).2, [attempt], some other⟩
      | none => { done with finish := .raised .noText }
    else if yielded.isEmpty && error.retryable && !attempt.expired then
      again.elim done fun rest => { rest with attempts := attempt :: rest.attempts }
    else done
  | .running | .returned | .cancelled => done

def retryFrom (attempts : Nat → Attempt α) : Nat → Nat → Retried α
  | 0, k => attemptOnce client fallback noTextMessage (attempts k) none
  | left + 1, k =>
    attemptOnce client fallback noTextMessage (attempts k) (some (retryFrom attempts left (k + 1)))

def maxProviderStreamRetries : Nat := 2

/-- `_provider_stream_with_retry`; `attempts k` is the stream that the factory makes at its call
`k`. -/
def providerStreamWithRetry (attempts : Nat → Attempt α) : Retried α :=
  retryFrom client fallback noTextMessage attempts maxProviderStreamRetries 0

end Retries

/-- The run's flag is set at the given time. -/
def FlagSet (flag : Time) (attempt : Attempt α) : Prop :=
  ∀ poll ∈ attempt.polls, poll.durable = decide (flag ≤ poll.now)

/-- No item that is ready later than the interval after the flag. -/
def Retried.StopsBy (flag : Time) (r : Retried α) : Prop :=
  (∀ stream ∈ r.started, FlagSet flag stream) → ∀ item ∈ r.yielded, item.2 ≤ flag + durableInterval

/-- Until a round in which nothing is ready and the flag is looked up, items come in time. -/
def Pauses (client : Bool) (flag : Time) : List (Poll α) → Prop
  | [] => True
  | poll :: rest =>
    match poll.ready with
    | some (.item _) => poll.now ≤ flag + durableInterval ∧ Pauses client flag rest
    | none => (flag ≤ poll.now ∧ (client = false ∨ poll.redis ≠ some false ∨
        flag + durableInterval ≤ poll.now)) ∨ Pauses client flag rest
    | some .marker | some .ended | some (.failed _) => True

namespace Attempt

theorem Raises.cons {deadline : Time} {poll : Poll α} {rest : List (Poll α)} {expired : Bool}
    {error : StreamError} : Raises ⟨deadline, rest, expired⟩ error →
      Raises ⟨deadline, poll :: rest, expired⟩ error := by
  rintro (⟨other, later, ready⟩ | ⟨rfl, other, later, late⟩)
  · exact .inl ⟨other, List.mem_cons_of_mem _ later, ready⟩
  · exact .inr ⟨rfl, other, List.mem_cons_of_mem _ later, late⟩

theorem prefix_stream (attempt : Attempt α) (client : Bool) :
    (attempt.stream client).1.map Prod.fst <+: attempt.items := by
  obtain ⟨deadline, polls, expired⟩ := attempt
  dsimp only [stream, items]
  fun_induction cancellable deadline client 0 polls with
  | case3 client checked poll rest open_ value ready later ih => simpa [ready] using ih
  | case8 client checked poll rest open_ ready client' checks stays ih => simpa [ready] using ih
  | _ => exact List.nil_prefix

theorem raises_of_stream {attempt : Attempt α} {client : Bool} {error : StreamError}
    (ends : (attempt.stream client).2 = .raised error) : attempt.Raises error := by
  obtain ⟨deadline, polls, expired⟩ := attempt
  dsimp only [stream] at ends
  generalize (0 : Time) = checked at ends
  fun_induction cancellable deadline client checked polls with
  | case2 client checked poll rest late =>
    exact .inr ⟨(StreamEnd.raised.inj ends).symm, poll, List.mem_cons_self, late⟩
  | case6 client checked poll rest open_ own ready =>
    cases ends
    exact .inl ⟨poll, List.mem_cons_self, ready⟩
  | case3 client checked poll rest open_ value ready later ih => exact (ih ends).cons
  | case8 client checked poll rest open_ ready client' checks stays ih => exact (ih ends).cons
  | _ => cases ends

end Attempt

theorem stops_cancellable {deadline flag checked : Time} {had client : Bool}
    {polls : List (Poll α)} (kept : client = true → had = true) (before : checked ≤ flag)
    (set : ∀ poll ∈ polls, poll.durable = decide (flag ≤ poll.now))
    (pauses : Pauses had flag polls) :
    ∀ item ∈ (cancellable deadline client checked polls).1, item.2 ≤ flag + durableInterval := by
  fun_induction cancellable deadline client checked polls with
  | case3 client checked poll rest open_ value ready later ih =>
    rw [Pauses, ready] at pauses
    have others := ih kept before (List.forall_mem_of_forall_mem_cons set) pauses.2
    exact List.forall_mem_cons.mpr ⟨pauses.1, others⟩
  | case8 client checked poll rest open_ ready client' checks stays ih =>
    have durable := set poll List.mem_cons_self
    rw [Pauses, ready] at pauses
    have cleared : checks = true → poll.now < flag := fun looks => by
      by_contra late
      exact stays (by simp [looks, durable, Int.not_lt.mp late])
    refine ih (fun has => kept (Bool.and_elim_left has)) ?_
      (List.forall_mem_of_forall_mem_cons set) (pauses.resolve_left ?_)
    · split
      · exact (cleared ‹_›).le
      · exact before
    · rintro ⟨late, looked⟩
      have unchecked : checks = false := by grind
      rcases answer : poll.redis with _ | _ | _ <;> grind
  | _ => exact fun _ none => absurd none List.not_mem_nil

variable (client : Bool) (fallback : Option (Option (Attempt α))) (noTextMessage : Bool)

/-- The call shows one stream, the last that it has started. -/
structure Retried.Shows (client : Bool) (fallback : Option (Option (Attempt α))) (bound : Nat)
    (r : Retried α) (last : Attempt α) : Prop where
  last_started : r.started.getLast? = some last
  few : r.attempts.length ≤ bound
  yielded : r.yielded = (last.stream client).1
  finish : r.finish = (last.stream client).2 ∨ r.finish = .raised .noText ∧ fallback.join = none

theorem shows_attemptOnce {bound : Nat} {again : Option (Retried α)} (attempt : Attempt α)
    (rest : ∀ r ∈ again, ∃ last, r.Shows client fallback bound last) :
    ∃ last, (attemptOnce client fallback noTextMessage attempt again).Shows client fallback
      (bound + 1) last := by
  have done (finish : StreamEnd) (own : finish = (attempt.stream client).2 ∨
      finish = .raised .noText ∧ fallback.join = none) : Retried.Shows client fallback (bound + 1)
        ⟨(attempt.stream client).1, finish, [attempt], none⟩ attempt := ⟨rfl, by simp, rfl, own⟩
  unfold attemptOnce
  dsimp only
  split
  · split
    · split
      · exact ⟨_, rfl, by simp, rfl, .inl rfl⟩
      · exact ⟨attempt, done _ (.inr ⟨rfl, ‹_›⟩)⟩
    · split
      · cases again with
        | none => exact ⟨attempt, done _ (.inl rfl)⟩
        | some r =>
          obtain ⟨last, shows⟩ := rest r rfl
          refine ⟨last, ?_, Nat.succ_le_succ shows.few, shows.yielded, shows.finish⟩
          change (attempt :: r.started).getLast? = some last
          rw [List.getLast?_cons, shows.last_started, Option.getD_some]
      · exact ⟨attempt, done _ (.inl rfl)⟩
  all_goals exact ⟨attempt, done _ (.inl rfl)⟩

theorem shows_retryFrom (attempts : Nat → Attempt α) (left k : Nat) :
    ∃ last, (retryFrom client fallback noTextMessage attempts left k).Shows client fallback
      (left + 1) last := by
  induction left generalizing k with
  | zero => exact shows_attemptOnce client fallback noTextMessage _ fun _ none => by cases none
  | succ left ih =>
    refine shows_attemptOnce client fallback noTextMessage _ fun r again => ?_
    cases again
    exact ih (k + 1)

def producing : Attempt String where
  deadline := 300000
  polls := [⟨0, 1000, some (.item "a"), none, true⟩, ⟨1000, 2000, some (.item "b"), none, true⟩,
    ⟨2000, 3000, some (.item "c"), none, true⟩]
  expired := false

end ProviderStream

end AverQel.DeepSpace
