/- digest: The status changes of one stored turn, transaction by transaction. -/
import AverQel.DeepSpace.Operations

namespace AverQel.DeepSpace

open Foundation

/-- The newest terminal frame is a `done` frame that reports a pause. -/
def reportsPause : Option RunEvent → Bool
  | none => false
  | some event =>
    event.eventName ≠ .error &&
      (reportedTurnStatus (reportedRunStatus event.frameStatus)).isPaused

structure SameProgress (turn turn' : QueuedTurn) : Prop where
  status : turn'.status = turn.status
  startedAt : turn'.startedAt = turn.startedAt
  completedAt : turn'.completedAt = turn.completedAt

theorem SameProgress.refl (turn : QueuedTurn) : SameProgress turn turn := ⟨rfl, rfl, rfl⟩

structure SameOrigin (turn turn' : QueuedTurn) : Prop where
  resumeFromRequestId : turn'.resumeFromRequestId = turn.resumeFromRequestId
  sequence : turn'.sequence = turn.sequence

theorem reportedTurnStatus_terminal_or_paused (status : RunStatus) :
    (reportedTurnStatus status).isTerminal = !(reportedTurnStatus status).isPaused := by
  cases status <;> rfl

theorem finishStatus_terminal_or_paused (status : String) :
    (finishStatus status).isTerminal = !(finishStatus status).isPaused := by
  unfold finishStatus
  split <;> rfl

theorem TurnStatus.isActive_eq_isPaused {s : TurnStatus} (h : s.isTerminal = !s.isPaused) :
    s.isActive = s.isPaused := by
  cases s <;> first | rfl | cases h

theorem TurnStatus.not_waiting_of_terminal_or_paused {s : TurnStatus}
    (h : s.isTerminal = !s.isPaused) : s ≠ .queued ∧ s ≠ .running := by
  cases s <;> simp [isTerminal, isPaused] at h ⊢

theorem recoverEndedTurn_outcome (now : Time) (event : Option RunEvent) (run : AgentRun)
    (turn : QueuedTurn) :
    (recoverEndedTurn now event run turn).status.isPaused = reportsPause event ∧
    (recoverEndedTurn now event run turn).status.isTerminal = !reportsPause event ∧
    (reportsPause event = false →
      (recoverEndedTurn now event run turn).completedAt = some now) := by
  cases event with
  | none =>
    simp only [recoverEndedTurn, reportsPause]
    split <;> exact ⟨rfl, rfl, fun _ => rfl⟩
  | some event =>
    simp only [recoverEndedTurn, reportsPause]
    by_cases failed : event.eventName = .error
    · simp [failed, TurnStatus.isPaused, TurnStatus.isTerminal]
    · have split_status := reportedTurnStatus_terminal_or_paused (reportedRunStatus event.frameStatus)
      simp only [failed, if_false, ne_eq, not_false_eq_true, decide_true, Bool.true_and]
      refine ⟨trivial, split_status, ?_⟩
      intro notPaused
      simp [split_status, notPaused]

namespace Conversation

def isRecoveryTarget (c : Conversation) (cutoff : Time) (requestId : String) : Bool :=
  (c.staleRuns cutoff).any (fun run => c.recoveryTarget cutoff run = some requestId)

def revives (c : Conversation) (cutoff : Time) (requestId : String) : Bool :=
  c.isRecoveryTarget cutoff requestId && reportsPause (c.newestTerminalEvent requestId)

theorem ended_of_isRecoveryTarget {c : Conversation} {cutoff : Time} {turn : QueuedTurn}
    (member : turn ∈ c.turns.rows) (target : c.isRecoveryTarget cutoff turn.clientRequestId) :
    turn.status.isTerminal ∧ before turn.completedAt cutoff := by
  simp only [isRecoveryTarget, List.any_eq_true, decide_eq_true_eq] at target
  obtain ⟨run, _, hrun⟩ := target
  obtain ⟨_, ended⟩ := Option.filter_eq_some_iff.mp hrun
  have here := Table.find?_eq_some_iff.mpr ⟨member, rfl⟩
  simpa [endedTurn, here, Option.isSome_filter] using ended

theorem recoverEndedTurnLoop_of_no_target {now cutoff : Time} {c : Conversation}
    {runs : List AgentRun} {turn : QueuedTurn}
    (h : ∀ run ∈ runs, c.recoveryTarget cutoff run ≠ some turn.clientRequestId) :
    c.recoverEndedTurnLoop now cutoff runs turn = turn := by
  unfold recoverEndedTurnLoop
  induction runs with
  | nil => rfl
  | cons run runs ih =>
    rw [List.foldl_cons, if_neg (h run List.mem_cons_self)]
    exact ih fun other member => h other (List.mem_cons_of_mem _ member)

theorem recoverEndedTurnLoop_of_target {now cutoff : Time} {c : Conversation}
    {runs : List AgentRun} {turn : QueuedTurn}
    (h : ∃ run ∈ runs, c.recoveryTarget cutoff run = some turn.clientRequestId) :
    ∃ run prior, c.recoverEndedTurnLoop now cutoff runs turn =
      recoverEndedTurn now (c.newestTerminalEvent turn.clientRequestId) run prior := by
  induction runs using List.reverseRecOn with
  | nil =>
    obtain ⟨_, member, _⟩ := h
    cases member
  | append_singleton runs run ih =>
    have key := c.recoverEndedTurnLoop_clientRequestId now cutoff runs turn
    have unfolded : c.recoverEndedTurnLoop now cutoff (runs ++ [run]) turn =
        c.recoverEndedTurnLoop now cutoff [run] (c.recoverEndedTurnLoop now cutoff runs turn) :=
      List.foldl_append
    rw [unfolded]
    by_cases last : c.recoveryTarget cutoff run = some turn.clientRequestId
    · refine ⟨run, c.recoverEndedTurnLoop now cutoff runs turn, ?_⟩
      change (if c.recoveryTarget cutoff run = some (c.recoverEndedTurnLoop now cutoff runs
        turn).clientRequestId then _ else _) = _
      rw [key, if_pos last]
    · have idle : c.recoverEndedTurnLoop now cutoff [run]
          (c.recoverEndedTurnLoop now cutoff runs turn) =
          c.recoverEndedTurnLoop now cutoff runs turn :=
        recoverEndedTurnLoop_of_no_target (by simpa [key] using last)
      rw [idle]
      apply ih
      obtain ⟨other, member, target⟩ := h
      rcases List.mem_append.mp member with earlier | here
      · exact ⟨other, earlier, target⟩
      · rw [List.mem_singleton.mp here] at target
        exact absurd target last

end Conversation

namespace Operation

def movesTurns : Operation → Bool
  | requestCancel .. | requestCancelByRequestId .. | cancelAllForConversation
  | clearForConversation | releaseClaim .. | recoverStaleRuns .. | recoverClaims ..
  | resumePaused | claim | finish .. => true
  | _ => false

theorem turnChange_sameProgress (now : Time) (c : Conversation) {op : Operation}
    (idle : op.movesTurns = false) (turn : QueuedTurn) :
    SameProgress turn (op.turnChange now c turn) := by
  cases op with
  | updateQueuedPrompt | promote =>
    simp only [turnChange]
    split <;> exact ⟨rfl, rfl, rfl⟩
  | requestCancel | requestCancelByRequestId | cancelAllForConversation | clearForConversation
  | releaseClaim | recoverStaleRuns | recoverClaims | resumePaused | claim | finish => cases idle
  | _ => exact .refl turn

theorem turnChange_recoverStaleRuns_of_not_target (now staleAfter : Time) (c : Conversation)
    {turn : QueuedTurn}
    (h : c.isRecoveryTarget (now - staleAfter) turn.clientRequestId = false) :
    (recoverStaleRuns staleAfter).turnChange now c turn = turn := by
  refine c.recoverEndedTurnLoop_of_no_target fun run member => ?_
  have all := List.any_eq_false.mp h run member
  simpa using all

theorem turnChange_recoverStaleRuns_of_target (now staleAfter : Time) (c : Conversation)
    {turn : QueuedTurn} (h : c.isRecoveryTarget (now - staleAfter) turn.clientRequestId) :
    let turn' := (recoverStaleRuns staleAfter).turnChange now c turn
    let pause := reportsPause (c.newestTerminalEvent turn.clientRequestId)
    turn'.status.isPaused = pause ∧ turn'.status.isTerminal = !pause ∧
      (pause = false → turn'.completedAt = some now) := by
  obtain ⟨run, member, target⟩ := List.any_eq_true.mp h
  obtain ⟨last, prior, shape⟩ : ∃ last prior,
      c.recoverEndedTurnLoop now (now - staleAfter) (c.staleRuns (now - staleAfter)) turn =
        recoverEndedTurn now (c.newestTerminalEvent turn.clientRequestId) last prior :=
    c.recoverEndedTurnLoop_of_target ⟨run, member, by simpa using target⟩
  simp only [turnChange, shape]
  exact recoverEndedTurn_outcome now _ last prior

end Operation

theorem cancelTurn_status (now : Time) (turn : QueuedTurn) :
    (cancelTurn now turn).status =
      if turn.status.isQueueable then
        if turn.status = .queued || turn.status.isPaused then .cancelled else .cancelling
      else turn.status := by
  unfold cancelTurn
  split
  · split <;> rfl
  · rfl

theorem clearTurn_status (now : Time) (turn : QueuedTurn) :
    (clearTurn now turn).status =
      if turn.status.isQueueable || turn.status = .failed then
        if turn.status.isActive then .cancelling else .cancelled
      else turn.status := by
  unfold clearTurn
  split
  · split <;> rfl
  · rfl

theorem recoverClaim_status (now : Time) (run : Option AgentRun) (turn : QueuedTurn) :
    (recoverClaim now run turn).status =
      match run.map AgentRun.status with
      | some .failed | some .blocked => .failed
      | some .completed => .completed
      | some .cancelled => .cancelled
      | _ => .queued := by
  cases run with
  | none => rfl
  | some run => cases h : run.status <;> simp [recoverClaim, h]

def EndsAt (now : Time) (turn turn' : QueuedTurn) : Prop :=
  turn'.status.isTerminal →
    (turn.status.isTerminal ∧ turn'.completedAt = turn.completedAt) ∨ turn'.completedAt = some now

/-- What every transaction leaves of a stored turn. -/
structure Moved (now : Time) (turn turn' : QueuedTurn) : Prop extends SameOrigin turn turn' where
  startedAt : turn'.startedAt = turn.startedAt ∨ turn'.startedAt = none ∨
    turn'.startedAt = some now
  ends : EndsAt now turn turn'

theorem recoverEndedTurnLoop_frame (now cutoff : Time) (c : Conversation) (runs : List AgentRun)
    (turn : QueuedTurn) :
    SameOrigin turn (c.recoverEndedTurnLoop now cutoff runs turn) ∧
      (c.recoverEndedTurnLoop now cutoff runs turn).startedAt = turn.startedAt := by
  unfold Conversation.recoverEndedTurnLoop
  induction runs generalizing turn with
  | nil => exact ⟨⟨rfl, rfl⟩, rfl⟩
  | cons run runs ih =>
    rw [List.foldl_cons]
    split
    · obtain ⟨⟨request, sequence⟩, started⟩ :=
        ih (recoverEndedTurn now (c.newestTerminalEvent turn.clientRequestId) run turn)
      refine ⟨⟨request.trans ?_, sequence.trans ?_⟩, started.trans ?_⟩
      all_goals
        unfold recoverEndedTurn
        split <;> split <;> rfl
    · exact ih turn

theorem Operation.moved_turnChange (now : Time) (c : Conversation) (op : Operation)
    (turn : QueuedTurn) : Moved now turn (op.turnChange now c turn) := by
  have going {turn' : QueuedTurn} (working : turn'.status.isTerminal = false) :
      EndsAt now turn turn' := by
    intro ended
    rw [working] at ended
    cases ended
  cases op with
  | recoverStaleRuns staleAfter =>
    obtain ⟨origin, started⟩ := recoverEndedTurnLoop_frame now (now - staleAfter) c
      (c.staleRuns (now - staleAfter)) turn
    refine ⟨origin, .inl started, ?_⟩
    cases target : c.isRecoveryTarget (now - staleAfter) turn.clientRequestId with
    | false =>
      rw [turnChange_recoverStaleRuns_of_not_target now staleAfter c target]
      exact fun ended => .inl ⟨ended, rfl⟩
    | true =>
      obtain ⟨_, terminal, completed⟩ :=
        turnChange_recoverStaleRuns_of_target now staleAfter c target
      exact fun ended => .inr (completed (by simpa [terminal] using ended))
  | _ =>
    simp only [turnChange, cancelTurn, clearTurn, releaseTurn, recoverClaim, finishTurn]
    repeat' split
    all_goals
      refine ⟨⟨rfl, rfl⟩, ?_, ?_⟩
      · first | exact .inl rfl | exact .inr (.inl rfl) | exact .inr (.inr rfl)
      · first
          | exact going rfl
          | exact fun ended => .inl ⟨ended, rfl⟩
          | exact fun _ => .inr rfl
          | exact fun ended => absurd ended ‹_›

end AverQel.DeepSpace
