/- digest: The number of open turns of a conversation, and the steps that keep it within its bound. -/
import AverQel.DeepSpace.SingleActive

namespace AverQel.DeepSpace

open Foundation Transition

namespace Conversation

def hasEnded (c : Conversation) (requestId : String) : Bool :=
  (c.turns.find? requestId).any (fun turn => turn.status.isTerminal)

def revivedCount (c : Conversation) (cutoff : Time) : Nat :=
  c.turns.rows.countP (fun turn => c.revives cutoff turn.clientRequestId)

end Conversation

/-- A step that opens ended turns again finds room for them. -/
def RoomForReopened (c : Conversation) (call : Call) : Prop :=
  match call.operation with
  | .finish requestId status _ =>
    (finishStatus status).isPaused → c.hasEnded requestId →
      c.queuedCount < maxTurnsPerConversation
  | .recoverStaleRuns staleAfter =>
    c.queuedCount + c.revivedCount (call.now - staleAfter) ≤ maxTurnsPerConversation
  | _ => True

theorem TurnStatus.isQueueable_eq (s : TurnStatus) : s.isQueueable = !s.isTerminal := by
  cases s <;> rfl

theorem TurnStatus.isQueueable_of_isPaused {s : TurnStatus} (paused : s.isPaused) :
    s.isQueueable := by
  cases s <;> first | rfl | cases paused

theorem countP_map_balance {α : Type} (p : α → Bool) (f : α → α) (rows : List α) :
    (rows.map f).countP p + rows.countP (fun a => p a && !p (f a)) =
      rows.countP p + rows.countP (fun a => p (f a) && !p a) := by
  induction rows with
  | nil => rfl
  | cons a =>
    simp only [List.map_cons, List.countP_cons]
    cases p a <;> cases p (f a) <;>
      simp only [Bool.not_true, Bool.not_false, Bool.and_true, Bool.and_false,
        Bool.false_eq_true, if_true, if_false] <;> omega

namespace Operation

def reopens : Operation → Bool
  | finish .. | recoverStaleRuns .. => true
  | _ => false

variable {op : Operation}

theorem status_of_ended (now : Time) {c : Conversation} (quiet : op.reopens = false)
    {turn : QueuedTurn} (member : turn ∈ c.turns.rows) (ended : turn.status.isTerminal) :
    (op.turnChange now c turn).status = turn.status ∨
      (op.turnChange now c turn).status = .cancelled := by
  have closed : turn.status.isQueueable = false := by
    rw [TurnStatus.isQueueable_eq, ended]
    rfl
  have unclaimed : turn.status.isClaimed = false := by
    by_contra claimed
    exact TurnStatus.not_isTerminal_of_isClaimed (by simpa using claimed) ended
  have uncancelled : (cancelTurn now turn).status = turn.status := by
    rw [cancelTurn_status, closed]
    rfl
  cases idle : op.movesTurns with
  | false => exact .inl (turnChange_sameProgress now c idle turn).status
  | true =>
    cases op with
    | requestCancel | requestCancelByRequestId =>
      simp only [turnChange]
      split
      · exact .inl uncancelled
      · exact .inl rfl
    | cancelAllForConversation => exact .inl uncancelled
    | clearForConversation =>
      have inactive := TurnStatus.not_isActive_of_isTerminal ended
      simp only [turnChange, clearTurn_status, inactive]
      split
      · exact .inr rfl
      · exact .inl rfl
    | releaseClaim =>
      have notRunning : turn.status ≠ .running := by
        intro running
        rw [running] at unclaimed
        cases unclaimed
      simp only [turnChange, releaseTurn, if_neg notRunning]
      split <;> exact .inl rfl
    | recoverClaims =>
      simp only [turnChange, staleClaim, unclaimed]
      split
      · rename_i stale
        cases stale.2
      · exact .inl rfl
    | resumePaused =>
      simp only [turnChange]
      split
      · rename_i resumed
        obtain ⟨row, found, same⟩ := Option.map_eq_some_iff.mp resumed
        obtain ⟨stored, paused⟩ := Conversation.pausedTurn_spec found
        rw [c.turns.eq_of_key_eq stored member same] at paused
        rw [TurnStatus.isQueueable_of_isPaused paused] at closed
        cases closed
      · exact .inl rfl
    | claim =>
      simp only [turnChange]
      split
      · rename_i claimed
        obtain ⟨row, found, same⟩ := Option.map_eq_some_iff.mp claimed
        obtain ⟨stored, queued, _⟩ := Conversation.claimable_spec found
        rw [c.turns.eq_of_key_eq stored member same] at queued
        rw [queued] at ended
        cases ended
      · exact .inl rfl
    | finish | recoverStaleRuns => cases quiet
    | _ => cases idle

theorem isQueueable_of_turnChange (now : Time) {c : Conversation} (quiet : op.reopens = false)
    {turn : QueuedTurn} (member : turn ∈ c.turns.rows)
    (opened : (op.turnChange now c turn).status.isQueueable) : turn.status.isQueueable := by
  by_contra closed
  have ended : turn.status.isTerminal := by simpa [TurnStatus.isQueueable_eq] using closed
  rcases op.status_of_ended now quiet member ended with same | cleared
  · rw [same] at opened
    exact closed opened
  · rw [cleared] at opened
    cases opened

theorem queuedCount_balance (now : Time) (c : Conversation) (op : Operation) :
    ∃ added : Nat, (op.apply now c).queuedCount +
        c.turns.rows.countP (fun turn =>
          turn.status.isQueueable && !(op.turnChange now c turn).status.isQueueable) =
      c.queuedCount + c.turns.rows.countP (fun turn =>
        (op.turnChange now c turn).status.isQueueable && !turn.status.isQueueable) + added ∧
      (added = 0 ∨ (added = 1 ∧ c.queuedCount < maxTurnsPerConversation)) := by
  obtain ⟨turn, rows, new⟩ := op.rowsStep now c
  have balance := countP_map_balance (fun turn : QueuedTurn => turn.status.isQueueable)
    (op.turnChange now c) c.turns.rows
  cases turn with
  | none =>
    refine ⟨0, ?_, .inl rfl⟩
    simp only [Conversation.queuedCount, rows, Option.toList_none, List.append_nil]
    exact balance
  | some turn =>
    have stored := new turn rfl
    have queueable : turn.status.isQueueable = true := by
      rw [stored.queued]
      rfl
    refine ⟨1, ?_, .inr ⟨rfl, stored.room⟩⟩
    simp only [Conversation.queuedCount, rows, Option.toList_some, List.countP_append,
      List.countP_singleton, queueable, if_true]
    omega

theorem queuedCount_of_quiet (now : Time) {c : Conversation} (quiet : op.reopens = false)
    (within : c.queuedCount ≤ maxTurnsPerConversation) :
    (op.apply now c).queuedCount ≤ maxTurnsPerConversation := by
  obtain ⟨added, balance, room⟩ := op.queuedCount_balance now c
  have none_opens : c.turns.rows.countP (fun turn =>
      (op.turnChange now c turn).status.isQueueable && !turn.status.isQueueable) = 0 := by
    refine List.countP_eq_zero.mpr ?_
    intro turn member opens
    obtain ⟨opened, ended⟩ := Bool.and_eq_true_iff.mp opens
    rw [isQueueable_of_turnChange now quiet member opened] at ended
    cases ended
  omega

theorem queuedCount_recoverStaleRuns (now staleAfter : Time) (c : Conversation) :
    ((recoverStaleRuns staleAfter).apply now c).queuedCount =
      c.queuedCount + c.revivedCount (now - staleAfter) := by
  have rows : ((recoverStaleRuns staleAfter).apply now c).turns.rows =
      c.turns.rows.map ((recoverStaleRuns staleAfter).turnChange now c) :=
    c.rows_foldl_reconcileRun now (now - staleAfter) (c.staleRuns (now - staleAfter)) c
  have balance := countP_map_balance (fun turn : QueuedTurn => turn.status.isQueueable)
    ((recoverStaleRuns staleAfter).turnChange now c) c.turns.rows
  have change (turn : QueuedTurn) (member : turn ∈ c.turns.rows) :
      ((recoverStaleRuns staleAfter).turnChange now c turn).status.isQueueable =
        (turn.status.isQueueable || c.revives (now - staleAfter) turn.clientRequestId) := by
    unfold Conversation.revives
    cases target : c.isRecoveryTarget (now - staleAfter) turn.clientRequestId with
    | false =>
      rw [turnChange_recoverStaleRuns_of_not_target now staleAfter c target]
      simp
    | true =>
      have ended := (Conversation.ended_of_isRecoveryTarget member target).1
      have after := (turnChange_recoverStaleRuns_of_target now staleAfter c target).2.1
      rw [TurnStatus.isQueueable_eq, TurnStatus.isQueueable_eq, after, ended]
      simp
  have closed : c.turns.rows.countP (fun turn => turn.status.isQueueable &&
      !((recoverStaleRuns staleAfter).turnChange now c turn).status.isQueueable) = 0 := by
    refine List.countP_eq_zero.mpr ?_
    intro turn member
    rw [change turn member]
    cases turn.status.isQueueable <;> simp
  have opened : c.turns.rows.countP (fun turn =>
      ((recoverStaleRuns staleAfter).turnChange now c turn).status.isQueueable &&
        !turn.status.isQueueable) = c.revivedCount (now - staleAfter) := by
    refine List.countP_congr ?_
    intro turn member
    rw [change turn member]
    cases revived : c.revives (now - staleAfter) turn.clientRequestId with
    | false => cases turn.status.isQueueable <;> simp
    | true =>
      have target := (Bool.and_eq_true_iff.mp revived).1
      have ended := (Conversation.ended_of_isRecoveryTarget member target).1
      rw [TurnStatus.isQueueable_eq, ended]
      simp
  simp only [Conversation.queuedCount, rows]
  omega

/-- `finish` raises the count by one exactly when it pauses an ended turn. -/
theorem queuedCount_finish_of_reopened (now : Time) {c : Conversation} {requestId status : String}
    (error : Option String) (paused : (finishStatus status).isPaused)
    (ended : c.hasEnded requestId) :
    ((finish requestId status error).apply now c).queuedCount = c.queuedCount + 1 := by
  obtain ⟨turn, found, terminal⟩ := (Option.any_eq_true _ _).mp ended
  obtain ⟨member, key⟩ := Table.find?_eq_some_iff.mp found
  have balance := countP_map_balance (fun row : QueuedTurn => row.status.isQueueable)
    ((finish requestId status error).turnChange now c) c.turns.rows
  have onlyTurn (row : QueuedTurn) (stored : row ∈ c.turns.rows)
      (same : row.clientRequestId = requestId) : row = turn :=
    c.turns.eq_of_key_eq stored member (same.trans key.symm)
  have closed : c.turns.rows.countP (fun row => row.status.isQueueable &&
      !((finish requestId status error).turnChange now c row).status.isQueueable) = 0 := by
    refine List.countP_eq_zero.mpr ?_
    intro row stored
    by_cases same : row.clientRequestId = requestId
    · rw [onlyTurn row stored same, TurnStatus.isQueueable_eq, terminal]
      simp
    · simp [turnChange, same]
  have opened : c.turns.rows.countP (fun row =>
      ((finish requestId status error).turnChange now c row).status.isQueueable &&
        !row.status.isQueueable) = 1 := by
    rw [← c.turns.countP_key member, key]
    refine List.countP_congr ?_
    intro row stored
    by_cases same : row.clientRequestId = requestId
    · have open_after := TurnStatus.isQueueable_of_isPaused paused
      rw [onlyTurn row stored same, TurnStatus.isQueueable_eq turn.status, terminal]
      simp [turnChange, key, finishTurn, open_after]
    · simp [turnChange, same]
  change (c.turns.rows.map ((finish requestId status error).turnChange now c)).countP _ = _
  unfold Conversation.queuedCount
  omega

theorem queuedCount_finish_of_kept (now : Time) {c : Conversation} {requestId status : String}
    (error : Option String) (kept : ¬ ((finishStatus status).isPaused ∧ c.hasEnded requestId)) :
    ((finish requestId status error).apply now c).queuedCount ≤ c.queuedCount := by
  have balance := countP_map_balance (fun row : QueuedTurn => row.status.isQueueable)
    ((finish requestId status error).turnChange now c) c.turns.rows
  have opened : c.turns.rows.countP (fun row =>
      ((finish requestId status error).turnChange now c row).status.isQueueable &&
        !row.status.isQueueable) = 0 := by
    refine List.countP_eq_zero.mpr ?_
    intro row stored opens
    by_cases same : row.clientRequestId = requestId
    · simp only [turnChange, if_pos same, finishTurn, TurnStatus.isQueueable_eq,
        finishStatus_terminal_or_paused, Bool.not_not, Bool.and_eq_true] at opens
      have found := Table.find?_eq_some_iff.mpr ⟨stored, same⟩
      refine kept ⟨opens.1, ?_⟩
      unfold Conversation.hasEnded
      rw [found, Option.any_some, opens.2]
    · simp [turnChange, same] at opens
  change (c.turns.rows.map ((finish requestId status error).turnChange now c)).countP _ ≤ _
  unfold Conversation.queuedCount
  omega

end Operation

theorem queuedCount_step_iff {c : Conversation} (within : c.queuedCount ≤ maxTurnsPerConversation)
    (call : Call) :
    (step c call).queuedCount ≤ maxTurnsPerConversation ↔ RoomForReopened c call := by
  obtain ⟨now, op⟩ := call
  cases quiet : op.reopens with
  | false =>
    have kept := Operation.queuedCount_of_quiet now quiet within
    refine iff_of_true kept ?_
    cases op with
    | finish | recoverStaleRuns => cases quiet
    | _ => trivial
  | true =>
    cases op with
    | finish requestId status error =>
      change ((Operation.finish requestId status error).apply now c).queuedCount ≤ _ ↔
        ((finishStatus status).isPaused → c.hasEnded requestId →
          c.queuedCount < maxTurnsPerConversation)
      by_cases reopened : (finishStatus status).isPaused ∧ c.hasEnded requestId
      · rw [Operation.queuedCount_finish_of_reopened now error reopened.1 reopened.2]
        constructor
        · intro room _ _
          exact room
        · intro room
          exact room reopened.1 reopened.2
      · have kept := Operation.queuedCount_finish_of_kept now error reopened
        refine iff_of_true (kept.trans within) ?_
        intro paused ended
        exact absurd ⟨paused, ended⟩ reopened
    | recoverStaleRuns staleAfter =>
      have count := Operation.queuedCount_recoverStaleRuns now staleAfter c
      change ((Operation.recoverStaleRuns staleAfter).apply now c).queuedCount ≤ _ ↔ _
      rw [count]
      exact Iff.rfl
    | _ => cases quiet

theorem queue_within_capacity_iff (calls : List Call) :
    (∀ c ∈ trace step .empty calls, c.queuedCount ≤ maxTurnsPerConversation) ↔
      Guarded RoomForReopened step .empty calls := by
  have start : Conversation.empty.queuedCount ≤ maxTurnsPerConversation := Nat.zero_le _
  refine forall_trace_iff_guarded (I := fun _ => True) ?_ ?_ trivial start
  · intro c call _
    trivial
  · intro c call _ within
    exact queuedCount_step_iff within call

def latePause : List Call :=
  [⟨0, .enqueue (.plain "a" "go" false)⟩, ⟨0, .claim⟩, ⟨1, .finish "a" "failed" none⟩] ++
  (List.range 100).map (fun n => ⟨2, .enqueue (.plain (Nat.repr n) "go" false)⟩) ++
  [⟨3, .finish "a" "awaiting_user" none⟩]

theorem pause_reopens_a_full_queue :
    ¬ ∀ (calls : List Call), ∀ c ∈ trace step .empty calls,
      c.queuedCount ≤ maxTurnsPerConversation := by
  intro bounded
  have last := bounded latePause _ (run_mem_trace step .empty latePause)
  revert last
  decide +kernel

end AverQel.DeepSpace
