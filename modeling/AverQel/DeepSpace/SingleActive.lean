/- digest: Which transactions can leave a conversation with two active turns. -/
import AverQel.DeepSpace.TurnMoves

namespace AverQel.DeepSpace

open Foundation (Table mem_of_maxBy mem_of_minBy)

namespace Conversation

theorem singleActive_iff (c : Conversation) :
    c.SingleActive ↔ ∀ a ∈ c.turns.rows, ∀ b ∈ c.turns.rows,
      a.status.isActive → b.status.isActive → a.clientRequestId = b.clientRequestId :=
  (c.turns.atMostOne_iff_length_filter (fun turn => turn.status.isActive)).symm

theorem claimable_spec {c : Conversation} {turn : QueuedTurn} (h : c.claimable = some turn) :
    turn ∈ c.turns.rows ∧ turn.status = .queued ∧
      ∀ other ∈ c.turns.rows, other.status.isActive = false := by
  unfold claimable at h
  split at h
  · cases h
  · split at h
    · cases h
    · rename_i idle
      split at h
      · cases h
      · have member := mem_of_maxBy h
        simp only [List.mem_filter, decide_eq_true_eq] at member
        exact ⟨member.1, member.2, by simpa using idle⟩

theorem pausedTurn_spec {c : Conversation} {turn : QueuedTurn} (h : c.pausedTurn = some turn) :
    turn ∈ c.turns.rows ∧ turn.status.isPaused := by
  simpa only [List.mem_filter] using mem_of_minBy h

end Conversation

theorem active_of_active_cancelTurn {now : Time} {turn : QueuedTurn}
    (h : (cancelTurn now turn).status.isActive) : turn.status.isActive := by
  rw [cancelTurn_status] at h
  cases status : turn.status <;>
    simp [status, TurnStatus.isQueueable, TurnStatus.isPaused, TurnStatus.isActive] at h ⊢

theorem active_of_active_clearTurn {now : Time} {turn : QueuedTurn}
    (h : (clearTurn now turn).status.isActive) : turn.status.isActive := by
  rw [clearTurn_status] at h
  cases status : turn.status <;>
    simp [status, TurnStatus.isQueueable, TurnStatus.isActive] at h ⊢

theorem not_active_recoverClaim (now : Time) (run : Option AgentRun) (turn : QueuedTurn) :
    (recoverClaim now run turn).status.isActive = false := by
  rw [recoverClaim_status]
  split <;> rfl

namespace Operation

/-- The transaction does not put a second turn into an active status: a paused result is written
to the only active turn (or while there is none), and the recovery of ended turns revives at
most one turn and only while no other one is active. -/
def KeepsSingleActive (now : Time) (c : Conversation) : Operation → Prop
  | finish requestId status _ =>
    (finishStatus status).isPaused → (c.turns.find? requestId).isSome →
      ∀ turn ∈ c.turns.rows, turn.status.isActive → turn.clientRequestId = requestId
  | recoverStaleRuns staleAfter =>
    ∀ turn ∈ c.turns.rows, c.revives (now - staleAfter) turn.clientRequestId →
      ∀ other ∈ c.turns.rows,
        other.status.isActive ∨ c.revives (now - staleAfter) other.clientRequestId →
        other.clientRequestId = turn.clientRequestId
  | _ => True

theorem singleActive_apply_iff_rows (now : Time) (c : Conversation) (op : Operation) :
    (op.apply now c).SingleActive ↔ ∀ a ∈ c.turns.rows, ∀ b ∈ c.turns.rows,
      (op.turnChange now c a).status.isActive → (op.turnChange now c b).status.isActive →
      a.clientRequestId = b.clientRequestId := by
  have step := op.turnsStep now c
  rw [Conversation.singleActive_iff]
  constructor
  · intro single a ha b hb activeA activeB
    have keys := single _ (step.keeps a ha) _ (step.keeps b hb) activeA activeB
    simpa only [turnChange_clientRequestId] using keys
  · intro single a' ha' b' hb' activeA activeB
    rcases step.origin a' ha' with ⟨a, ha, rfl⟩ | new
    · rcases step.origin b' hb' with ⟨b, hb, rfl⟩ | new
      · simpa only [turnChange_clientRequestId] using single a ha b hb activeA activeB
      · rw [new.queued] at activeB
        cases activeB
    · rw [new.queued] at activeA
      cases activeA

theorem active_of_active_turnChange {now : Time} {c : Conversation} {op : Operation}
    (not_claim : op ≠ claim) (not_finish : ∀ requestId status error, op ≠ finish requestId status error)
    (not_recovery : ∀ staleAfter, op ≠ recoverStaleRuns staleAfter) {turn : QueuedTurn}
    (member : turn ∈ c.turns.rows) (h : (op.turnChange now c turn).status.isActive) :
    turn.status.isActive := by
  cases idle : op.movesTurns with
  | false => rwa [(turnChange_sameProgress now c idle turn).status] at h
  | true =>
    cases op with
    | requestCancel requestId | requestCancelByRequestId requestId =>
      simp only [turnChange] at h
      split at h
      · exact active_of_active_cancelTurn h
      · exact h
    | cancelAllForConversation => exact active_of_active_cancelTurn h
    | clearForConversation => exact active_of_active_clearTurn h
    | releaseClaim =>
      simp only [turnChange, releaseTurn] at h
      split at h
      · split at h
        · cases h
        · exact h
      · exact h
    | recoverClaims =>
      simp only [turnChange] at h
      split at h
      · rw [not_active_recoverClaim] at h
        cases h
      · exact h
    | resumePaused =>
      simp only [turnChange] at h
      split at h
      · rename_i chosen
        obtain ⟨row, found, same⟩ := Option.map_eq_some_iff.mp chosen
        obtain ⟨rowMember, paused⟩ := Conversation.pausedTurn_spec found
        rw [← c.turns.eq_of_key_eq rowMember member same]
        exact TurnStatus.isActive_of_isPaused paused
      · exact h
    | claim => exact absurd rfl not_claim
    | finish requestId status error => exact absurd rfl (not_finish requestId status error)
    | recoverStaleRuns staleAfter => exact absurd rfl (not_recovery staleAfter)
    | _ => cases idle

theorem active_turnChange_finish (now : Time) (c : Conversation) (requestId status : String)
    (error : Option String) (turn : QueuedTurn) :
    ((finish requestId status error).turnChange now c turn).status.isActive =
      if turn.clientRequestId = requestId then (finishStatus status).isPaused
      else turn.status.isActive := by
  simp only [turnChange]
  split
  · exact TurnStatus.isActive_eq_isPaused (finishStatus_terminal_or_paused status)
  · rfl

theorem active_turnChange_recoverStaleRuns (now staleAfter : Time) {c : Conversation}
    {turn : QueuedTurn} (member : turn ∈ c.turns.rows) :
    ((recoverStaleRuns staleAfter).turnChange now c turn).status.isActive =
      (turn.status.isActive || c.revives (now - staleAfter) turn.clientRequestId) := by
  unfold Conversation.revives
  cases target : c.isRecoveryTarget (now - staleAfter) turn.clientRequestId with
  | false =>
    rw [turnChange_recoverStaleRuns_of_not_target now staleAfter c target]
    simp
  | true =>
    obtain ⟨paused, terminal, _⟩ := turnChange_recoverStaleRuns_of_target now staleAfter c target
    have ended := (Conversation.ended_of_isRecoveryTarget member target).1
    rw [TurnStatus.isActive_eq_isPaused (by rw [terminal, paused]), paused,
      TurnStatus.not_isActive_of_isTerminal ended]
    simp

theorem singleActive_apply_iff (now : Time) {c : Conversation} (single : c.SingleActive)
    (op : Operation) : (op.apply now c).SingleActive ↔ op.KeepsSingleActive now c := by
  rw [singleActive_apply_iff_rows]
  have single := c.singleActive_iff.mp single
  have keeps (h : ∀ turn ∈ c.turns.rows, (op.turnChange now c turn).status.isActive →
      turn.status.isActive) : ∀ a ∈ c.turns.rows, ∀ b ∈ c.turns.rows,
      (op.turnChange now c a).status.isActive → (op.turnChange now c b).status.isActive →
      a.clientRequestId = b.clientRequestId :=
    fun a ha b hb activeA activeB => single a ha b hb (h a ha activeA) (h b hb activeB)
  cases op with
  | claim =>
    refine iff_of_true ?_ trivial
    intro a ha b hb activeA activeB
    cases found : c.claimable with
    | none =>
      simp only [turnChange, found, Option.map_none] at activeA activeB
      exact single a ha b hb (by simpa using activeA) (by simpa using activeB)
    | some row =>
      have idle := (Conversation.claimable_spec found).2.2
      have chosen (turn : QueuedTurn) (member : turn ∈ c.turns.rows)
          (active : (claim.turnChange now c turn).status.isActive) :
          row.clientRequestId = turn.clientRequestId := by
        by_contra other
        simp only [turnChange, found, Option.map_some, Option.some.injEq, if_neg other,
          idle turn member] at active
        cases active
      exact (chosen a ha activeA).symm.trans (chosen b hb activeB)
  | finish requestId =>
    simp only [active_turnChange_finish, KeepsSingleActive]
    constructor
    · intro rows paused exists_turn turn member active
      obtain ⟨row, found⟩ := Option.isSome_iff_exists.mp exists_turn
      obtain ⟨rowMember, rowKey⟩ := Table.find?_eq_some_iff.mp found
      by_contra other
      have keys := rows turn member row rowMember (by simpa [other] using active)
        (by simpa [rowKey] using paused)
      exact other (keys.trans rowKey)
    · intro condition a ha b hb activeA activeB
      have here (turn : QueuedTurn) (member : turn ∈ c.turns.rows)
          (key : turn.clientRequestId = requestId) : (c.turns.find? requestId).isSome := by
        rw [Table.find?_eq_some_iff.mpr ⟨member, key⟩]
        rfl
      by_cases keyA : a.clientRequestId = requestId
      · by_cases keyB : b.clientRequestId = requestId
        · rw [keyA, keyB]
        · rw [if_pos keyA] at activeA
          rw [if_neg keyB] at activeB
          exact keyA.trans (condition activeA (here a ha keyA) b hb activeB).symm
      · rw [if_neg keyA] at activeA
        by_cases keyB : b.clientRequestId = requestId
        · rw [if_pos keyB] at activeB
          exact (condition activeB (here b hb keyB) a ha activeA).trans keyB.symm
        · rw [if_neg keyB] at activeB
          exact single a ha b hb activeA activeB
  | recoverStaleRuns staleAfter =>
    simp only [KeepsSingleActive]
    constructor
    · intro rows turn member revived other otherMember active
      refine rows other otherMember turn member ?_ ?_
      · rw [active_turnChange_recoverStaleRuns now staleAfter otherMember, Bool.or_eq_true]
        exact active
      · rw [active_turnChange_recoverStaleRuns now staleAfter member, Bool.or_eq_true]
        exact .inr revived
    · intro condition a ha b hb activeA activeB
      rw [active_turnChange_recoverStaleRuns now staleAfter ha, Bool.or_eq_true] at activeA
      rw [active_turnChange_recoverStaleRuns now staleAfter hb, Bool.or_eq_true] at activeB
      rcases activeA with activeA | revivedA
      · rcases activeB with activeB | revivedB
        · exact single a ha b hb activeA activeB
        · exact condition b hb revivedB a ha (.inl activeA)
      · exact (condition a ha revivedA b hb activeB).symm
  | _ =>
    exact iff_of_true
      (keeps fun turn member =>
        active_of_active_turnChange (by intro h; cases h) (by intro _ _ _ h; cases h)
          (by intro _ h; cases h) member)
      trivial

end Operation

end AverQel.DeepSpace
