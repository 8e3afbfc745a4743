/- digest: The families of a turn and its retries, and the steps that do their work twice. -/
import AverQel.DeepSpace.Capacity
import AverQel.Foundation.Lineage

namespace AverQel.DeepSpace

open Foundation
open Foundation.Transition
open Foundation.Text (nonempty truncate)

/-- `QUEUEABLE_STATUSES | {"completed"}`: the turn is pending or has succeeded. -/
def TurnStatus.isWork (s : TurnStatus) : Bool := s.isQueueable || s = .completed

namespace Conversation

/-- The turns of a conversation, each linked to the turn that it retries. -/
def lineage (c : Conversation) : Lineage String where
  keys := { requestId | (c.turns.find? requestId).isSome }
  edge parent child := (c.turns.find? parent).isSome ∧
    (c.turns.find? child).any (fun turn => turn.resumeFromRequestId = some parent)
  source_mem := fun edge => edge.1
  target_mem := by
    intro parent child edge
    obtain ⟨turn, found, _⟩ := (Option.any_eq_true _ _).mp edge.2
    exact Option.isSome_iff_exists.mpr ⟨turn, found⟩

def LinksKnown (c : Conversation) : Prop :=
  ∀ turn ∈ c.turns.rows, ∀ parent ∈ turn.resumeFromRequestId, parent ∈ c.lineage.keys

def NoDuplicateWork (c : Conversation) : Prop :=
  ∀ a ∈ c.turns.rows, ∀ b ∈ c.turns.rows, c.lineage.Kin a.clientRequestId b.clientRequestId →
    a.status.isWork → b.status.isWork → a.clientRequestId = b.clientRequestId

def RestsBut (c : Conversation) (requestId : String) : Prop :=
  ∀ other ∈ c.turns.rows, other.clientRequestId ≠ requestId →
    c.lineage.Kin requestId other.clientRequestId → other.status.isWork = false

theorem restsBut_of_rest {c : Conversation} {requestId : String}
    (rest : ∀ other ∈ c.turns.rows, other.status.isWork = false) : c.RestsBut requestId :=
  fun other member _ _ => rest other member

/-- `retry_failed` stores a new turn. -/
def startsRetry (failedRequestId clientRequestId : String) (fits : Bool) (c : Conversation) :
    Bool :=
  (c.turns.find? failedRequestId).any (fun turn => turn.status = .failed) &&
    (c.turns.find? (truncate 255 clientRequestId)).isNone &&
    (c.existingRetry failedRequestId).isNone &&
    c.queuedCount < maxTurnsPerConversation && fits

end Conversation

def reportsWork : Option RunEvent → Bool
  | none => false
  | some event =>
    event.eventName ≠ .error &&
      (reportedTurnStatus (reportedRunStatus event.frameStatus)).isWork

namespace Conversation

def worksAfterRecovery (c : Conversation) (cutoff : Time) (turn : QueuedTurn) : Bool :=
  if c.isRecoveryTarget cutoff turn.clientRequestId then
    reportsWork (c.newestTerminalEvent turn.clientRequestId)
  else turn.status.isWork

end Conversation

/-- A step that puts a turn to work finds the rest of its retry family at rest. -/
def FamilyAtRest (c : Conversation) (call : Call) : Prop :=
  match call.operation with
  | .retryFailed failedRequestId clientRequestId fits =>
    c.startsRetry failedRequestId clientRequestId fits → c.RestsBut failedRequestId
  | .finish requestId status _ => (finishStatus status).isWork → c.RestsBut requestId
  | .recoverStaleRuns staleAfter =>
    ∀ turn ∈ c.turns.rows, turn.status.isWork = false →
      c.worksAfterRecovery (call.now - staleAfter) turn →
      ∀ other ∈ c.turns.rows, other.clientRequestId ≠ turn.clientRequestId →
        c.lineage.Kin turn.clientRequestId other.clientRequestId →
        c.worksAfterRecovery (call.now - staleAfter) other = false
  | _ => True

/-- The link that `enqueue` is asked to store. -/
def Operation.requestedLink : Operation → Option String
  | .enqueue request => nonempty request.resumeFromRequestId
  | _ => none

/-- Only `retry_failed` links a new turn to an older one. -/
def Call.LinksByRetry (call : Call) : Prop := call.operation.requestedLink = none

instance (call : Call) : Decidable call.LinksByRetry :=
  inferInstanceAs (Decidable (_ = none))

theorem TurnStatus.isWork_eq (s : TurnStatus) :
    s.isWork = false ↔ s.isTerminal ∧ s ≠ .completed := by
  cases s <;> decide

namespace Conversation

theorem mem_keys_iff {c : Conversation} {requestId : String} :
    requestId ∈ c.lineage.keys ↔ ∃ turn ∈ c.turns.rows, turn.clientRequestId = requestId := by
  constructor
  · intro key
    obtain ⟨turn, found⟩ := Option.isSome_iff_exists.mp key
    exact ⟨turn, Table.find?_eq_some_iff.mp found⟩
  · rintro ⟨turn, stored⟩
    exact Option.isSome_iff_exists.mpr ⟨turn, Table.find?_eq_some_iff.mpr stored⟩

theorem edge_iff {c : Conversation} {parent child : String} :
    c.lineage.edge parent child ↔ parent ∈ c.lineage.keys ∧ ∃ turn ∈ c.turns.rows,
      turn.clientRequestId = child ∧ turn.resumeFromRequestId = some parent := by
  refine and_congr_right fun _ => ?_
  constructor
  · intro found
    obtain ⟨turn, here, link⟩ := (Option.any_eq_true _ _).mp found
    obtain ⟨member, key⟩ := Table.find?_eq_some_iff.mp here
    exact ⟨turn, member, key, by simpa using link⟩
  · rintro ⟨turn, member, key, link⟩
    rw [Table.find?_eq_some_iff.mpr ⟨member, key⟩, Option.any_some, link]
    simp

end Conversation

namespace Operation

theorem link_turnChange (now : Time) (c : Conversation) (op : Operation) (turn : QueuedTurn) :
    (op.turnChange now c turn).resumeFromRequestId = turn.resumeFromRequestId :=
  (op.moved_turnChange now c turn).resumeFromRequestId

theorem lineage_of_rows {now : Time} {c : Conversation} {op : Operation}
    (rows : (op.apply now c).turns.rows = c.turns.rows.map (op.turnChange now c)) :
    (op.apply now c).lineage = c.lineage := by
  have keys : (op.apply now c).lineage.keys = c.lineage.keys := by
    ext requestId
    rw [Conversation.mem_keys_iff, Conversation.mem_keys_iff, rows]
    simp only [List.mem_map, exists_exists_and_eq_and, turnChange_clientRequestId]
  ext requestId child
  · rw [keys]
  · rw [Conversation.edge_iff, Conversation.edge_iff, keys, rows]
    simp only [List.mem_map, exists_exists_and_eq_and, turnChange_clientRequestId, link_turnChange]

theorem lineage_of_added {now : Time} {c : Conversation} {op : Operation} {turn : QueuedTurn}
    (rows : (op.apply now c).turns.rows = c.turns.rows.map (op.turnChange now c) ++ [turn])
    (links : c.LinksKnown)
    (known : ∀ parent ∈ turn.resumeFromRequestId, parent ∈ c.lineage.keys) :
    (op.apply now c).lineage =
      c.lineage.grow turn.clientRequestId turn.resumeFromRequestId known := by
  have keys : (op.apply now c).lineage.keys = insert turn.clientRequestId c.lineage.keys := by
    ext requestId
    rw [Set.mem_insert_iff, Conversation.mem_keys_iff, Conversation.mem_keys_iff, rows]
    constructor
    · rintro ⟨row, member, rfl⟩
      rcases List.mem_append.mp member with old | new
      · obtain ⟨before, stored, rfl⟩ := List.mem_map.mp old
        exact .inr ⟨before, stored, (op.turnChange_clientRequestId now c before).symm⟩
      · rw [List.mem_singleton.mp new]
        exact .inl rfl
    · rintro (rfl | ⟨before, stored, rfl⟩)
      · exact ⟨turn, List.mem_append_right _ (List.mem_singleton_self turn), rfl⟩
      · exact ⟨op.turnChange now c before,
          List.mem_append_left _ (List.mem_map_of_mem stored), op.turnChange_clientRequestId now c before⟩
  ext parent child
  · rw [keys]
    rfl
  · change _ ↔ c.lineage.edge parent child ∨ child = turn.clientRequestId ∧ parent ∈ turn.resumeFromRequestId
    rw [Conversation.edge_iff, Conversation.edge_iff, keys, rows]
    constructor
    · rintro ⟨_, row, member, rfl, link⟩
      rcases List.mem_append.mp member with old | new
      · obtain ⟨before, stored, rfl⟩ := List.mem_map.mp old
        rw [link_turnChange] at link
        exact .inl ⟨links before stored parent link, before, stored,
          (op.turnChange_clientRequestId now c before).symm, link⟩
      · rw [List.mem_singleton.mp new] at link ⊢
        exact .inr ⟨rfl, link⟩
    · rintro (⟨key, before, stored, rfl, link⟩ | ⟨rfl, link⟩)
      · exact ⟨Set.mem_insert_of_mem _ key, op.turnChange now c before,
          List.mem_append_left _ (List.mem_map_of_mem stored),
          op.turnChange_clientRequestId now c before, (op.link_turnChange now c before).trans link⟩
      · exact ⟨Set.mem_insert_of_mem _ (known parent link), turn,
          List.mem_append_right _ (List.mem_singleton_self turn), rfl, link⟩

inductive Grows (now : Time) (c : Conversation) (op : Operation) : Prop
  | idle (rows : (op.apply now c).turns.rows = c.turns.rows.map (op.turnChange now c))
  | added (turn : QueuedTurn) (new : AddedTurn c op.newLink turn)
      (rows : (op.apply now c).turns.rows = c.turns.rows.map (op.turnChange now c) ++ [turn])

theorem grows (now : Time) (c : Conversation) (op : Operation) : op.Grows now c := by
  obtain ⟨added, rows, new⟩ := op.rowsStep now c
  cases added with
  | none =>
    rw [Option.toList_none, List.append_nil] at rows
    exact .idle rows
  | some turn => exact .added turn (new turn rfl) rows

end Operation

theorem AddedTurn.fresh_key {c : Conversation} {link : Option String} {turn : QueuedTurn}
    (new : AddedTurn c link turn) : turn.clientRequestId ∉ c.lineage.keys := by
  intro key
  obtain ⟨old, member, same⟩ := Conversation.mem_keys_iff.mp key
  exact new.fresh old member same

namespace Conversation

variable {failedRequestId clientRequestId : String}

/-- `retry_failed` stores a turn exactly when it starts a retry. -/
theorem retryFailed_eq_of_not_starts {fits : Bool} {c : Conversation}
    (refused : c.startsRetry failedRequestId clientRequestId fits = false) :
    c.retryFailed failedRequestId clientRequestId fits = c := by
  unfold retryFailed
  split
  · rfl
  · rename_i failed found
    split
    · rfl
    · rename_i fresh
      split
      · rfl
      · rename_i alone
        split
        · rfl
        · rename_i room
          split
          · rename_i fitted
            obtain ⟨here, isFailed⟩ := Option.filter_eq_some_iff.mp found
            have starts : c.startsRetry failedRequestId clientRequestId fits = true := by
              simp only [startsRetry, here, Option.any_some, isFailed, Bool.true_and,
                Bool.and_eq_true, decide_eq_true_eq]
              exact ⟨⟨⟨by simpa using fresh, by simpa using alone⟩, Nat.lt_of_not_le room⟩, fitted⟩
            rw [starts] at refused
            cases refused
          · rfl

theorem rows_addTurn {c : Conversation} {turn : QueuedTurn}
    (missing : c.turns.find? turn.clientRequestId = none) :
    (c.addTurn turn).turns.rows = c.turns.rows ++ [turn] := by
  have others := Table.find?_eq_none_iff.mp missing
  have fresh : turn.clientRequestId ∉ c.turns.rows.map QueuedTurn.clientRequestId := by
    intro member
    obtain ⟨old, stored, same⟩ := List.mem_map.mp member
    exact others old stored same
  obtain ⟨turns, inserted, rows⟩ := Table.insert?_of_fresh fresh
  unfold addTurn
  rw [inserted]
  exact rows

theorem rows_retryFailed_of_starts {fits : Bool} {c : Conversation}
    (starts : c.startsRetry failedRequestId clientRequestId fits) :
    ∃ turn, (c.retryFailed failedRequestId clientRequestId fits).turns.rows =
      c.turns.rows ++ [turn] := by
  simp only [startsRetry, Bool.and_eq_true, decide_eq_true_eq] at starts
  obtain ⟨⟨⟨⟨isFailed, fresh⟩, alone⟩, room⟩, fitted⟩ := starts
  obtain ⟨failed, here, status⟩ := (Option.any_eq_true _ _).mp isFailed
  have missing : c.turns.find? (truncate 255 clientRequestId) = none := by simpa using fresh
  have single : (c.existingRetry failedRequestId).isSome = false := by simpa using alone
  have full : ¬ maxTurnsPerConversation ≤ c.queuedCount := Nat.not_le_of_lt room
  unfold retryFailed
  rw [here, Option.filter_some, status, if_pos rfl]
  simp only [missing, single, fitted, if_neg full, Option.isSome_none, Bool.false_eq_true,
    if_false, if_true]
  exact ⟨_, rows_addTurn missing⟩

theorem failed_mem_keys {fits : Bool} {c : Conversation}
    (starts : c.startsRetry failedRequestId clientRequestId fits) :
    failedRequestId ∈ c.lineage.keys := by
  simp only [startsRetry, Bool.and_eq_true] at starts
  obtain ⟨failed, here, _⟩ := (Option.any_eq_true _ _).mp starts.1.1.1.1
  exact Option.isSome_iff_exists.mpr ⟨failed, here⟩

end Conversation

theorem Call.link_known {c : Conversation} {call : Call} (byRetry : call.LinksByRetry)
    {turn : QueuedTurn} (new : AddedTurn c call.operation.newLink turn)
    (rows : (step c call).turns.rows =
      c.turns.rows.map (call.operation.turnChange call.now c) ++ [turn]) :
    ∀ parent ∈ turn.resumeFromRequestId, parent ∈ c.lineage.keys := by
  obtain ⟨now, op⟩ := call
  rw [new.link]
  intro parent link
  cases op with
  | enqueue request =>
    have unlinked : nonempty request.resumeFromRequestId = none := byRetry
    simp [Operation.newLink, unlinked] at link
  | retryFailed failed requestId fits =>
    cases Option.mem_some.mp link
    cases starts : c.startsRetry parent requestId fits with
    | true => exact c.failed_mem_keys starts
    | false =>
      have unchanged : step c ⟨now, .retryFailed parent requestId fits⟩ = c :=
        Conversation.retryFailed_eq_of_not_starts starts
      rw [unchanged] at rows
      have longer := congrArg List.length rows
      simp at longer
  | _ => exact absurd link (Option.not_mem_none parent)

theorem linksKnown_step {c : Conversation} (links : c.LinksKnown) {call : Call}
    (byRetry : call.LinksByRetry) : (step c call).LinksKnown := by
  rcases call.operation.grows call.now c with rows | ⟨turn, new, rows⟩
  · have lineage : (step c call).lineage = c.lineage := Operation.lineage_of_rows rows
    intro row member parent link
    rw [lineage]
    have old : row ∈ c.turns.rows.map (call.operation.turnChange call.now c) := rows ▸ member
    obtain ⟨before, stored, rfl⟩ := List.mem_map.mp old
    rw [Operation.link_turnChange] at link
    exact links before stored parent link
  · have known := call.link_known byRetry new rows
    have lineage : (step c call).lineage = _ := Operation.lineage_of_added rows links known
    intro row member parent link
    rw [lineage]
    refine Set.mem_insert_of_mem _ ?_
    have split : row ∈ c.turns.rows.map (call.operation.turnChange call.now c) ++ [turn] :=
      rows ▸ member
    rcases List.mem_append.mp split with old | added
    · obtain ⟨before, stored, rfl⟩ := List.mem_map.mp old
      rw [Operation.link_turnChange] at link
      exact links before stored parent link
    · rw [List.mem_singleton.mp added] at link
      exact known parent link

/-- The work after a step is done once when the changed old turns do it once and the family that
a new turn joins is at rest. -/
theorem noDuplicateWork_step_iff_rows {c : Conversation} (links : c.LinksKnown) {call : Call}
    (byRetry : call.LinksByRetry) : (step c call).NoDuplicateWork ↔
      (∀ a ∈ c.turns.rows, ∀ b ∈ c.turns.rows, c.lineage.Kin a.clientRequestId b.clientRequestId →
        (call.operation.turnChange call.now c a).status.isWork →
        (call.operation.turnChange call.now c b).status.isWork →
          a.clientRequestId = b.clientRequestId) ∧
      ((step c call).turns.rows.length ≠ c.turns.rows.length →
        ∀ parent ∈ call.operation.newLink, ∀ b ∈ c.turns.rows,
          c.lineage.Kin parent b.clientRequestId →
            (call.operation.turnChange call.now c b).status.isWork = false) := by
  let change := call.operation.turnChange call.now c
  have key (row : QueuedTurn) : (change row).clientRequestId = row.clientRequestId :=
    call.operation.turnChange_clientRequestId call.now c row
  rcases call.operation.grows call.now c with rows | ⟨turn, new, rows⟩
  · have lineage : (step c call).lineage = c.lineage := Operation.lineage_of_rows rows
    have stored : (step c call).turns.rows = c.turns.rows.map change := rows
    unfold Conversation.NoDuplicateWork
    simp only [lineage, stored, List.forall_mem_map, key, List.length_map, ne_eq,
      not_true_eq_false, false_implies, and_true]
    exact Iff.rfl
  · have known := call.link_known byRetry new rows
    have lineage : (step c call).lineage = _ := Operation.lineage_of_added rows links known
    have stored : (step c call).turns.rows = c.turns.rows.map change ++ [turn] := rows
    have fresh := new.fresh_key
    have working : turn.status.isWork := by
      rw [new.queued]
      rfl
    have other (row : QueuedTurn) (member : row ∈ c.turns.rows) :
        row.clientRequestId ≠ turn.clientRequestId := new.fresh row member
    constructor
    · intro single
      refine ⟨?_, ?_⟩
      · intro a memberA b memberB kin workA workB
        have grown : (step c call).lineage.Kin a.clientRequestId b.clientRequestId := by
          rw [lineage]
          exact (Lineage.kin_grow_iff_of_old fresh (other a memberA) (other b memberB)).mpr kin
        have same := single (change a)
          (stored ▸ List.mem_append_left _ (List.mem_map_of_mem memberA)) (change b)
          (stored ▸ List.mem_append_left _ (List.mem_map_of_mem memberB))
          (by rwa [key, key]) workA workB
        rwa [key, key] at same
      · intro _ parent link b memberB kin
        by_contra works
        have grown : (step c call).lineage.Kin turn.clientRequestId b.clientRequestId := by
          rw [lineage]
          refine (Lineage.kin_grow_leaf_iff fresh (other b memberB)).mpr ⟨parent, ?_, kin⟩
          rwa [new.link]
        have same := single turn (stored ▸ List.mem_append_right _ (List.mem_singleton_self turn))
          (change b) (stored ▸ List.mem_append_left _ (List.mem_map_of_mem memberB))
          (by rwa [key]) working (by simpa using works)
        rw [key] at same
        exact other b memberB same.symm
    · rintro ⟨old, rest⟩
      have longer : (step c call).turns.rows.length ≠ c.turns.rows.length := by
        rw [stored]
        simp
      have alone (b : QueuedTurn) (memberB : b ∈ c.turns.rows)
          (kin : (c.lineage.grow turn.clientRequestId turn.resumeFromRequestId known).Kin
            turn.clientRequestId b.clientRequestId) : (change b).status.isWork = false := by
        obtain ⟨parent, link, inside⟩ := (Lineage.kin_grow_leaf_iff fresh (other b memberB)).mp kin
        exact rest longer parent (new.link ▸ link) b memberB inside
      intro a' memberA b' memberB kin workA workB
      rw [lineage] at kin
      rw [stored] at memberA memberB
      rcases List.mem_append.mp memberA with oldA | newA
      · obtain ⟨a, storedA, rfl⟩ := List.mem_map.mp oldA
        rcases List.mem_append.mp memberB with oldB | newB
        · obtain ⟨b, storedB, rfl⟩ := List.mem_map.mp oldB
          rw [key, key] at kin ⊢
          exact old a storedA b storedB
            ((Lineage.kin_grow_iff_of_old fresh (other a storedA) (other b storedB)).mp kin)
            workA workB
        · rw [List.mem_singleton.mp newB, key] at kin
          rw [alone a storedA kin.symm] at workA
          cases workA
      · rw [List.mem_singleton.mp newA] at kin ⊢
        rcases List.mem_append.mp memberB with oldB | newB
        · obtain ⟨b, storedB, rfl⟩ := List.mem_map.mp oldB
          rw [key] at kin
          rw [alone b storedB kin] at workB
          cases workB
        · rw [List.mem_singleton.mp newB]

namespace Operation

theorem isWork_of_turnChange (now : Time) {c : Conversation} {op : Operation}
    (quiet : op.reopens = false) {turn : QueuedTurn} (member : turn ∈ c.turns.rows)
    (works : (op.turnChange now c turn).status.isWork) : turn.status.isWork := by
  by_contra rests
  have atRest : turn.status.isWork = false := by simpa using rests
  have ended := ((TurnStatus.isWork_eq turn.status).mp atRest).1
  rcases op.status_of_ended now quiet member ended with same | cleared
  · rw [same] at works
    exact rests works
  · rw [cleared] at works
    cases works

theorem isWork_turnChange_recoverStaleRuns (now staleAfter : Time) (c : Conversation)
    (turn : QueuedTurn) :
    ((recoverStaleRuns staleAfter).turnChange now c turn).status.isWork =
      c.worksAfterRecovery (now - staleAfter) turn := by
  unfold Conversation.worksAfterRecovery
  split
  · rename_i target
    obtain ⟨run, member, pointed⟩ := List.any_eq_true.mp target
    obtain ⟨last, prior, shape⟩ : ∃ last prior,
        c.recoverEndedTurnLoop now (now - staleAfter) (c.staleRuns (now - staleAfter)) turn =
          recoverEndedTurn now (c.newestTerminalEvent turn.clientRequestId) last prior :=
      c.recoverEndedTurnLoop_of_target ⟨run, member, by simpa using pointed⟩
    change (c.recoverEndedTurnLoop now (now - staleAfter) _ turn).status.isWork = _
    rw [shape]
    cases c.newestTerminalEvent turn.clientRequestId with
    | none =>
      simp only [recoverEndedTurn, reportsWork]
      split <;> rfl
    | some event =>
      simp only [recoverEndedTurn, reportsWork]
      by_cases failed : event.eventName = .error
      · simp [failed, TurnStatus.isWork, TurnStatus.isQueueable]
      · simp [failed]
  · rename_i missed
    rw [turnChange_recoverStaleRuns_of_not_target now staleAfter c (by simpa using missed)]

end Operation

/-- A step keeps the work of every family single exactly when what it puts to work has a family
at rest. -/
theorem noDuplicateWork_step_iff {c : Conversation} (links : c.LinksKnown) {call : Call}
    (byRetry : call.LinksByRetry) (single : c.NoDuplicateWork) :
    (step c call).NoDuplicateWork ↔ FamilyAtRest c call := by
  rw [noDuplicateWork_step_iff_rows links byRetry]
  obtain ⟨now, op⟩ := call
  have quiet_old (quiet : op.reopens = false) : ∀ a ∈ c.turns.rows, ∀ b ∈ c.turns.rows,
      c.lineage.Kin a.clientRequestId b.clientRequestId →
      (op.turnChange now c a).status.isWork → (op.turnChange now c b).status.isWork →
        a.clientRequestId = b.clientRequestId := by
    intro a memberA b memberB kin workA workB
    exact single a memberA b memberB kin (Operation.isWork_of_turnChange now quiet memberA workA)
      (Operation.isWork_of_turnChange now quiet memberB workB)
  cases op with
  | enqueue request =>
    refine iff_of_true ⟨quiet_old rfl, ?_⟩ trivial
    intro _ parent link
    have unlinked : nonempty request.resumeFromRequestId = none := byRetry
    simp [Operation.newLink, unlinked] at link
  | retryFailed failed requestId fits =>
    constructor
    · rintro ⟨_, rest⟩ starts
      obtain ⟨turn, rows⟩ := Conversation.rows_retryFailed_of_starts starts
      have longer : (step c ⟨now, .retryFailed failed requestId fits⟩).turns.rows.length ≠
          c.turns.rows.length := by
        change (c.retryFailed failed requestId fits).turns.rows.length ≠ _
        simp [rows]
      intro other member _ kin
      exact rest longer failed rfl other member kin
    · intro atRest
      refine ⟨quiet_old rfl, ?_⟩
      intro longer parent link other member kin
      cases Option.mem_some.mp link
      cases starts : c.startsRetry failed requestId fits with
      | false =>
        refine absurd ?_ longer
        change (c.retryFailed failed requestId fits).turns.rows.length = _
        rw [Conversation.retryFailed_eq_of_not_starts starts]
      | true =>
        by_cases same : other.clientRequestId = failed
        · have allowed := starts
          simp only [Conversation.startsRetry, Bool.and_eq_true] at allowed
          have isFailed := allowed.1.1.1.1
          rw [Table.find?_eq_some_iff.mpr ⟨member, same⟩, Option.any_some] at isFailed
          have status : other.status = .failed := by simpa using isFailed
          change other.status.isWork = false
          rw [status]
          rfl
        · exact atRest starts other member same kin
  | finish requestId status error =>
    have left (turn : QueuedTurn) (same : turn.clientRequestId = requestId) :
        ((Operation.finish requestId status error).turnChange now c turn).status =
          finishStatus status := by
      simp only [Operation.turnChange, if_pos same, finishTurn]
    have kept (turn : QueuedTurn) (other : turn.clientRequestId ≠ requestId) :
        (Operation.finish requestId status error).turnChange now c turn = turn := by
      simp only [Operation.turnChange, if_neg other]
    constructor
    · rintro ⟨old, _⟩ works other member notSame kin
      by_contra busy
      obtain ⟨turn, stored, rfl⟩ := Conversation.mem_keys_iff.mp kin.left_mem
      have same := old turn stored other member kin (by rw [left turn rfl]; exact works)
        (by rw [kept other notSame]; simpa using busy)
      exact notSame same.symm
    · intro atRest
      refine ⟨?_, fun _ parent link => absurd link (Option.not_mem_none parent)⟩
      intro a memberA b memberB kin workA workB
      by_cases sameA : a.clientRequestId = requestId
      · by_cases sameB : b.clientRequestId = requestId
        · rw [sameA, sameB]
        · rw [left a sameA] at workA
          rw [kept b sameB, atRest workA b memberB sameB (sameA ▸ kin)] at workB
          cases workB
      · rw [kept a sameA] at workA
        by_cases sameB : b.clientRequestId = requestId
        · rw [left b sameB] at workB
          rw [atRest workB a memberA sameA (sameB ▸ kin.symm)] at workA
          cases workA
        · rw [kept b sameB] at workB
          exact single a memberA b memberB kin workA workB
  | recoverStaleRuns =>
    simp only [Operation.isWork_turnChange_recoverStaleRuns]
    constructor
    · rintro ⟨old, _⟩ turn member _ works other otherMember notSame kin
      by_contra busy
      have same := old turn member other otherMember kin works (by simpa using busy)
      exact notSame same.symm
    · intro atRest
      refine ⟨?_, fun _ parent link => absurd link (Option.not_mem_none parent)⟩
      intro a memberA b memberB kin workA workB
      by_contra distinct
      cases beforeA : a.status.isWork with
      | false =>
        rw [atRest a memberA beforeA workA b memberB (fun same => distinct same.symm) kin] at workB
        cases workB
      | true =>
        cases beforeB : b.status.isWork with
        | false =>
          rw [atRest b memberB beforeB workB a memberA distinct kin.symm] at workA
          cases workA
        | true => exact distinct (single a memberA b memberB kin beforeA beforeB)
  | _ =>
    refine iff_of_true ⟨quiet_old rfl, ?_⟩ trivial
    intro _ parent link
    exact absurd link (Option.not_mem_none parent)

/-- In a history whose links are all made by `retry_failed`, every family does its work at most
once throughout exactly when every step that puts a turn to work finds its family at rest. -/
theorem retry_work_single_iff (calls : List Call) (byRetry : ∀ call ∈ calls, call.LinksByRetry) :
    (∀ c ∈ trace step .empty calls, c.NoDuplicateWork) ↔
      Guarded FamilyAtRest step .empty calls := by
  have expected : Guarded (fun _ call => call.LinksByRetry) step Conversation.empty calls :=
    guarded_of_forall byRetry
  refine forall_trace_iff_guarded_of_guarded (I := Conversation.LinksKnown) ?_ ?_ ?_ ?_ expected
  · intro c call links linked
    exact linksKnown_step links linked
  · intro c call links linked single
    exact noDuplicateWork_step_iff links linked single
  · intro turn member
    exact absurd member List.not_mem_nil
  · intro turn member
    exact absurd member List.not_mem_nil

def retriedTwice : List Call :=
  [ ⟨0, .enqueue (.plain "a" "go" false)⟩, ⟨0, .claim⟩, ⟨1, .finish "a" "failed" none⟩
  , ⟨2, .retryFailed "a" "b" true⟩, ⟨3, .claim⟩, ⟨4, .finish "b" "failed" none⟩
  , ⟨5, .retryFailed "b" "c" true⟩ ]

theorem second_retry_works_alone : (run step .empty retriedTwice).NoDuplicateWork := by
  refine (retry_work_single_iff retriedTwice ?_).mpr ?_ _ (run_mem_trace step .empty retriedTwice)
  · decide
  · refine ⟨trivial, trivial, ?_, ?_, trivial, ?_, ?_, trivial⟩
    · intro works
      cases works
    · intro _
      exact Conversation.restsBut_of_rest (by decide)
    · intro works
      cases works
    · intro _
      exact Conversation.restsBut_of_rest (by decide)

/-- The first failed turn may be retried as well: only its direct retries are looked at. -/
theorem parent_and_child_retried :
    ¬ ∀ (calls : List Call), (∀ call ∈ calls, call.LinksByRetry) →
      ∀ c ∈ trace step .empty calls, c.NoDuplicateWork := by
  intro single
  let calls := retriedTwice ++ [⟨6, .retryFailed "a" "d" true⟩]
  let c := run step .empty calls
  have last := single calls (by decide) c (run_mem_trace step .empty calls)
  have first : ∃ turn ∈ c.turns.rows, turn.clientRequestId = "c" ∧ turn.status.isWork := by
    decide +kernel
  have second : ∃ turn ∈ c.turns.rows, turn.clientRequestId = "d" ∧ turn.status.isWork := by
    decide +kernel
  obtain ⟨turnC, memberC, keyC, workC⟩ := first
  obtain ⟨turnD, memberD, keyD, workD⟩ := second
  have origin : "a" ∈ c.lineage.keys := by
    change (c.turns.find? "a").isSome = true
    decide +kernel
  have edge (parent child : String)
      (linked : (c.turns.find? parent).isSome = true ∧ (c.turns.find? child).any (fun turn =>
        decide (turn.resumeFromRequestId = some parent)) = true) : c.lineage.edge parent child :=
    linked
  have kin : c.lineage.Kin "c" "d" :=
    ⟨"a", origin, .tail (.single (edge "a" "b" (by decide +kernel))) (edge "b" "c" (by decide +kernel)),
      .single (edge "a" "d" (by decide +kernel))⟩
  have same := last turnC memberC turnD memberD (by rwa [keyC, keyD]) workC workD
  rw [keyC, keyD] at same
  exact absurd same (by decide)

end AverQel.DeepSpace
