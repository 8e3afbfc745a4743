/- digest: What recovery makes of a claimed turn whose newest run has already ended. -/
import AverQel.DeepSpace.TurnMoves

namespace AverQel.DeepSpace

open Foundation Transition
open Foundation.Text (nonempty strip)

def durableOutcome : RunStatus → Option TurnStatus
  | .ready | .completed => some .completed
  | .failed | .blocked => some .failed
  | .cancelled => some .cancelled
  | .running | .awaitingUser | .awaitingApproval | .cancelling | .other _ => none

theorem durableOutcome_terminal {status : RunStatus} {target : TurnStatus}
    (h : durableOutcome status = some target) : target.isTerminal := by
  cases status <;> cases h <;> rfl

/-- Recovery of one claim finds the matching status for every ended run but a `ready` one. -/
theorem recoverClaim_matches_iff (now : Time) {run : AgentRun} {target : TurnStatus}
    (turn : QueuedTurn) (ended : durableOutcome run.status = some target) :
    (recoverClaim now (some run) turn).status = target ↔ run.status ≠ .ready := by
  cases status : run.status <;>
    simp [durableOutcome, status] at ended <;> subst ended <;> simp [recoverClaim, status]

namespace Conversation

def SameJoins (c c' : Conversation) : Prop :=
  ∀ messageId, (c'.messages.find? messageId).bind (fun m => m.metadata.clientRequestId) =
    (c.messages.find? messageId).bind (fun m => m.metadata.clientRequestId)

theorem SameJoins.refl (c : Conversation) : c.SameJoins c := fun _ => rfl

theorem SameJoins.trans {a b c : Conversation} (h : a.SameJoins b) (h' : b.SameJoins c) :
    a.SameJoins c :=
  fun messageId => (h' messageId).trans (h messageId)

theorem SameJoins.runRequestId {c c' : Conversation} (h : c.SameJoins c') (run : AgentRun) :
    c'.runRequestId run = c.runRequestId run := by
  unfold Conversation.runRequestId
  cases run.assistantMessageId with
  | none => rfl
  | some messageId => exact h messageId

theorem sameJoins_modify (c : Conversation) {c' : Conversation} {messageId : Uuid}
    {f : MessageMetadata → MessageMetadata}
    (keeps : ∀ metadata, (f metadata).clientRequestId = metadata.clientRequestId)
    (h : c'.messages = c.messages.modify messageId
      (fun row => { row with metadata := f row.metadata }) (fun _ => rfl)) :
    c.SameJoins c' := by
  intro other
  rw [h, Table.find?_modify]
  split
  · cases c.messages.find? other with
    | none => rfl
    | some message => exact keeps message.metadata
  · rfl

theorem leaseExpiredMetadata_clientRequestId (cancelled : Bool) (metadata : MessageMetadata) :
    (leaseExpiredMetadata cancelled metadata).clientRequestId = metadata.clientRequestId := by
  unfold leaseExpiredMetadata
  split
  · split <;> rfl
  · rfl

theorem recoverEndedMetadata_clientRequestId (event : Option RunEvent) (turn : QueuedTurn)
    (metadata : MessageMetadata) :
    (recoverEndedMetadata event turn metadata).clientRequestId = metadata.clientRequestId := by
  unfold recoverEndedMetadata
  cases event with
  | none => rfl
  | some =>
    dsimp only
    split
    · split <;> rfl
    · rfl

theorem closeExpiredWorkerStream_sameJoins (now : Time) (requestId : String) (runId : Uuid)
    (c : Conversation) : c.SameJoins (c.closeExpiredWorkerStream now requestId runId) := by
  unfold closeExpiredWorkerStream
  cases c.runs.find? runId with
  | none => exact .refl c
  | some run =>
    dsimp only
    split
    · exact .refl c
    · split
      · cases c.assistantOf run with
        | none => exact .refl c
        | some =>
          exact c.sameJoins_modify (leaseExpiredMetadata_clientRequestId _) rfl
      · exact .refl c

theorem closeStreams_frame (now : Time) (pairs : List (String × Uuid)) (c : Conversation) :
    (c.closeStreams now pairs).turns = c.turns ∧ (c.closeStreams now pairs).runs = c.runs ∧
      c.SameJoins (c.closeStreams now pairs) := by
  unfold closeStreams
  induction pairs generalizing c with
  | nil => exact ⟨rfl, rfl, .refl c⟩
  | cons pair pairs ih =>
    obtain ⟨turns, runs, joins⟩ := ih (c.closeExpiredWorkerStream now pair.1 pair.2)
    have frame := Operation.frame_apply now c (.closeStream pair.1 pair.2)
    refine ⟨turns.trans (frame.turns rfl), runs.trans (frame.runs rfl), ?_⟩
    exact (c.closeExpiredWorkerStream_sameJoins now pair.1 pair.2).trans joins

theorem hasActiveRun_closeStreams (now : Time) (pairs : List (String × Uuid)) (c : Conversation) :
    (c.closeStreams now pairs).hasActiveRun = c.hasActiveRun := by
  obtain ⟨_, runs, _⟩ := c.closeStreams_frame now pairs
  unfold hasActiveRun
  rw [runs]

theorem newestRunFor_closeStreams (now : Time) (pairs : List (String × Uuid)) (c : Conversation)
    (requestId : String) :
    (c.closeStreams now pairs).newestRunFor requestId = c.newestRunFor requestId := by
  obtain ⟨_, runs, joins⟩ := c.closeStreams_frame now pairs
  have request (run : AgentRun) : (c.closeStreams now pairs).runRequestId run = c.runRequestId run :=
    joins.runRequestId run
  unfold newestRunFor
  rw [runs]
  simp only [request]

def settlesRun (c : Conversation) (cutoff : Time) (run : AgentRun) : Bool :=
  leaseExpired cutoff run &&
    (c.recoveryTarget cutoff run).any (fun requestId =>
      !reportsPause (c.newestTerminalEvent requestId))

def keepsActiveRun (c : Conversation) (cutoff : Time) : Bool :=
  c.runs.rows.any (fun run => run.status.isActive && !c.settlesRun cutoff run)

end Conversation

theorem active_reportedRunStatus (frameStatus : Option String) :
    (reportedRunStatus frameStatus).isActive =
      (reportedTurnStatus (reportedRunStatus frameStatus)).isPaused := by
  unfold reportedRunStatus
  split <;> rfl

theorem active_recoverEndedRun (now : Time) (event : Option RunEvent) (turn : QueuedTurn)
    (run : AgentRun) : (recoverEndedRun now event turn run).status.isActive = reportsPause event := by
  cases event with
  | none =>
    simp only [recoverEndedRun, reportsPause]
    split <;> rfl
  | some event =>
    simp only [recoverEndedRun, reportsPause]
    by_cases failed : event.eventName = .error
    · simp [failed, RunStatus.isActive]
    · simp [failed, active_reportedRunStatus]

namespace Conversation

structure RunsChange (c c' : Conversation) (change : AgentRun → AgentRun) : Prop where
  rows : c'.runs.rows = c.runs.rows.map change
  id : ∀ row, (change row).id = row.id
  assistant : ∀ row, (change row).assistantMessageId = row.assistantMessageId

/-- `change` settles or pauses the runs that the loop points at and leaves the others. -/
structure Settles (stored : Conversation) (cutoff : Time) (runs : List AgentRun)
    (change : AgentRun → AgentRun) : Prop where
  idle : ∀ row, (∀ run ∈ runs, run.id = row.id → stored.recoveryTarget cutoff run = none) →
    change row = row
  settled : ∀ run ∈ runs, ∀ requestId, stored.recoveryTarget cutoff run = some requestId →
    ∀ row, row.id = run.id →
      (change row).status.isActive = reportsPause (stored.newestTerminalEvent requestId)

theorem recoverEndedRun_assistant (now : Time) (event : Option RunEvent) (turn : QueuedTurn)
    (run : AgentRun) :
    (recoverEndedRun now event turn run).assistantMessageId = run.assistantMessageId := by
  unfold recoverEndedRun
  cases event with
  | none | some => dsimp only; split <;> rfl

theorem reconcileRun_runs (now cutoff : Time) (stored c : Conversation) (run : AgentRun)
    (turns : ∀ requestId, stored.recoveryTarget cutoff run = some requestId →
      (c.turns.find? requestId).isSome) :
    ∃ change, RunsChange c (reconcileRun now cutoff stored c run) change ∧
      Settles stored cutoff [run] change := by
  cases target : stored.recoveryTarget cutoff run with
  | none =>
    refine ⟨fun row => row, ⟨?_, fun _ => rfl, fun _ => rfl⟩, fun _ _ => rfl, ?_⟩
    · rw [List.map_id']
      simp only [reconcileRun, target]
    · intro other member requestId chosen
      rw [List.mem_singleton.mp member, target] at chosen
      cases chosen
  | some requestId =>
    obtain ⟨turn, found⟩ := Option.isSome_iff_exists.mp (turns requestId target)
    let event := stored.newestTerminalEvent requestId
    refine ⟨fun row => if row.id = run.id then recoverEndedRun now event turn row else row,
      ⟨?_, ?_, ?_⟩, ?_, ?_⟩
    · simp only [reconcileRun, target, found]
      rfl
    · intro row
      split <;> simp
    · intro row
      split
      · exact recoverEndedRun_assistant now event turn row
      · rfl
    · intro row untouched
      refine if_neg fun same => ?_
      have none_target := untouched run (List.mem_singleton_self run) same.symm
      rw [target] at none_target
      cases none_target
    · intro other member chosen hchosen row same
      rw [List.mem_singleton.mp member] at hchosen same
      rw [target] at hchosen
      cases hchosen
      simp only [if_pos same, active_recoverEndedRun, event]

theorem find?_isSome_reconcileRun (now cutoff : Time) (stored c : Conversation) (run : AgentRun)
    (requestId : String) : ((reconcileRun now cutoff stored c run).turns.find? requestId).isSome =
      (c.turns.find? requestId).isSome := by
  unfold reconcileRun
  split
  · rfl
  · split
    · rfl
    · simp only [Table.find?_modify]
      split
      · rw [Option.isSome_map]
      · rfl

theorem foldl_reconcileRun_runs (now cutoff : Time) (stored : Conversation)
    (runs : List AgentRun) (distinct : (runs.map AgentRun.id).Nodup) (c : Conversation)
    (turns : ∀ run ∈ runs, ∀ requestId, stored.recoveryTarget cutoff run = some requestId →
      (c.turns.find? requestId).isSome) :
    ∃ change, RunsChange c (runs.foldl (reconcileRun now cutoff stored) c) change ∧
      Settles stored cutoff runs change := by
  induction runs generalizing c with
  | nil =>
    refine ⟨fun row => row, ⟨?_, fun _ => rfl, fun _ => rfl⟩, fun _ _ => rfl, ?_⟩
    · rw [List.foldl_nil, List.map_id']
    · intro run member
      cases member
  | cons run runs ih =>
    obtain ⟨first, changeFirst, settlesFirst⟩ :=
      reconcileRun_runs now cutoff stored c run (turns run List.mem_cons_self)
    rw [List.map_cons, List.nodup_cons] at distinct
    obtain ⟨rest, changeRest, settlesRest⟩ := ih distinct.2 (reconcileRun now cutoff stored c run)
      (fun other member requestId target => by
        rw [find?_isSome_reconcileRun]
        exact turns other (List.mem_cons_of_mem _ member) requestId target)
    refine ⟨fun row => rest (first row), ⟨?_, ?_, ?_⟩, ?_, ?_⟩
    · rw [List.foldl_cons, changeRest.rows, changeFirst.rows, List.map_map]
      rfl
    · exact fun row => (changeRest.id _).trans (changeFirst.id row)
    · exact fun row => (changeRest.assistant _).trans (changeFirst.assistant row)
    · intro row untouched
      have head : first row = row := settlesFirst.idle row fun other member same => by
        rw [List.mem_singleton.mp member] at same ⊢
        exact untouched run List.mem_cons_self same
      rw [head]
      exact settlesRest.idle row fun other member same =>
        untouched other (List.mem_cons_of_mem _ member) same
    · intro other member requestId target row same
      rcases List.mem_cons.mp member with rfl | later
      · have kept : rest (first row) = first row := by
          refine settlesRest.idle _ fun next nextMember nextSame => ?_
          refine absurd ?_ distinct.1
          rw [← same, ← changeFirst.id row, ← nextSame]
          exact List.mem_map_of_mem nextMember
        rw [kept]
        exact settlesFirst.settled other (List.mem_singleton_self other) requestId target row same
      · exact settlesRest.settled other later requestId target (first row)
          ((changeFirst.id row).trans same)

theorem foldl_reconcileRun_sameJoins (now cutoff : Time) (stored : Conversation)
    (runs : List AgentRun) (c : Conversation) :
    c.SameJoins (runs.foldl (reconcileRun now cutoff stored) c) := by
  induction runs generalizing c with
  | nil => exact .refl c
  | cons run runs ih =>
    refine SameJoins.trans ?_ (ih (reconcileRun now cutoff stored c run))
    unfold reconcileRun
    split
    · exact .refl c
    · rename_i requestId _
      split
      · exact .refl c
      · rename_i turn _
        cases message : run.assistantMessageId with
        | none => exact .refl c
        | some =>
          exact c.sameJoins_modify (recoverEndedMetadata_clientRequestId
            (stored.newestTerminalEvent requestId) turn) rfl

theorem recoverStaleRuns_runs (now cutoff : Time) (c : Conversation) :
    ∃ change, RunsChange c (c.recoverStaleRunsForTerminalTurns now cutoff) change ∧
      Settles c cutoff (c.staleRuns cutoff) change := by
  refine foldl_reconcileRun_runs now cutoff c (c.staleRuns cutoff) ?_ c ?_
  · exact c.runs.keys_nodup.sublist (List.filter_sublist.map _)
  · intro run _ requestId target
    obtain ⟨_, ended⟩ := Option.filter_eq_some_iff.mp target
    obtain ⟨turn, found⟩ := Option.isSome_iff_exists.mp ended
    rw [(Option.filter_eq_some_iff.mp found).1]
    rfl

variable {cutoff : Time}

theorem RunStatus_isActive_of_leaseExpired {run : AgentRun} (h : leaseExpired cutoff run) :
    run.status.isActive := by
  simp only [leaseExpired, Bool.and_eq_true] at h
  cases status : run.status <;> simp [status, RunStatus.isWorker, RunStatus.isActive] at h ⊢

theorem active_of_settles {c : Conversation} {change : AgentRun → AgentRun}
    (settles : Settles c cutoff (c.staleRuns cutoff) change) {run : AgentRun}
    (member : run ∈ c.runs.rows) :
    (change run).status.isActive = (run.status.isActive && !c.settlesRun cutoff run) := by
  unfold settlesRun
  cases stale : leaseExpired cutoff run with
  | false =>
    have idle : change run = run := settles.idle run fun other otherMember same => by
      obtain ⟨stored, expired⟩ := List.mem_filter.mp otherMember
      rw [c.runs.eq_of_key_eq stored member same, stale] at expired
      cases expired
    simp [idle]
  | true =>
    have listed : run ∈ c.staleRuns cutoff := List.mem_filter.mpr ⟨member, stale⟩
    cases target : c.recoveryTarget cutoff run with
    | none =>
      have idle : change run = run := settles.idle run fun other otherMember same => by
        rw [c.runs.eq_of_key_eq (List.mem_filter.mp otherMember).1 member same, target]
      simp [idle]
    | some requestId =>
      rw [settles.settled run listed requestId target run rfl,
        RunStatus_isActive_of_leaseExpired stale]
      simp

theorem hasActiveRun_recoverStaleRuns (now cutoff : Time) (c : Conversation) :
    (c.recoverStaleRunsForTerminalTurns now cutoff).hasActiveRun = c.keepsActiveRun cutoff := by
  obtain ⟨change, runs, settles⟩ := c.recoverStaleRuns_runs now cutoff
  unfold hasActiveRun keepsActiveRun
  rw [runs.rows, Bool.eq_iff_iff, List.any_map]
  simp only [List.any_eq_true, Function.comp_apply]
  constructor
  · rintro ⟨run, member, active⟩
    exact ⟨run, member, (active_of_settles settles member).symm.trans active⟩
  · rintro ⟨run, member, active⟩
    exact ⟨run, member, (active_of_settles settles member).trans active⟩

theorem recoveryTarget_eq {c : Conversation} {run : AgentRun} {requestId target : String}
    (ofRequest : c.runRequestId run = some requestId) (stripped : strip requestId = requestId)
    (h : c.recoveryTarget cutoff run = some target) :
    target = requestId ∧ (c.endedTurn cutoff target).isSome := by
  obtain ⟨named, ended⟩ := Option.filter_eq_some_iff.mp h
  refine ⟨?_, ended⟩
  obtain ⟨message, assistant, text⟩ := Option.bind_eq_some_iff.mp named
  have joined := (Option.filter_eq_some_iff.mp assistant).1
  unfold runRequestId at ofRequest
  rw [joined, Option.bind_some] at ofRequest
  rw [ofRequest, Option.getD_some, stripped, Foundation.Text.nonempty_eq_some_iff] at text
  exact (Option.some.inj text.1).symm

theorem newestRunFor_recoverStaleRuns (now cutoff : Time) {c : Conversation} {turn : QueuedTurn}
    (member : turn ∈ c.turns.rows) (claimed : turn.status.isClaimed)
    (stripped : strip turn.clientRequestId = turn.clientRequestId) :
    (c.recoverStaleRunsForTerminalTurns now cutoff).newestRunFor turn.clientRequestId =
      c.newestRunFor turn.clientRequestId := by
  obtain ⟨change, runs, settles⟩ := c.recoverStaleRuns_runs now cutoff
  have joins : c.SameJoins (c.recoverStaleRunsForTerminalTurns now cutoff) :=
    c.foldl_reconcileRun_sameJoins now cutoff (c.staleRuns cutoff) c
  have request (run : AgentRun) :
      (c.recoverStaleRunsForTerminalTurns now cutoff).runRequestId (change run) =
        c.runRequestId run := by
    rw [joins.runRequestId]
    unfold runRequestId
    rw [runs.assistant run]
  have untouched (run : AgentRun) (runMember : run ∈ c.runs.rows)
      (ofTurn : c.runRequestId run = some turn.clientRequestId) : change run = run := by
    refine settles.idle run fun other otherMember same => ?_
    rw [c.runs.eq_of_key_eq (List.mem_filter.mp otherMember).1 runMember same]
    by_contra targeted
    obtain ⟨target, chosen⟩ := Option.ne_none_iff_exists'.mp targeted
    obtain ⟨rfl, ended⟩ := recoveryTarget_eq ofTurn stripped chosen
    have found := Table.find?_eq_some_iff.mpr ⟨member, rfl⟩
    rw [endedTurn, found] at ended
    obtain ⟨other, overdue⟩ := Option.isSome_iff_exists.mp ended
    obtain ⟨same, ended⟩ := Option.filter_eq_some_iff.mp overdue
    cases same
    have terminal := (Bool.and_eq_true_iff.mp ended).1
    exact TurnStatus.not_isTerminal_of_isClaimed claimed terminal
  unfold newestRunFor
  rw [runs.rows, List.filter_map]
  simp only [Function.comp_def, request]
  rw [List.map_congr_left (g := fun run => run), List.map_id']
  intro run listed
  obtain ⟨stored, ofTurn⟩ := List.mem_filter.mp listed
  exact untouched run stored (by simpa using ofTurn)

end Conversation

/-- Recovery gives a claimed turn the outcome of its ended run exactly when the claim is stale,
no run of the conversation stays active, and the run did not end as `ready`. -/
theorem recovery_keeps_outcome_iff {c : Conversation} {requestId : String} {turn : QueuedTurn}
    {run : AgentRun} {outcome : TurnStatus} (stripped : strip requestId = requestId)
    (found : c.turns.find? requestId = some turn) (claimed : turn.status.isClaimed)
    (newest : c.newestRunFor requestId = some run)
    (ended : durableOutcome run.status = some outcome) (now staleAfter : Time) :
    (c.recoverStaleClaims now staleAfter).turnStatus requestId = some outcome ↔
      before turn.startedAt (now - staleAfter) ∧ c.keepsActiveRun (now - staleAfter) = false ∧
        run.status ≠ .ready := by
  obtain ⟨member, rfl⟩ := Table.find?_eq_some_iff.mp found
  let reconciled := c.recoverStaleRunsForTerminalTurns now (now - staleAfter)
  let closed := reconciled.closeStreams now (c.interruptedRuns (now - staleAfter))
  have not_target : c.isRecoveryTarget (now - staleAfter) turn.clientRequestId = false := by
    by_contra target
    have terminal := (Conversation.ended_of_isRecoveryTarget member (by simpa using target)).1
    exact TurnStatus.not_isTerminal_of_isClaimed claimed terminal
  have kept : closed.turns.find? turn.clientRequestId = some turn := by
    rw [(reconciled.closeStreams_frame now _).1]
    have same := (Operation.recoverStaleRuns staleAfter).find?_apply now found
    rwa [Operation.turnChange_recoverStaleRuns_of_not_target now staleAfter c not_target] at same
  have active : closed.hasActiveRun = c.keepsActiveRun (now - staleAfter) := by
    rw [reconciled.hasActiveRun_closeStreams, c.hasActiveRun_recoverStaleRuns]
  have newest' : closed.newestRunFor turn.clientRequestId = some run := by
    rw [reconciled.newestRunFor_closeStreams,
      Conversation.newestRunFor_recoverStaleRuns now _ member claimed stripped, newest]
  have final : (c.recoverStaleClaims now staleAfter).turnStatus turn.clientRequestId =
      some ((Operation.recoverClaims staleAfter).turnChange now closed turn).status := by
    obtain ⟨turnsLast, _, _⟩ := (closed.recoverClaims now (now - staleAfter)).closeStreams_frame now
      (closed.expiredRuns (now - staleAfter))
    have step := (Operation.recoverClaims staleAfter).find?_apply now kept
    unfold Conversation.turnStatus
    change Option.map _ (((closed.recoverClaims now (now - staleAfter)).closeStreams now
      (closed.expiredRuns (now - staleAfter))).turns.find? _) = _
    rw [turnsLast]
    exact congrArg (Option.map QueuedTurn.status) step
  rw [final, Option.some.injEq]
  simp only [Operation.turnChange, active, staleClaim, claimed, Bool.true_and, newest']
  split
  · rename_i taken
    rw [recoverClaim_matches_iff now turn ended]
    exact ⟨fun ready => ⟨taken.2, taken.1, ready⟩, fun all => all.2.2⟩
  · rename_i left
    refine iff_of_false ?_ fun all => left ⟨all.2.1, all.1⟩
    intro same
    have terminal := durableOutcome_terminal ended
    rw [← same] at terminal
    exact TurnStatus.not_isTerminal_of_isClaimed claimed terminal

/-- A claimed turn `a` whose run was closed by `finish_for_request`. -/
def closedRunConversation (status : RunStatus) : Conversation :=
  run step .empty
    [ ⟨0, .enqueue (.plain "a" "go" false)⟩
    , ⟨0, .claim⟩
    , ⟨1, .saveMessage ⟨1, .assistant, ⟨some "a", some "streaming", true, none, none⟩⟩⟩
    , ⟨1, .createRun 7 1 none true⟩
    , ⟨2, .finishForRequest "a" status none⟩ ]

theorem failed_run_fails_its_turn :
    ((closedRunConversation .failed).recoverStaleClaims (staleDispatchAfter + 1)
      staleDispatchAfter).turnStatus "a" = some .failed :=
  (recovery_keeps_outcome_iff (by decide)
    (Option.some_get (by decide : ((closedRunConversation .failed).turns.find? "a").isSome)).symm
    (by decide)
    (Option.some_get (by decide : ((closedRunConversation .failed).newestRunFor "a").isSome)).symm
    (by decide) _ _).mpr (by decide)

/-- A run that completed is stored as `ready`; its turn is queued again, to run once more. -/
theorem ready_run_is_queued_again :
    ¬ ∀ (earlier : List Call) (requestId : String) (now : Time),
      ((run step .empty earlier).turnStatus requestId).any TurnStatus.isClaimed →
      (((run step .empty earlier).newestRunFor requestId).bind
        (fun run => durableOutcome run.status)).isSome →
      ((run step .empty earlier).recoverStaleClaims now staleDispatchAfter).turnStatus requestId ≠
        some .queued := by
  intro preserved
  refine preserved
    [ ⟨0, .enqueue (.plain "a" "go" false)⟩
    , ⟨0, .claim⟩
    , ⟨1, .saveMessage ⟨1, .assistant, ⟨some "a", some "streaming", true, none, none⟩⟩⟩
    , ⟨1, .createRun 7 1 none true⟩
    , ⟨2, .finishForRequest "a" .ready none⟩ ]
    "a" (staleDispatchAfter + 1) ?_ ?_ ?_ <;> decide

end AverQel.DeepSpace
