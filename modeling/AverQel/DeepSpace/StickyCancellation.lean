/- digest: Which writes of the runtime store reopen a run whose cancellation was requested. -/
import AverQel.DeepSpace.RunLookups

namespace AverQel.DeepSpace

open Foundation Transition

def RunStatus.isOpen : RunStatus → Bool
  | running | awaitingUser | awaitingApproval => true
  | cancelling | ready | completed | failed | cancelled | blocked | other _ => false

theorem RunStatus.isOpen_of_isActive {s : RunStatus} (active : s.isActive)
    (other : s ≠ .cancelling) : s.isOpen := by
  cases s <;> first | rfl | exact absurd rfl other | cases active

namespace Operation

/-- The methods of `DeepSpaceRuntimeStore`. -/
def ofRuntimeStore : Operation → Bool
  | createRun .. | updateCheckpoint .. | heartbeat .. | recordStep .. | resolveApproval ..
  | clearPendingApproval .. | claimUserQuestion .. | requestCancelRuns
  | finishRequestedCancellations | finishRun .. | finishForRequest .. => true
  | _ => false

/-- The write puts the run into an open status, whatever it finds there. -/
def Reopens (runId : Uuid) (c : Conversation) : Operation → Prop
  | updateCheckpoint id status checkpoint lastError fits =>
    id = runId ∧ status.any RunStatus.isOpen ∧ ((checkpoint.isSome || lastError.isSome) → fits)
  | clearPendingApproval id _ fits => id = runId ∧ fits
  | finishRun id status _ => id = runId ∧ status.isOpen
  | resolveApproval approvalId decision =>
    decision = .approved ∧ ∃ found ∈ c.getRunForApproval approvalId, found.id = runId ∧
      ∃ pending ∈ found.checkpoint.pendingApproval, Conversation.alreadyResolved pending = false
  | _ => False

end Operation

/-- A requested cancellation holds: the run is not open, `finish_requested_cancellations` closes
it, and its worker can still store an outcome. -/
structure CancellationHolds (runId : Uuid) (c : Conversation) : Prop where
  closed : (c.runs.find? runId).any (fun run => !run.status.isOpen)
  reached : ∀ now, ((c.finishRequestedCancellations now).runs.find? runId).any
    (fun run => !run.status.isActive)
  finished : ∀ now status error, ((c.finishRun now runId status error).runs.find? runId).map
    AgentRun.status = some status

def CancelRequested (runId : Uuid) (c : Conversation) : Prop :=
  (c.runs.find? runId).any AgentRun.cancelRequested

theorem cancellationHolds_iff {runId : Uuid} {c : Conversation} {run : AgentRun}
    (found : c.runs.find? runId = some run) (requested : run.cancelRequested) :
    CancellationHolds runId c ↔ run.status.isOpen = false := by
  obtain ⟨member, key⟩ := Table.find?_eq_some_iff.mp found
  constructor
  · intro holds
    have closed := holds.closed
    rw [found, Option.any_some] at closed
    simpa using closed
  · intro closed
    refine ⟨?_, ?_, ?_⟩
    · rw [found, Option.any_some, closed]
      rfl
    · intro now
      unfold Conversation.finishRequestedCancellations
      rw [Table.find?_mapRows, found, Option.map_some, Option.any_some]
      by_cases cancelling : run.status = .cancelling
      · rw [if_pos ⟨cancelling, requested⟩]
        rfl
      · rw [if_neg fun both => cancelling both.1]
        cases active : run.status.isActive with
        | false => rfl
        | true =>
          rw [RunStatus.isOpen_of_isActive active cancelling] at closed
          cases closed
    · intro now status error
      unfold Conversation.finishRun Conversation.modifyRun
      rw [Table.find?_modify, if_pos rfl, found]
      rfl

namespace Operation

variable {now : Time} {runId : Uuid} {c : Conversation} {run : AgentRun}

def Keeps (runId : Uuid) (c : Conversation) (op : Operation) (run : AgentRun)
    (c' : Conversation) : Prop :=
  ∃ run', c'.runs.find? runId = some run' ∧ run'.cancelRequested = true ∧
    (run.status.isOpen = false → (run'.status.isOpen = false ↔ ¬ op.Reopens runId c))

variable {op : Operation}

theorem Keeps.of_same {c' : Conversation} {run' : AgentRun}
    (stored : c'.runs.find? runId = some run') (flag : run'.cancelRequested = true)
    (status : run.status.isOpen = false → run'.status.isOpen = false)
    (harmless : ¬ op.Reopens runId c) : Keeps runId c op run c' :=
  ⟨run', stored, flag, fun closed => iff_of_true (status closed) harmless⟩

theorem Keeps.of_modify {id : Uuid} {f : AgentRun → AgentRun} {hf : ∀ run, (f run).id = run.id}
    (found : c.runs.find? runId = some run) (flag : run.cancelRequested = true)
    (keepsFlag : (f run).cancelRequested = run.cancelRequested)
    (status : runId = id → run.status.isOpen = false → ((f run).status.isOpen = false ↔ ¬ op.Reopens runId c))
    (harmless : runId ≠ id → ¬ op.Reopens runId c) :
    Keeps runId c op run (c.modifyRun id f hf) := by
  unfold Conversation.modifyRun
  by_cases same : runId = id
  · refine ⟨f run, ?_, keepsFlag.trans flag, status same⟩
    rw [Table.find?_modify, if_pos same, found, Option.map_some]
  · refine .of_same ?_ flag (fun closed => closed) (harmless same)
    rw [Table.find?_modify, if_neg same, found]

theorem Keeps.of_mapRows {f : AgentRun → AgentRun} {hf : ∀ run, (f run).id = run.id}
    (found : c.runs.find? runId = some run) (flag : (f run).cancelRequested = true)
    (status : run.status.isOpen = false → ((f run).status.isOpen = false ↔ ¬ op.Reopens runId c)) :
    Keeps runId c op run { c with runs := c.runs.mapRows f hf } := by
  refine ⟨f run, ?_, flag, status⟩
  rw [Table.find?_mapRows, found, Option.map_some]

theorem keeps_updateCheckpoint (found : c.runs.find? runId = some run)
    (flag : run.cancelRequested = true) (id : Uuid) (status : Option RunStatus)
    (checkpoint : Option Checkpoint) (lastError : Option String) (fits : Bool) :
    Keeps runId c (updateCheckpoint id status checkpoint lastError fits) run
      (c.updateCheckpoint now id status checkpoint lastError fits) := by
  unfold Conversation.updateCheckpoint
  split
  · rename_i refused
    obtain ⟨written, full⟩ := Bool.and_eq_true_iff.mp refused
    refine .of_same found flag (fun closed => closed) ?_
    rintro ⟨_, _, fit⟩
    rw [fit written] at full
    cases full
  · rename_i fitting
    have fit : (checkpoint.isSome || lastError.isSome) → fits := by
      intro written
      rw [written, Bool.true_and] at fitting
      simpa using fitting
    refine .of_modify found flag rfl ?_ ?_
    · intro same closed
      cases status with
      | none => simp [Reopens, closed]
      | some =>
        simp only [Reopens, same, true_and, Option.any_some, Option.getD_some]
        constructor
        · intro closedStatus reopened
          rw [closedStatus] at reopened
          cases reopened.1
        · intro harmless
          by_contra opened
          exact harmless ⟨by simpa using opened, fit⟩
    · intro other reopened
      exact other reopened.1.symm

theorem keeps_resolveApproval (found : c.runs.find? runId = some run)
    (flag : run.cancelRequested = true) (approvalId : String) (decision : Conversation.Decision) :
    Keeps runId c (resolveApproval approvalId decision) run
      (c.resolveApproval now approvalId decision) := by
  unfold Conversation.resolveApproval
  cases hit : c.getRunForApproval approvalId with
  | none =>
    refine .of_same found flag (fun closed => closed) ?_
    rintro ⟨_, other, member, _⟩
    rw [hit] at member
    exact absurd member (Option.not_mem_none other)
  | some chosen =>
    dsimp only
    cases asked : chosen.checkpoint.pendingApproval with
    | none =>
      refine .of_same found flag (fun closed => closed) ?_
      rintro ⟨_, other, member, _, pending, pendingMember, _⟩
      rw [hit] at member
      cases Option.mem_some.mp member
      rw [asked] at pendingMember
      exact absurd pendingMember (Option.not_mem_none pending)
    | some pending =>
      dsimp only
      have undecided_of (reopened : (resolveApproval approvalId decision).Reopens runId c) :
          decision = .approved ∧ chosen.id = runId ∧
            Conversation.alreadyResolved pending = false := by
        obtain ⟨approved, other, member, key, asking, askingMember, undecided⟩ := reopened
        rw [hit] at member
        cases Option.mem_some.mp member
        rw [asked] at askingMember
        cases Option.mem_some.mp askingMember
        exact ⟨approved, key, undecided⟩
      split
      · rename_i resolved
        refine .of_same found flag (fun closed => closed) ?_
        intro reopened
        rw [resolved] at undecided_of
        cases (undecided_of reopened).2.2
      · rename_i undecided
        refine .of_modify found flag rfl ?_ ?_
        · intro same _
          cases decision with
          | approved =>
            refine iff_of_false Bool.noConfusion ?_
            intro harmless
            refine harmless ⟨rfl, chosen, hit, same.symm, pending, asked, ?_⟩
            simpa using undecided
          | denied =>
            refine iff_of_true rfl ?_
            intro reopened
            cases reopened.1
        · intro other reopened
          exact other (undecided_of reopened).2.1.symm

theorem keeps_claimUserQuestion (found : c.runs.find? runId = some run)
    (flag : run.cancelRequested = true) (questionId answer : String) :
    Keeps runId c (claimUserQuestion questionId answer) run
      (c.claimUserQuestion now questionId answer) := by
  obtain ⟨member, key⟩ := Table.find?_eq_some_iff.mp found
  unfold Conversation.claimUserQuestion
  split
  · rename_i chosen claimed
    obtain ⟨listed, waiting, _⟩ := Conversation.questionClaim_spec claimed
    have stored : chosen ∈ c.runs.rows :=
      (List.mem_insertionSort _).mp (List.mem_filter.mp listed).1
    refine .of_modify found flag rfl ?_ ?_
    · intro same closed
      rw [← c.runs.eq_of_key_eq stored member (same.symm.trans key.symm), waiting] at closed
      cases closed
    · intro _ reopened
      exact reopened
  · exact .of_same found flag (fun closed => closed) (fun reopened => reopened)

/-- A write of the runtime store keeps the flag, and reopens a closed run exactly when it is one
of those that overwrite the status. -/
theorem keeps_apply (found : c.runs.find? runId = some run) (flag : run.cancelRequested = true)
    (store : op.ofRuntimeStore) : Keeps runId c op run (op.apply now c) := by
  have idle {c' : Conversation} {op : Operation} (same : c'.runs = c.runs)
      (harmless : ¬ op.Reopens runId c) : Keeps runId c op run c' := by
    refine .of_same ?_ flag (fun closed => closed) harmless
    rw [same]
    exact found
  cases op with
  | createRun newId messageId checkpoint fits =>
    obtain ⟨member, key⟩ := Table.find?_eq_some_iff.mp found
    simp only [apply, Conversation.createRun]
    split
    · split
      · rename_i runs inserted
        refine .of_same ?_ flag (fun closed => closed) (fun reopened => reopened)
        exact Table.find?_eq_some_iff.mpr ⟨(Table.mem_of_insert? inserted).mpr (.inl member), key⟩
      · exact idle rfl (fun reopened => reopened)
    · exact idle rfl (fun reopened => reopened)
  | updateCheckpoint id status checkpoint lastError fits =>
    exact keeps_updateCheckpoint found flag id status checkpoint lastError fits
  | heartbeat =>
    refine .of_modify found flag ?_ ?_ (fun _ reopened => reopened)
    · split <;> rfl
    · intro _ closed
      refine iff_of_true ?_ (fun reopened => reopened)
      split <;> exact closed
  | recordStep =>
    simp only [apply, Conversation.recordStep]
    split
    · refine .of_modify found flag rfl ?_ (fun _ reopened => reopened)
      intro _ closed
      exact iff_of_true closed (fun reopened => reopened)
    · exact idle rfl (fun reopened => reopened)
  | resolveApproval approvalId decision => exact keeps_resolveApproval found flag approvalId decision
  | clearPendingApproval id checkpoint fits =>
    let cleared := { checkpoint.getD .empty with pendingApproval := none, phase := some "tool" }
    obtain ⟨run', stored, kept, status⟩ : Keeps runId c
        (updateCheckpoint id (some .running) (some cleared) none fits) run
        (c.updateCheckpoint now id (some .running) (some cleared) none fits) :=
      keeps_updateCheckpoint found flag id (some .running) (some cleared) none fits
    refine ⟨run', stored, kept, ?_⟩
    intro closed
    rw [status closed]
    simp [Reopens, RunStatus.isOpen]
  | claimUserQuestion questionId answer => exact keeps_claimUserQuestion found flag questionId answer
  | requestCancelRuns =>
    refine .of_mapRows found ?_ ?_
    · split
      · rfl
      · exact flag
    · intro closed
      refine iff_of_true ?_ (fun reopened => reopened)
      split
      · rfl
      · exact closed
  | finishRequestedCancellations =>
    refine .of_mapRows found ?_ ?_
    · split <;> exact flag
    · intro closed
      refine iff_of_true ?_ (fun reopened => reopened)
      split
      · rfl
      · exact closed
  | finishRun =>
    refine .of_modify found flag rfl ?_ ?_
    · intro same _
      simp [Reopens, same]
    · intro other reopened
      exact other reopened.1.symm
  | finishForRequest requestId status error =>
    simp only [apply, Conversation.finishForRequest]
    split
    · rename_i target chosen accepted newest
      have closedTarget : target.isOpen = false := by
        cases status <;> simp [Conversation.finishTarget] at accepted <;> subst accepted <;> rfl
      have kept : Keeps runId c (finishForRequest requestId status error) run (c.modifyRun chosen.id
          (fun run =>
            if run.status.isActive then
              { run with
                status := target
                updatedAt := now
                heartbeatAt := none
                lastError := ((Foundation.Text.nonempty error).map
                  (Foundation.Text.truncate 2000)).or run.lastError }
            else run)
          (fun run => by split <;> rfl)) := by
        refine .of_modify found flag ?_ ?_ (fun _ reopened => reopened)
        · split <;> rfl
        · intro _ closed
          refine iff_of_true ?_ (fun reopened => reopened)
          split
          · exact closedTarget
          · exact closed
      split
      · exact kept
      · exact kept
    · exact idle rfl (fun reopened => reopened)
  | _ => cases store

end Operation

theorem cancelRequested_iff {runId : Uuid} {c : Conversation} :
    CancelRequested runId c ↔ ∃ run, c.runs.find? runId = some run ∧ run.cancelRequested = true :=
  Option.any_eq_true _ _

theorem cancellationHolds_step_iff {runId : Uuid} {c : Conversation} {call : Call}
    (requested : CancelRequested runId c) (store : call.operation.ofRuntimeStore)
    (holds : CancellationHolds runId c) :
    CancellationHolds runId (step c call) ↔ ¬ call.operation.Reopens runId c := by
  obtain ⟨run, found, flag⟩ := cancelRequested_iff.mp requested
  have closed := (cancellationHolds_iff found flag).mp holds
  obtain ⟨run', stored, kept, status⟩ : Operation.Keeps runId c call.operation run (step c call) :=
    Operation.keeps_apply found flag store
  rw [cancellationHolds_iff stored kept]
  exact status closed

/-- Whatever the runtime store is asked to do after `request_cancel` has matched a run, the
cancellation holds throughout exactly when no write reopens the run. -/
theorem cancellation_sticky_iff {c : Conversation} {runId : Uuid}
    (matched : (c.runs.find? runId).any (fun run => run.status.isActive)) (now : Time)
    {calls : List Call} (store : ∀ call ∈ calls, call.operation.ofRuntimeStore) :
    (∀ t ∈ trace step (c.requestCancelRuns now) calls, CancellationHolds runId t) ↔
      Guarded (fun c call => ¬ call.operation.Reopens runId c) step (c.requestCancelRuns now)
        calls := by
  obtain ⟨run, found, active⟩ := (Option.any_eq_true _ _).mp matched
  have cancelled : (c.requestCancelRuns now).runs.find? runId =
      some { run with cancelRequested := true, status := .cancelling, updatedAt := now } := by
    unfold Conversation.requestCancelRuns
    rw [Table.find?_mapRows, found, Option.map_some, if_pos active]
  have requested : CancelRequested runId (c.requestCancelRuns now) :=
    cancelRequested_iff.mpr ⟨_, cancelled, rfl⟩
  have start : CancellationHolds runId (c.requestCancelRuns now) :=
    (cancellationHolds_iff cancelled rfl).mpr rfl
  have expected : Guarded (fun _ call => call.operation.ofRuntimeStore = true) step
      (c.requestCancelRuns now) calls := guarded_of_forall store
  refine forall_trace_iff_guarded_of_guarded (I := CancelRequested runId) ?_ ?_ requested start
    expected
  · intro c call flagged fromStore
    obtain ⟨run, found, flag⟩ := cancelRequested_iff.mp flagged
    obtain ⟨run', stored, kept, _⟩ : Operation.Keeps runId c call.operation run (step c call) :=
      Operation.keeps_apply found flag fromStore
    exact cancelRequested_iff.mpr ⟨run', stored, kept⟩
  · intro c call flagged fromStore holds
    exact cancellationHolds_step_iff flagged fromStore holds

def workingRun : Conversation :=
  run step .empty
    [ ⟨0, .saveMessage ⟨1, .assistant, ⟨some "a", some "streaming", true, none, none⟩⟩⟩
    , ⟨0, .createRun 7 1 none true⟩ ]

def cooperativeStop : List Call :=
  [ ⟨2, .heartbeat 7⟩, ⟨2, .recordStep 7 true⟩, ⟨3, .finishRequestedCancellations⟩
  , ⟨4, .finishForRequest "a" .cancelled none⟩ ]

theorem cooperative_stop_holds :
    CancellationHolds 7 (run step (workingRun.requestCancelRuns 1) cooperativeStop) := by
  refine (cancellation_sticky_iff (by decide) 1 (by decide)).mpr ?_ _ (run_mem_trace _ _ _)
  refine ⟨?_, ?_, ?_, ?_, trivial⟩ <;> exact fun reopened => reopened

/-- The next checkpoint of the worker makes the run look active again. -/
theorem checkpoint_reopens_cancelled_run :
    ¬ ∀ (c : Conversation) (runId : Uuid) (now : Time) (calls : List Call),
      (c.runs.find? runId).any (fun run => run.status.isActive) →
      (∀ call ∈ calls, call.operation.ofRuntimeStore) →
      ∀ t ∈ trace step (c.requestCancelRuns now) calls, CancellationHolds runId t := by
  intro sticky
  let calls : List Call := [⟨2, .updateCheckpoint 7 (some .running) (some .empty) none true⟩]
  have holds := sticky workingRun 7 1 calls (by decide) (by decide) _ (run_mem_trace _ _ _)
  exact absurd holds.closed (by decide)

end AverQel.DeepSpace
