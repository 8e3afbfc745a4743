/- digest: When a request that was shown to the user can be answered, and its answer is kept. -/
import AverQel.DeepSpace.ToolRound

namespace AverQel.DeepSpace

open Foundation Transition
open Foundation.Interleaving
open Conversation (alreadyResolved questionClaim)

namespace WorkerPoint

/-- The point belongs to a round that asks for such a request. -/
def Serves : Ask → WorkerPoint → Prop
  | ask, request id | ask, requestStep id | ask, permissionFrame id | ask, approvalFrame id
  | ask, executing id | ask, executingStep id => ask = .approval id
  | ask, result _ _ | ask, resultCheckpoint _ _ _ | ask, resultFrames _ _ _ | ask, prose _ =>
    ask = .question ask.id
  | ask, cancelCheck (.approval id) | ask, park (.approval id) => ask = .approval id
  | ask, cancelCheck (.question _) | ask, park (.question _) => ask = .question ask.id
  | _, ended => True

@[simp] def isBefore : WorkerPoint → Bool
  | request _ | result .. | resultCheckpoint .. | resultFrames .. | prose _
  | cancelCheck (.question _) | park (.question _) => true
  | requestStep _ | permissionFrame _ | approvalFrame _ | executing _ | executingStep _
  | cancelCheck (.approval _) | park (.approval _) | ended => false

@[simp] def isOpen : WorkerPoint → Bool
  | requestStep _ | permissionFrame _ | approvalFrame _ | executing _ => true
  | _ => false

@[simp] def isShown : WorkerPoint → Bool
  | approvalFrame _ | executing _ => true
  | _ => false

end WorkerPoint

/-- What the rows say about a request, whoever has written them last. -/
structure RequestRows (round : ToolRound) (c : Conversation) : Prop where
  stored : ∃ row, c.runs.find? round.runId = some row
  approvals : ∀ row ∈ c.runs.rows, asksFor round.ask.id row = true →
    row.id = round.runId ∧ round.ask = .approval round.ask.id
  questions : ∀ row ∈ c.runs.rows, asksQuestion round.ask.id row = true →
    row.id = round.runId ∧ round.ask = .question round.ask.id
  waiting : ∀ row ∈ c.runs.rows, (Ask.approval round.ask.id).pendingIn row = true →
    row.status = .awaitingApproval ∨ row.status = .cancelling

/-- What holds at every moment of a round, its user calls included. -/
structure RoundInvariant (round : ToolRound) (s : CallSystem Asking UserCall) : Prop where
  rows : RequestRows round s.shared.conversation
  bound : ∀ row ∈ s.shared.conversation.runs.rows, row.updatedAt ≤ s.shared.clock
  serves : s.shared.worker.Serves round.ask
  checked : ∀ (i : Nat) decision loaded pending,
    s.calls[i]? = some (.resolving (.checked decision loaded pending)) →
    loaded.id = round.runId ∧ loaded.status = .awaitingApproval ∧
      asksQuestion round.ask.id loaded = false ∧ round.ask = .approval round.ask.id
  before : s.shared.worker.isBefore = true → s.shared.accepted = false ∧
    (∀ row ∈ s.shared.conversation.runs.rows,
      asksFor round.ask.id row = false ∧ asksQuestion round.ask.id row = false) ∧
    ∀ (i : Nat) decision loaded pending,
      s.calls[i]? ≠ some (.resolving (.checked decision loaded pending))
  opened : s.shared.worker.isOpen = true → s.shared.accepted = false →
    isCancelRequested round.runId s.shared.conversation = false →
    FoundPending round.ask round.runId s.shared.conversation
  shown : s.shared.worker.isShown = true → s.shared.announced = true

variable {round : ToolRound} {c : Conversation} {now : Time} {row : AgentRun}
  {f : AgentRun → AgentRun} {hf : ∀ run, (f run).id = run.id}

theorem asksFor_of_pendingIn {id : String}
    (pending : (Ask.approval id).pendingIn row = true) : asksFor id row = true := by
  obtain ⟨asked, here, named⟩ := (Option.any_eq_true _ _).mp pending
  unfold asksFor
  rw [here]
  exact (Bool.and_eq_true_iff.mp named).1

theorem asksQuestion_of_pendingIn {id : String}
    (pending : (Ask.question id).pendingIn row = true) : asksQuestion id row = true := by
  obtain ⟨asked, here, named⟩ := (Option.any_eq_true _ _).mp pending
  unfold asksQuestion
  rw [here]
  exact (Bool.and_eq_true_iff.mp named).1

theorem Ask.asks_of_pendingIn {ask : Ask} (pending : ask.pendingIn row = true) :
    ask.asks row = true := by
  cases ask with
  | approval => exact asksFor_of_pendingIn pending
  | question => exact asksQuestion_of_pendingIn pending

theorem Ask.waitsIn_of_not_asks {ask : Ask} (free : ask.asks row = false) :
    ask.waitsIn row = false := by
  cases pending : ask.pendingIn row with
  | true =>
    rw [asks_of_pendingIn pending] at free
    cases free
  | false => simp [waitsIn, pending, free]

theorem runFor_spec {ask : Ask} (found : c.runFor ask = some row) :
    row ∈ c.runs.rows ∧ ask.asks row = true := by
  cases ask with
  | approval =>
    obtain ⟨member, _, asks⟩ := Conversation.getRunForApproval_spec found
    exact ⟨member, asks⟩
  | question =>
    have listed := List.mem_of_mem_take (List.mem_of_find?_eq_some found)
    have member := (List.mem_insertionSort _).mp (List.mem_filter.mp listed).1
    exact ⟨member, List.find?_some found⟩

variable {runId : Uuid}

theorem not_foundPending_of_free {ask : Ask} (free : ∀ row ∈ c.runs.rows, ask.asks row = false) :
    ¬ FoundPending ask runId c := by
  rintro ⟨run, found, _, _⟩
  obtain ⟨member, asks⟩ := runFor_spec found
  rw [free run member] at asks
  cases asks

theorem not_foundPending_of_unasked {ask : Ask}
    (free : ∀ row ∈ c.runs.rows, asksFor ask.id row = false ∧ asksQuestion ask.id row = false) :
    ¬ FoundPending ask runId c := by
  refine not_foundPending_of_free ?_
  intro row member
  cases ask with
  | approval => exact (free row member).1
  | question => exact (free row member).2

theorem foundPending_modifyRun {id : String} (stored : c.runs.find? runId = some row)
    (bound : ∀ row ∈ c.runs.rows, row.updatedAt < now) (stamped : (f row).updatedAt = now)
    (status : (f row).status.mayAskApproval = true)
    (pending : (Ask.approval id).pendingIn (f row) = true) :
    FoundPending (.approval id) runId (c.modifyRun runId f hf) := by
  have asks := asksFor_of_pendingIn pending
  have first : (c.modifyRun runId f hf).getRunForApproval id = some (f row) :=
    Conversation.getRunForApproval_modifyRun stored bound stamped status asks
  have key := (Table.find?_eq_some_iff.mp stored).2
  exact ⟨f row, first, (hf row).trans key, pending⟩

theorem row_of_foundPending {id : String} (found : FoundPending (.approval id) runId c)
    (stored : c.runs.find? runId = some row) :
    row.status.mayAskApproval = true ∧ (Ask.approval id).pendingIn row = true := by
  obtain ⟨run, here, key, pending⟩ := found
  obtain ⟨member, status, _⟩ := Conversation.getRunForApproval_spec here
  have same : run = row :=
    Option.some.inj ((Table.find?_eq_some_iff.mpr ⟨member, key⟩).symm.trans stored)
  exact same ▸ ⟨status, pending⟩

theorem isCancelRequested_modifyRun (kept : ∀ run, (f run).cancelRequested = run.cancelRequested) :
    isCancelRequested runId (c.modifyRun runId f hf) = isCancelRequested runId c := by
  unfold isCancelRequested Conversation.modifyRun
  rw [Table.find?_modify, if_pos rfl]
  cases c.runs.find? runId with
  | none => rfl
  | some run => exact kept run

theorem RequestRows.mapRows {runs : Table AgentRun AgentRun.id} (rows : RequestRows round c)
    {g : AgentRun → AgentRun} (rewritten : runs.rows = c.runs.rows.map g)
    (keys : ∀ row, (g row).id = row.id)
    (approvals : ∀ row ∈ c.runs.rows, asksFor round.ask.id (g row) = true →
      row.id = round.runId ∧ round.ask = .approval round.ask.id)
    (questions : ∀ row ∈ c.runs.rows, asksQuestion round.ask.id (g row) = true →
      row.id = round.runId ∧ round.ask = .question round.ask.id)
    (waiting : ∀ row ∈ c.runs.rows, (Ask.approval round.ask.id).pendingIn (g row) = true →
      (g row).status = .awaitingApproval ∨ (g row).status = .cancelling) :
    RequestRows round { c with runs := runs } := by
  refine ⟨?_, ?_, ?_, ?_⟩
  · obtain ⟨row, stored⟩ := rows.stored
    obtain ⟨member, key⟩ := Table.find?_eq_some_iff.mp stored
    have moved : g row ∈ runs.rows := rewritten ▸ List.mem_map_of_mem member
    exact ⟨g row, Table.find?_eq_some_iff.mpr ⟨moved, (keys row).trans key⟩⟩
  · intro row' member asks
    obtain ⟨row, old, rfl⟩ := List.mem_map.mp (rewritten ▸ member)
    rw [keys row]
    exact approvals row old asks
  · intro row' member asks
    obtain ⟨row, old, rfl⟩ := List.mem_map.mp (rewritten ▸ member)
    rw [keys row]
    exact questions row old asks
  · intro row' member pending
    obtain ⟨row, old, rfl⟩ := List.mem_map.mp (rewritten ▸ member)
    exact waiting row old pending

theorem RequestRows.modifyRun (rows : RequestRows round c)
    (approvals : ∀ row ∈ c.runs.rows, asksFor round.ask.id (f row) = true →
      round.ask = .approval round.ask.id)
    (questions : ∀ row ∈ c.runs.rows, asksQuestion round.ask.id (f row) = true →
      round.ask = .question round.ask.id)
    (waiting : ∀ row ∈ c.runs.rows, (Ask.approval round.ask.id).pendingIn (f row) = true →
      (f row).status = .awaitingApproval ∨ (f row).status = .cancelling) :
    RequestRows round (c.modifyRun round.runId f hf) := by
  refine rows.mapRows (g := fun row => if row.id = round.runId then f row else row) rfl ?_ ?_ ?_ ?_
  · intro row
    split
    · exact hf row
    · rfl
  · intro row member asks
    by_cases mine : row.id = round.runId
    · rw [if_pos mine] at asks
      exact ⟨mine, approvals row member asks⟩
    · rw [if_neg mine] at asks
      exact rows.approvals row member asks
  · intro row member asks
    by_cases mine : row.id = round.runId
    · rw [if_pos mine] at asks
      exact ⟨mine, questions row member asks⟩
    · rw [if_neg mine] at asks
      exact rows.questions row member asks
  · intro row member pending
    by_cases mine : row.id = round.runId
    · rw [if_pos mine] at pending ⊢
      exact waiting row member pending
    · rw [if_neg mine] at pending ⊢
      exact rows.waiting row member pending

/-- The row after `update_checkpoint`, as the worker calls it. -/
def writtenRun (now : Time) (status : RunStatus) (checkpoint : Checkpoint) (run : AgentRun) :
    AgentRun :=
  { run with
    updatedAt := now
    status := status
    checkpoint := checkpoint
    heartbeatAt := if status.isWorker then some now else run.heartbeatAt }

/-- The row after `record_step`. -/
def recordedRun (now : Time) (run : AgentRun) : AgentRun :=
  { run with
    lastSequence := run.lastSequence + 1
    stepCount := run.stepCount + 1
    updatedAt := now
    heartbeatAt :=
      if run.status.isWorker && !run.cancelRequested then some now else run.heartbeatAt }

theorem updateCheckpoint_eq (runId : Uuid) (status : RunStatus) (checkpoint : Checkpoint) :
    c.updateCheckpoint now runId (some status) (some checkpoint) none true =
      c.modifyRun runId (writtenRun now status checkpoint) (fun _ => rfl) :=
  rfl

theorem recordStep_eq (runId : Uuid) :
    c.recordStep now runId true = c.modifyRun runId (recordedRun now) (fun _ => rfl) :=
  rfl

theorem isCancelRequested_recordStep (runId : Uuid) :
    isCancelRequested runId (c.recordStep now runId true) = isCancelRequested runId c :=
  isCancelRequested_modifyRun (f := recordedRun now) fun _ => rfl

theorem isCancelRequested_updateCheckpoint (runId : Uuid) (status : RunStatus)
    (checkpoint : Checkpoint) :
    isCancelRequested runId
      (c.updateCheckpoint now runId (some status) (some checkpoint) none true) =
      isCancelRequested runId c :=
  isCancelRequested_modifyRun (f := writtenRun now status checkpoint) fun _ => rfl

theorem bound_modifyRun {clock : Time} (bound : ∀ row ∈ c.runs.rows, row.updatedAt ≤ clock)
    (later : clock < now) (stamped : ∀ row, (f row).updatedAt = now) :
    ∀ row ∈ (c.modifyRun runId f hf).runs.rows, row.updatedAt ≤ now := by
  intro row member
  obtain ⟨old, oldMember, rfl⟩ := List.mem_map.mp member
  split
  · exact Int.le_of_eq (stamped old)
  · exact Int.le_of_lt (Int.lt_of_le_of_lt (bound old oldMember) later)

theorem RequestRows.recordStep (rows : RequestRows round c) :
    RequestRows round (c.recordStep now round.runId true) := by
  rw [recordStep_eq]
  refine rows.modifyRun ?_ ?_ ?_
  · intro row member asks
    exact (rows.approvals row member asks).2
  · intro row member asks
    exact (rows.questions row member asks).2
  · intro row member pending
    exact rows.waiting row member pending

theorem foundPending_recordStep {id : String} {clock : Time}
    (bound : ∀ row ∈ c.runs.rows, row.updatedAt ≤ clock) (later : clock < now)
    (stored : c.runs.find? runId = some row) (found : FoundPending (.approval id) runId c) :
    FoundPending (.approval id) runId (c.recordStep now runId true) := by
  obtain ⟨status, pending⟩ := row_of_foundPending found stored
  have older : ∀ row ∈ c.runs.rows, row.updatedAt < now :=
    fun row member => Int.lt_of_le_of_lt (bound row member) later
  rw [recordStep_eq]
  exact foundPending_modifyRun stored older rfl status pending

variable {s : CallSystem Asking UserCall}

theorem RoundInvariant.worker (inv : RoundInvariant round s) {shared : Asking}
    (rows : RequestRows round shared.conversation)
    (bound : ∀ row ∈ shared.conversation.runs.rows, row.updatedAt ≤ shared.clock)
    (serves : shared.worker.Serves round.ask) (accepted : shared.accepted = s.shared.accepted)
    (before : shared.worker.isBefore = true → s.shared.worker.isBefore = true ∧
      ∀ row ∈ shared.conversation.runs.rows,
        asksFor round.ask.id row = false ∧ asksQuestion round.ask.id row = false)
    (opened : shared.worker.isOpen = true → shared.accepted = false →
      isCancelRequested round.runId shared.conversation = false →
      FoundPending round.ask round.runId shared.conversation)
    (shown : shared.worker.isShown = true → shared.announced = true) :
    RoundInvariant round ⟨shared, s.calls⟩ := by
  refine ⟨rows, bound, serves, inv.checked, ?_, opened, shown⟩
  intro still
  obtain ⟨was, free⟩ := before still
  obtain ⟨undecided, _, unchecked⟩ := inv.before was
  exact ⟨accepted.trans undecided, free, unchecked⟩

theorem RoundInvariant.goOn (inv : RoundInvariant round s) {shared : Asking}
    (conversation : shared.conversation = s.shared.conversation)
    (later : s.shared.clock ≤ shared.clock) (serves : shared.worker.Serves round.ask)
    (accepted : shared.accepted = s.shared.accepted)
    (before : shared.worker.isBefore = true → s.shared.worker.isBefore = true)
    (opened : shared.worker.isOpen = true → s.shared.worker.isOpen = true)
    (shown : shared.worker.isShown = true → shared.announced = true) :
    RoundInvariant round ⟨shared, s.calls⟩ := by
  refine inv.worker ?_ ?_ serves accepted ?_ ?_ shown
  · rw [conversation]
    exact inv.rows
  · rw [conversation]
    intro row member
    exact Int.le_trans (inv.bound row member) later
  · intro still
    rw [conversation]
    exact ⟨before still, (inv.before (before still)).2.1⟩
  · rw [conversation, accepted]
    intro still
    exact inv.opened (opened still)

theorem RoundInvariant.record (inv : RoundInvariant round s) {now : Time}
    (later : s.shared.clock < now) {next : WorkerPoint} (serves : next.Serves round.ask)
    (before : next.isBefore = true → s.shared.worker.isBefore = true)
    (opened : next.isOpen = true →
      s.shared.worker.isOpen = true ∧ round.ask = .approval round.ask.id)
    (shown : next.isShown = false) :
    RoundInvariant round ⟨s.shared.record round now next, s.calls⟩ := by
  obtain ⟨row, stored⟩ := inv.rows.stored
  refine inv.worker inv.rows.recordStep ?_ serves rfl ?_ ?_ ?_
  · exact bound_modifyRun inv.bound later fun _ => rfl
  · intro still
    refine ⟨before still, ?_⟩
    intro row' member
    obtain ⟨old, oldMember, rfl⟩ := List.mem_map.mp member
    have free := (inv.before (before still)).2.1 old oldMember
    split
    · exact free
    · exact free
  · intro still undecided uncancelled
    obtain ⟨was, approval⟩ := opened still
    have same : isCancelRequested round.runId s.shared.conversation = false := by
      rw [← uncancelled]
      exact (isCancelRequested_recordStep round.runId).symm
    have found := inv.opened was undecided same
    rw [approval] at found ⊢
    exact foundPending_recordStep inv.bound later stored found
  · intro still
    exact absurd still (Bool.eq_false_iff.mp shown)

theorem RoundInvariant.write (inv : RoundInvariant round s) {now : Time}
    (later : s.shared.clock < now) {status : RunStatus} {checkpoint : Checkpoint}
    {next : WorkerPoint} (serves : next.Serves round.ask)
    (approvals : ∀ asked, checkpoint.pendingApproval = some asked →
      asked.approvalId = round.ask.id → round.ask = .approval round.ask.id ∧
        status = .awaitingApproval)
    (questions : ∀ asked, checkpoint.pendingUserQuestion = some asked →
      asked.questionId = round.ask.id → round.ask = .question round.ask.id)
    (before : next.isBefore = true → s.shared.worker.isBefore = true ∧
      checkpoint.pendingApproval = none ∧ checkpoint.pendingUserQuestion = none)
    (opened : next.isOpen = true → status = .awaitingApproval ∧ ∃ id, round.ask = .approval id ∧
      checkpoint.pendingApproval = some ⟨id, some "pending", none⟩)
    (shown : next.isShown = false) :
    RoundInvariant round ⟨s.shared.write round now status checkpoint next, s.calls⟩ := by
  have asked {row : AgentRun}
      (asks : asksFor round.ask.id (writtenRun now status checkpoint row) = true) :
      round.ask = .approval round.ask.id ∧ status = .awaitingApproval := by
    unfold asksFor writtenRun at asks
    split at asks
    · rename_i pending here
      exact approvals pending here (by simpa using asks)
    · cases asks
  refine inv.worker ?_ ?_ serves rfl ?_ ?_ ?_
  · refine inv.rows.modifyRun ?_ ?_ ?_
    · intro row _ asks
      exact (asked asks).1
    · intro row _ asks
      obtain ⟨pending, here, named⟩ := (Option.any_eq_true _ _).mp asks
      exact questions pending here (by simpa using named)
    · intro row _ pending
      exact .inl (asked (asksFor_of_pendingIn pending)).2
  · exact bound_modifyRun inv.bound later fun _ => rfl
  · intro still
    obtain ⟨was, noApproval, noQuestion⟩ := before still
    refine ⟨was, ?_⟩
    intro row' member
    obtain ⟨old, oldMember, rfl⟩ := List.mem_map.mp member
    split
    · simp [asksFor, asksQuestion, noApproval, noQuestion]
    · exact (inv.before was).2.1 old oldMember
  · intro still _ _
    obtain ⟨waits, id, approval, pending⟩ := opened still
    obtain ⟨row, stored⟩ := inv.rows.stored
    have older : ∀ row ∈ s.shared.conversation.runs.rows, row.updatedAt < now :=
      fun row member => Int.lt_of_le_of_lt (inv.bound row member) later
    rw [approval]
    change FoundPending (.approval id) round.runId (s.shared.conversation.modifyRun round.runId
      (writtenRun now status checkpoint) (fun _ => rfl))
    refine foundPending_modifyRun stored older rfl ?_ ?_
    · simp [writtenRun, waits, RunStatus.mayAskApproval]
    · simp only [Ask.pendingIn, writtenRun, pending, Option.any_some, decide_true, Bool.true_and]
      rfl
  · intro still
    exact absurd still (Bool.eq_false_iff.mp shown)

/-- Every step of the worker keeps the invariant. -/
theorem inv_worker (inv : RoundInvariant round s) (elapsed : Nat) :
    RoundInvariant round (roundTurn round s (.worker elapsed)) := by
  have later := clock_lt s.shared.clock elapsed
  have serves := inv.serves
  have same := Int.le_of_lt later
  change RoundInvariant round ⟨workerNext round elapsed s.shared, s.calls⟩
  cases point : s.shared.worker with
  | request id =>
    rw [point] at serves
    simp only [workerNext, point]
    refine inv.write later serves ?_ ?_ (by simp) ?_ rfl
    · intro asked _ _
      rw [serves]
      exact ⟨rfl, rfl⟩
    · intro asked missing
      cases missing
    · intro _
      exact ⟨rfl, id, serves, rfl⟩
  | requestStep =>
    rw [point] at serves
    simp only [workerNext, point]
    refine inv.record later serves (by simp) ?_ rfl
    intro _
    rw [point, serves]
    exact ⟨rfl, rfl⟩
  | permissionFrame id =>
    rw [point] at serves
    have mine : round.ask = .approval id := serves
    simp only [workerNext, point]
    refine inv.goOn rfl same serves rfl (by simp [Asking.announce]) (by simp [point]) ?_
    intro _
    simp [Asking.announce, mine]
  | approvalFrame =>
    rw [point] at serves
    simp only [workerNext, point]
    refine inv.goOn rfl same serves rfl (by simp [Asking.goOn]) (by simp [point]) ?_
    intro _
    exact inv.shown (by rw [point]; rfl)
  | executing =>
    rw [point] at serves
    simp only [workerNext, point]
    refine inv.write later serves ?_ ?_ (by simp) (by simp) rfl
    · intro asked missing
      cases missing
    · intro asked missing
      cases missing
  | executingStep =>
    rw [point] at serves
    simp only [workerNext, point]
    exact inv.record later serves (by simp) (by simp) rfl
  | result rest last =>
    rw [point] at serves
    cases rest with
    | nil =>
      cases last with
      | none =>
        simp only [workerNext, point]
        exact inv.goOn rfl same trivial rfl (by simp [point]) (by simp [Asking.goOn])
          (by simp [Asking.goOn])
      | some =>
        simp only [workerNext, point]
        exact inv.goOn rfl same serves rfl (by simp [point]) (by simp [Asking.goOn])
          (by simp [Asking.goOn])
    | cons =>
      simp only [workerNext, point]
      exact inv.record later serves (by simp [point]) (by simp) rfl
  | resultCheckpoint =>
    rw [point] at serves
    simp only [workerNext, point]
    refine inv.write later serves ?_ ?_ ?_ (by simp) rfl
    · intro asked missing
      cases missing
    · intro asked missing
      cases missing
    · intro _
      rw [point]
      exact ⟨rfl, rfl, rfl⟩
  | resultFrames question =>
    rw [point] at serves
    cases question with
    | none =>
      simp only [workerNext, point]
      exact inv.goOn rfl same serves rfl (by simp [point]) (by simp [Asking.goOn])
        (by simp [Asking.goOn])
    | some =>
      simp only [workerNext, point]
      exact inv.goOn rfl same serves rfl (by simp [point]) (by simp [Asking.announce])
        (by simp [Asking.announce])
  | prose =>
    rw [point] at serves
    simp only [workerNext, point]
    exact inv.goOn rfl same serves rfl (by simp [point]) (by simp [Asking.announce])
      (by simp [Asking.announce])
  | cancelCheck ask =>
    rw [point] at serves
    simp only [workerNext, point]
    cases isCancelRequested round.runId s.shared.conversation with
    | true =>
      exact inv.goOn rfl same trivial rfl (by simp [Asking.goOn]) (by simp [Asking.goOn])
        (by simp [Asking.goOn])
    | false =>
      cases ask with
      | approval =>
        exact inv.goOn rfl same serves rfl (by simp [Asking.goOn]) (by simp [Asking.goOn])
          (by simp [Asking.goOn])
      | question =>
        exact inv.goOn rfl same serves rfl (by simp [point]) (by simp [Asking.goOn])
          (by simp [Asking.goOn])
  | park ask =>
    rw [point] at serves
    simp only [workerNext, point]
    refine inv.write later trivial ?_ ?_ (by simp) (by simp) rfl
    · intro asked here named
      cases ask with
      | approval id =>
        have mine : round.ask = .approval id := serves
        rw [mine]
        exact ⟨rfl, rfl⟩
      | question => cases here
    · intro asked here named
      cases ask with
      | approval => cases here
      | question => exact serves
  | ended =>
    simp only [workerNext, point]
    exact inv.goOn rfl same trivial rfl (by simp [Asking.goOn]) (by simp [Asking.goOn])
      (by simp [Asking.goOn])

theorem Answerable.before (inv : RoundInvariant round s)
    (before : s.shared.worker.isBefore = true) (holds : Answerable round s) {shared : Asking}
    (announced : shared.announced = s.shared.announced)
    (accepted : shared.accepted = s.shared.accepted)
    (cancelled : isCancelRequested round.runId shared.conversation =
      isCancelRequested round.runId s.shared.conversation) :
    Answerable round ⟨shared, s.calls⟩ := by
  obtain ⟨undecided, free, _⟩ := inv.before before
  refine ⟨?_, ?_⟩
  · intro shown _ uncancelled
    rw [announced] at shown
    rw [cancelled] at uncancelled
    exact absurd (holds.found shown undecided uncancelled) (not_foundPending_of_unasked free)
  · intro decided
    rw [accepted, undecided] at decided
    cases decided

theorem answerable_announce_iff (inv : RoundInvariant round s)
    (before : s.shared.worker.isBefore = true) (holds : Answerable round s) (now : Time)
    (ask : Ask) (next : WorkerPoint) :
    Answerable round ⟨s.shared.announce round now ask next, s.calls⟩ ↔
      (ask = round.ask → isCancelRequested round.runId s.shared.conversation = true) := by
  obtain ⟨undecided, free, _⟩ := inv.before before
  constructor
  · intro after mine
    cases cancelled : isCancelRequested round.runId s.shared.conversation with
    | true => rfl
    | false =>
      have shown : (s.shared.announce round now ask next).announced = true := by
        simp [Asking.announce, mine]
      exact absurd (after.found shown undecided cancelled) (not_foundPending_of_unasked free)
  · intro cancelled
    by_cases mine : ask = round.ask
    · refine ⟨?_, ?_⟩
      · intro _ _ uncancelled
        exact absurd (cancelled mine) (Bool.eq_false_iff.mp uncancelled)
      · intro decided
        exact absurd decided (Bool.eq_false_iff.mp undecided)
    · refine holds.before inv before ?_ rfl rfl
      simp [Asking.announce, mine]

theorem answerable_goOn {shared : Asking} (holds : Answerable round s)
    (conversation : shared.conversation = s.shared.conversation)
    (announced : shared.announced = s.shared.announced)
    (accepted : shared.accepted = s.shared.accepted) : Answerable round ⟨shared, s.calls⟩ := by
  refine ⟨?_, ?_⟩
  · rw [conversation, announced, accepted]
    exact holds.found
  · rw [conversation, accepted]
    exact holds.kept

theorem find?_write {row : AgentRun}
    (stored : s.shared.conversation.runs.find? round.runId = some row) (now : Time)
    (status : RunStatus) (checkpoint : Checkpoint) (next : WorkerPoint) :
    (s.shared.write round now status checkpoint next).conversation.runs.find? round.runId =
      some (writtenRun now status checkpoint row) :=
  Conversation.find?_modifyRun stored

theorem Answerable.record {id : String} (inv : RoundInvariant round s)
    (mine : round.ask = .approval id) (holds : Answerable round s) {now : Time}
    (later : s.shared.clock < now) (next : WorkerPoint) :
    Answerable round ⟨s.shared.record round now next, s.calls⟩ := by
  obtain ⟨row, stored⟩ := inv.rows.stored
  refine ⟨?_, ?_⟩
  · intro shown undecided uncancelled
    have cancelled : isCancelRequested round.runId s.shared.conversation = false :=
      (isCancelRequested_recordStep round.runId).symm.trans uncancelled
    have found := holds.found shown undecided cancelled
    rw [mine] at found ⊢
    exact foundPending_recordStep inv.bound later stored found
  · intro decided run after
    have recorded : (s.shared.record round now next).conversation.runs.find? round.runId =
        some (recordedRun now row) := Conversation.find?_modifyRun stored
    rw [recorded] at after
    cases after
    have kept := holds.kept decided row stored
    rw [mine] at kept ⊢
    exact kept

theorem answerable_executing_iff {id : String} (inv : RoundInvariant round s)
    (mine : round.ask = .approval id) (shown : s.shared.announced = true) (now : Time)
    (next : WorkerPoint) :
    Answerable round ⟨s.shared.write round now .running
        { Checkpoint.empty with phase := some "executing" } next, s.calls⟩ ↔
      s.shared.accepted = true ∨
        isCancelRequested round.runId s.shared.conversation = true := by
  obtain ⟨row, stored⟩ := inv.rows.stored
  have written := find?_write stored now .running
    { Checkpoint.empty with phase := some "executing" } next
  have cancelled := @isCancelRequested_updateCheckpoint s.shared.conversation now round.runId
  constructor
  · intro after
    by_contra neither
    obtain ⟨undecided, uncancelled⟩ := not_or.mp neither
    have found := after.found shown (Bool.eq_false_iff.mpr undecided)
      ((cancelled _ _).trans (Bool.eq_false_iff.mpr uncancelled))
    rw [mine] at found
    have pending := (row_of_foundPending found written).2
    cases pending
  · intro either
    refine ⟨?_, ?_⟩
    · intro _ undecided uncancelled
      rcases either with decided | requested
      · exact absurd decided (Bool.eq_false_iff.mp undecided)
      · exact absurd requested (Bool.eq_false_iff.mp ((cancelled _ _).symm.trans uncancelled))
    · intro _ run after
      rw [written] at after
      cases after
      rw [mine]
      exact Ask.waitsIn_of_not_asks rfl

theorem answerable_park_iff {id : String} (inv : RoundInvariant round s)
    (mine : round.ask = .approval id) {now : Time} (later : s.shared.clock < now)
    (requestId : Option String) (next : WorkerPoint) :
    Answerable round ⟨s.shared.write round now .awaitingApproval
        ((Ask.approval id).checkpoint requestId) next, s.calls⟩ ↔ s.shared.accepted = false := by
  obtain ⟨row, stored⟩ := inv.rows.stored
  have written := find?_write stored now .awaitingApproval
    ((Ask.approval id).checkpoint requestId) next
  have pending : (Ask.approval id).pendingIn
      (writtenRun now .awaitingApproval ((Ask.approval id).checkpoint requestId) row) = true := by
    simp only [Ask.pendingIn, writtenRun, Ask.checkpoint, Option.any_some, decide_true,
      Bool.true_and]
    rfl
  constructor
  · intro after
    cases decided : s.shared.accepted with
    | false => rfl
    | true =>
      have kept := after.kept decided _ written
      rw [mine] at kept
      simp [Ask.waitsIn, pending] at kept
  · intro undecided
    refine ⟨?_, ?_⟩
    · intro _ _ _
      have older : ∀ row ∈ s.shared.conversation.runs.rows, row.updatedAt < now :=
        fun row member => Int.lt_of_le_of_lt (inv.bound row member) later
      rw [mine]
      change FoundPending (.approval id) round.runId (s.shared.conversation.modifyRun round.runId
        (writtenRun now .awaitingApproval ((Ask.approval id).checkpoint requestId)) (fun _ => rfl))
      exact foundPending_modifyRun stored older rfl rfl pending
    · intro decided
      exact absurd decided (Bool.eq_false_iff.mp undecided)

theorem answerable_worker_iff (inv : RoundInvariant round s) (holds : Answerable round s)
    (elapsed : Nat) :
    Answerable round (roundTurn round s (.worker elapsed)) ↔
      WritesInTime round s (.worker elapsed) := by
  have later := clock_lt s.shared.clock elapsed
  have serves := inv.serves
  have next := inv_worker inv elapsed
  change RoundInvariant round ⟨workerNext round elapsed s.shared, s.calls⟩ at next
  change Answerable round ⟨workerNext round elapsed s.shared, s.calls⟩ ↔ _
  cases point : s.shared.worker with
  | request =>
    simp only [WritesInTime, workerNext, point, iff_true] at next ⊢
    have undecided := (inv.before (by rw [point]; rfl)).1
    refine ⟨fun _ => next.opened rfl, ?_⟩
    intro decided
    exact absurd decided (Bool.eq_false_iff.mp undecided)
  | requestStep | executingStep =>
    rw [point] at serves
    simp only [WritesInTime, workerNext, point, iff_true]
    exact holds.record inv serves later _
  | permissionFrame =>
    simp only [WritesInTime, workerNext, point, iff_true] at next ⊢
    exact ⟨fun _ => next.opened rfl, holds.kept⟩
  | approvalFrame | cancelCheck | ended =>
    simp only [WritesInTime, workerNext, point, iff_true]
    exact answerable_goOn holds rfl rfl rfl
  | executing =>
    rw [point] at serves
    simp only [WritesInTime, workerNext, point]
    exact answerable_executing_iff inv serves (inv.shown (by rw [point]; rfl)) _ _
  | result rest last =>
    cases rest with
    | nil =>
      cases last with
      | none | some =>
        simp only [WritesInTime, workerNext, point, iff_true]
        exact answerable_goOn holds rfl rfl rfl
    | cons =>
      simp only [WritesInTime, workerNext, point, iff_true]
      exact holds.before inv (by rw [point]; rfl) rfl rfl (isCancelRequested_recordStep _)
  | resultCheckpoint =>
    simp only [WritesInTime, workerNext, point, iff_true]
    exact holds.before inv (by rw [point]; rfl) rfl rfl (isCancelRequested_updateCheckpoint _ _ _)
  | resultFrames question =>
    cases question with
    | none =>
      simp only [WritesInTime, workerNext, point, iff_true]
      exact answerable_goOn holds rfl rfl rfl
    | some =>
      simp only [WritesInTime, workerNext, point]
      exact answerable_announce_iff inv (by rw [point]; rfl) holds _ _ _
  | prose =>
    simp only [WritesInTime, workerNext, point]
    exact answerable_announce_iff inv (by rw [point]; rfl) holds _ _ _
  | park ask =>
    rw [point] at serves
    cases ask with
    | approval =>
      simp only [WritesInTime, workerNext, point]
      exact answerable_park_iff inv serves later _ _
    | question =>
      simp only [WritesInTime, workerNext, point, iff_true]
      exact holds.before inv (by rw [point]; rfl) rfl rfl
        (isCancelRequested_updateCheckpoint _ _ _)

variable {i : Nat} {point : UserCall}

theorem RoundInvariant.reads (inv : RoundInvariant round s) (here : s.calls[i]? = some point)
    {clock : Time} (later : s.shared.clock ≤ clock) {new : UserCall}
    (checked : ∀ decision loaded pending, new = .resolving (.checked decision loaded pending) →
      (loaded.id = round.runId ∧ loaded.status = .awaitingApproval ∧
        asksQuestion round.ask.id loaded = false ∧ round.ask = .approval round.ask.id) ∧
      s.shared.worker.isBefore = false) :
    RoundInvariant round ⟨{ s.shared with clock := clock }, s.calls.set i new⟩ := by
  refine ⟨inv.rows, ?_, inv.serves, ?_, ?_, inv.opened, inv.shown⟩
  · intro row member
    exact Int.le_trans (inv.bound row member) later
  · intro j decision loaded pending at_j
    rcases (getElem?_set_iff here).mp at_j with ⟨_, isNew⟩ | ⟨_, old⟩
    · exact (checked decision loaded pending isNew.symm).1
    · exact inv.checked j decision loaded pending old
  · intro before
    obtain ⟨undecided, free, unchecked⟩ := inv.before before
    refine ⟨undecided, free, ?_⟩
    intro j decision loaded pending at_j
    rcases (getElem?_set_iff here).mp at_j with ⟨_, isNew⟩ | ⟨_, old⟩
    · have notBefore := (checked decision loaded pending isNew.symm).2
      exact absurd before (Bool.eq_false_iff.mp notBefore)
    · exact unchecked j decision loaded pending old

theorem Answerable.reads (holds : Answerable round s) (clock : Time) (calls : List UserCall) :
    Answerable round ⟨{ s.shared with clock := clock }, calls⟩ :=
  ⟨holds.found, holds.kept⟩

theorem checked_of_getRunForApproval (inv : RoundInvariant round s) {run : AgentRun}
    {pending : PendingApproval}
    (found : s.shared.conversation.getRunForApproval round.ask.id = some run)
    (asked : run.checkpoint.pendingApproval = some pending)
    (undecided : alreadyResolved pending = false) :
    (run.id = round.runId ∧ run.status = .awaitingApproval ∧
      asksQuestion round.ask.id run = false ∧ round.ask = .approval round.ask.id) ∧
    s.shared.worker.isBefore = false := by
  obtain ⟨member, status, asks⟩ := Conversation.getRunForApproval_spec found
  obtain ⟨key, mine⟩ := inv.rows.approvals run member asks
  have pendingIn : (Ask.approval round.ask.id).pendingIn run = true := by
    unfold asksFor at asks
    rw [asked] at asks
    simp only [Ask.pendingIn, asked, Option.any_some, undecided, Bool.not_false, Bool.and_true]
    exact asks
  have waits : run.status = .awaitingApproval := by
    rcases inv.rows.waiting run member pendingIn with waits | cancelling
    · exact waits
    · rw [cancelling] at status
      cases status
  have noQuestion : asksQuestion round.ask.id run = false := by
    cases question : asksQuestion round.ask.id run with
    | false => rfl
    | true =>
      have other := (inv.rows.questions run member question).2
      rw [mine] at other
      cases other
  have notBefore : s.shared.worker.isBefore = false := by
    cases before : s.shared.worker.isBefore with
    | false => rfl
    | true =>
      have free := ((inv.before before).2.1 run member).1
      rw [asks] at free
      cases free
  exact ⟨⟨key, waits, noQuestion, mine⟩, notBefore⟩

theorem user_commits (shared : Asking) (inv : RoundInvariant round s) {decision : Conversation.Decision}
    {loaded : AgentRun} {pending : PendingApproval}
    (here : s.calls[i]? = some (.resolving (.checked decision loaded pending))) {now : Time}
    (later : s.shared.clock < now)
    (conversation : shared.conversation =
      commitDecision now decision loaded pending s.shared.conversation)
    (clock : shared.clock = now) (worker : shared.worker = s.shared.worker)
    (announced : shared.announced = s.shared.announced) (accepted : shared.accepted = true) :
    RoundInvariant round ⟨shared, s.calls.set i (.resolving (.returned decision))⟩ ∧
      Answerable round ⟨shared, s.calls.set i (.resolving (.returned decision))⟩ := by
  obtain ⟨key, waits, noQuestion, mine⟩ := inv.checked i decision loaded pending here
  have undecided (row : AgentRun) (id : String) :
      (Ask.approval id).pendingIn
        { row with
          checkpoint :=
            { loaded.checkpoint with
              pendingApproval := some
                { pending with decision := some decision.toString, resolvedAt := some now }
              phase := some "approval_resolved" }
          status := if decisionStatus decision = loaded.status then row.status
            else decisionStatus decision
          updatedAt := now } = false := by
    simp only [Ask.pendingIn, Option.any_some, alreadyResolved_decision, Bool.not_true,
      Bool.and_false]
  refine ⟨⟨?_, ?_, ?_, ?_, ?_, ?_, ?_⟩, ⟨?_, ?_⟩⟩
  · rw [conversation]
    unfold commitDecision
    rw [key]
    refine inv.rows.modifyRun ?_ ?_ ?_
    · intro _ _ _
      exact mine
    · intro row _ asks
      have free : asksQuestion round.ask.id loaded = true := asks
      rw [noQuestion] at free
      cases free
    · intro row _ pendingIn
      rw [undecided row round.ask.id] at pendingIn
      cases pendingIn
  · rw [conversation, clock]
    exact bound_modifyRun inv.bound later fun _ => rfl
  · rw [worker]
    exact inv.serves
  · intro j other run asked at_j
    rcases (getElem?_set_iff here).mp at_j with ⟨_, isNew⟩ | ⟨_, old⟩
    · cases isNew
    · exact inv.checked j other run asked old
  · intro before
    rw [worker] at before
    exact absurd here ((inv.before before).2.2 i decision loaded pending)
  · intro _ open'
    rw [accepted] at open'
    cases open'
  · rw [worker, announced]
    exact inv.shown
  · intro _ open'
    rw [accepted] at open'
    cases open'
  · intro _ run stored
    obtain ⟨row, before⟩ := inv.rows.stored
    rw [conversation] at stored
    unfold commitDecision at stored
    rw [key, Conversation.find?_modifyRun before] at stored
    cases stored
    have closed : (if decisionStatus decision = loaded.status then row.status
        else decisionStatus decision) ≠ .awaitingApproval := by
      rw [waits]
      cases decision <;> simp [decisionStatus]
    rw [mine]
    simp only [Ask.waitsIn, undecided, Bool.false_or, Ask.status, closed, decide_false,
      Bool.and_false]

theorem checked_of_replied (here : s.calls[i]? = some point) {j : Nat}
    {decision : Conversation.Decision} {loaded : AgentRun} {pending : PendingApproval}
    (at_j : (s.calls.set i .replied)[j]? = some (.resolving (.checked decision loaded pending))) :
    s.calls[j]? = some (.resolving (.checked decision loaded pending)) := by
  rcases (getElem?_set_iff here).mp at_j with ⟨_, isNew⟩ | ⟨_, old⟩
  · cases isNew
  · exact old

/-- The row that an answer is accepted on. -/
def answeredRun (now : Time) (answer : String) (run : AgentRun) : AgentRun :=
  { run with
    checkpoint :=
      { run.checkpoint with
        status := some "running"
        phase := some "question_claimed"
        pendingUserQuestion := run.checkpoint.pendingUserQuestion.map (fun pending =>
          { pending with answer := some answer, answerSubmittedAt := some now }) }
    status := .running
    updatedAt := now
    heartbeatAt := some now }

theorem asks_answeredRun (now : Time) (answer id : String) (run : AgentRun) :
    asksQuestion id (answeredRun now answer run) = asksQuestion id run := by
  unfold asksQuestion answeredRun
  cases run.checkpoint.pendingUserQuestion <;> rfl

theorem waitsIn_answeredRun (now : Time) (answer id : String) (run : AgentRun) :
    (Ask.question id).waitsIn (answeredRun now answer run) = false := by
  unfold Ask.waitsIn Ask.pendingIn answeredRun
  cases run.checkpoint.pendingUserQuestion <;> simp [Ask.status]

/-- `claim_user_question` claims a run that carries the question, or writes nothing. -/
theorem claimUserQuestion_cases (c : Conversation) (now : Time) (id answer : String) :
    (c.claimsQuestion id = false ∧ c.claimUserQuestion now id answer = c) ∨
    (c.claimsQuestion id = true ∧ ∃ found ∈ c.runs.rows, asksQuestion id found = true ∧
      c.claimUserQuestion now id answer =
        c.modifyRun found.id (answeredRun now answer) (fun _ => rfl)) := by
  unfold Conversation.claimsQuestion Conversation.claimUserQuestion
  cases claim : questionClaim id (c.runsByUpdate.filter (fun run =>
      run.status = .awaitingUser || run.status = .running)) with
  | none => exact .inl ⟨rfl, rfl⟩
  | some result =>
    obtain ⟨found, claimed⟩ := result
    cases claimed with
    | false => exact .inl ⟨rfl, rfl⟩
    | true =>
      obtain ⟨listed, _, asks⟩ := Conversation.questionClaim_spec claim
      have member := (List.mem_insertionSort _).mp (List.mem_filter.mp listed).1
      exact .inr ⟨rfl, found, member, asks, rfl⟩

theorem user_answers (inv : RoundInvariant round s) (here : s.calls[i]? = some point)
    {now : Time} (later : s.shared.clock < now) (answer : String) :
    let shared : Asking :=
      { s.shared with
        conversation := s.shared.conversation.claimUserQuestion now round.ask.id answer
        clock := now
        accepted := s.shared.accepted || s.shared.conversation.claimsQuestion round.ask.id }
    RoundInvariant round ⟨shared, s.calls.set i .replied⟩ ∧
      (Answerable round s → Answerable round ⟨shared, s.calls.set i .replied⟩) := by
  intro shared
  rcases claimUserQuestion_cases s.shared.conversation now round.ask.id answer with
    ⟨refused, same⟩ | ⟨claimed, found, member, asks, written⟩
  · have read : shared = { s.shared with clock := now } := by
      simp only [shared, refused, same, Bool.or_false]
    rw [read]
    refine ⟨inv.reads here (Int.le_of_lt later) ?_, fun holds => holds.reads now _⟩
    intro _ _ _ isNew
    cases isNew
  · obtain ⟨key, mine⟩ := inv.rows.questions found member asks
    have conversation : shared.conversation =
        s.shared.conversation.modifyRun round.runId (answeredRun now answer) (fun _ => rfl) := by
      rw [← key]
      exact written
    have accepted : shared.accepted = true := by simp only [shared, claimed, Bool.or_true]
    refine ⟨⟨?_, ?_, inv.serves, ?_, ?_, ?_, inv.shown⟩, fun _ => ⟨?_, ?_⟩⟩
    · rw [conversation]
      refine inv.rows.modifyRun ?_ ?_ ?_
      · intro row old asksRow
        exact (inv.rows.approvals row old asksRow).2
      · intro _ _ _
        exact mine
      · intro row old pending
        have other := (inv.rows.approvals row old (asksFor_of_pendingIn pending)).2
        rw [mine] at other
        cases other
    · rw [conversation]
      exact bound_modifyRun inv.bound later fun _ => rfl
    · intro j decision loaded pending at_j
      exact inv.checked j decision loaded pending (checked_of_replied here at_j)
    · intro before
      have free := ((inv.before before).2.1 found member).2
      rw [asks] at free
      cases free
    · intro _ undecided
      rw [accepted] at undecided
      cases undecided
    · intro _ undecided
      rw [accepted] at undecided
      cases undecided
    · intro _ run stored
      obtain ⟨row, before⟩ := inv.rows.stored
      have after : shared.conversation.runs.find? round.runId = some (answeredRun now answer row) := by
        rw [conversation]
        exact Conversation.find?_modifyRun before
      rw [after] at stored
      cases stored
      rw [mine]
      exact waitsIn_answeredRun now answer round.ask.id row

/-- The row that `request_cancel` leaves. -/
def cancelledRun (now : Time) (run : AgentRun) : AgentRun :=
  if run.status.isActive then
    { run with cancelRequested := true, status := .cancelling, updatedAt := now }
  else run

theorem checkpoint_cancelledRun (now : Time) (run : AgentRun) :
    (cancelledRun now run).checkpoint = run.checkpoint := by
  unfold cancelledRun
  split <;> rfl

theorem id_cancelledRun (now : Time) (run : AgentRun) : (cancelledRun now run).id = run.id := by
  unfold cancelledRun
  split <;> rfl

theorem status_cancelledRun (now : Time) (run : AgentRun) :
    (cancelledRun now run).status = run.status ∨ (cancelledRun now run).status = .cancelling := by
  unfold cancelledRun
  split
  · exact .inr rfl
  · exact .inl rfl

theorem asksFor_cancelledRun (now : Time) (id : String) (run : AgentRun) :
    asksFor id (cancelledRun now run) = asksFor id run := by
  unfold asksFor
  rw [checkpoint_cancelledRun]

theorem asksQuestion_cancelledRun (now : Time) (id : String) (run : AgentRun) :
    asksQuestion id (cancelledRun now run) = asksQuestion id run := by
  unfold asksQuestion
  rw [checkpoint_cancelledRun]

theorem pendingIn_cancelledRun (now : Time) (ask : Ask) (run : AgentRun) :
    ask.pendingIn (cancelledRun now run) = ask.pendingIn run := by
  cases ask <;> simp only [Ask.pendingIn, checkpoint_cancelledRun]

theorem waitsIn_of_cancelledRun {now : Time} {ask : Ask} {run : AgentRun}
    (free : ask.waitsIn run = false) : ask.waitsIn (cancelledRun now run) = false := by
  have asks : ask.asks (cancelledRun now run) = ask.asks run := by
    cases ask with
    | approval id => exact asksFor_cancelledRun now id run
    | question id => exact asksQuestion_cancelledRun now id run
  unfold Ask.waitsIn at free ⊢
  rw [pendingIn_cancelledRun, asks]
  rcases status_cancelledRun now run with same | cancelling
  · rw [same]
    exact free
  · have notWaiting : RunStatus.cancelling ≠ ask.status := by cases ask <;> simp [Ask.status]
    obtain ⟨notPending, _⟩ := Bool.or_eq_false_iff.mp free
    simp [cancelling, notWaiting, notPending]

theorem find?_requestCancelRuns {c : Conversation} {runId : Uuid} {row : AgentRun}
    (stored : c.runs.find? runId = some row) (now : Time) :
    (c.requestCancelRuns now).runs.find? runId = some (cancelledRun now row) := by
  unfold Conversation.requestCancelRuns
  rw [Table.find?_mapRows, stored]
  rfl

theorem isActive_of_foundPending {c : Conversation} {runId : Uuid} {row : AgentRun}
    (rows : RequestRows round c) (stored : c.runs.find? runId = some row)
    (found : FoundPending round.ask runId c) : row.status.isActive = true := by
  obtain ⟨run, here, key, pending⟩ := found
  obtain ⟨member, _⟩ := runFor_spec here
  have same : run = row :=
    Option.some.inj ((Table.find?_eq_some_iff.mpr ⟨member, key⟩).symm.trans stored)
  subst same
  cases ask : round.ask with
  | approval =>
    have waits := rows.waiting run member (by rw [ask] at pending ⊢; exact pending)
    rcases waits with waits | cancelling
    · rw [waits]
      rfl
    · rw [cancelling]
      rfl
  | question =>
    rw [ask] at here
    have listed := List.mem_of_mem_take (List.mem_of_find?_eq_some here)
    have waits : run.status = .awaitingUser := by simpa using (List.mem_filter.mp listed).2
    rw [waits]
    rfl

theorem user_cancels (inv : RoundInvariant round s) (here : s.calls[i]? = some point)
    {now : Time} (later : s.shared.clock < now) :
    let shared : Asking :=
      { s.shared with conversation := s.shared.conversation.requestCancelRuns now, clock := now }
    RoundInvariant round ⟨shared, s.calls.set i .replied⟩ ∧
      (Answerable round s → Answerable round ⟨shared, s.calls.set i .replied⟩) := by
  intro shared
  obtain ⟨row, stored⟩ := inv.rows.stored
  have after : shared.conversation.runs.find? round.runId = some (cancelledRun now row) :=
    find?_requestCancelRuns stored now
  -- a run that was found pending before is cancelled now
  have cancelled (found : isCancelRequested round.runId s.shared.conversation = false →
      FoundPending round.ask round.runId s.shared.conversation) :
      isCancelRequested round.runId shared.conversation = true := by
    unfold isCancelRequested at found ⊢
    rw [stored] at found
    rw [after, Option.any_some]
    cases requested : row.cancelRequested with
    | true =>
      unfold cancelledRun
      split
      · rfl
      · exact requested
    | false =>
      have active := isActive_of_foundPending inv.rows stored (found requested)
      unfold cancelledRun
      rw [if_pos active]
  refine ⟨⟨?_, ?_, inv.serves, ?_, ?_, ?_, inv.shown⟩, fun holds => ⟨?_, ?_⟩⟩
  · refine inv.rows.mapRows (g := cancelledRun now) rfl (id_cancelledRun now) ?_ ?_ ?_
    · intro old member asks
      rw [asksFor_cancelledRun] at asks
      exact inv.rows.approvals old member asks
    · intro old member asks
      rw [asksQuestion_cancelledRun] at asks
      exact inv.rows.questions old member asks
    · intro old member pending
      rw [pendingIn_cancelledRun] at pending
      rcases status_cancelledRun now old with same | cancelling
      · rw [same]
        exact inv.rows.waiting old member pending
      · exact .inr cancelling
  · intro other member
    obtain ⟨old, oldMember, rfl⟩ := List.mem_map.mp member
    split
    · exact Int.le_refl now
    · exact Int.le_of_lt (Int.lt_of_le_of_lt (inv.bound old oldMember) later)
  · intro j decision loaded pending at_j
    exact inv.checked j decision loaded pending (checked_of_replied here at_j)
  · intro before
    obtain ⟨undecided, free, unchecked⟩ := inv.before before
    refine ⟨undecided, ?_, ?_⟩
    · intro other member
      obtain ⟨old, oldMember, rfl⟩ := List.mem_map.mp member
      change asksFor round.ask.id (cancelledRun now old) = false ∧
        asksQuestion round.ask.id (cancelledRun now old) = false
      rw [asksFor_cancelledRun, asksQuestion_cancelledRun]
      exact free old oldMember
    · intro j decision loaded pending at_j
      exact unchecked j decision loaded pending (checked_of_replied here at_j)
  · intro still undecided uncancelled
    rw [cancelled (inv.opened still undecided)] at uncancelled
    cases uncancelled
  · intro shown undecided uncancelled
    rw [cancelled (holds.found shown undecided)] at uncancelled
    cases uncancelled
  · intro decided run stored'
    rw [after] at stored'
    cases stored'
    exact waitsIn_of_cancelledRun (holds.kept decided row stored)

theorem inv_user (inv : RoundInvariant round s) (call elapsed : Nat) :
    RoundInvariant round (roundTurn round s (.user call elapsed)) ∧
      (Answerable round s → Answerable round (roundTurn round s (.user call elapsed))) := by
  have later := clock_lt s.shared.clock elapsed
  rcases advance_cases (fun _ _ => false) (userNext round) s (call, elapsed) with
    same | ⟨point, here, _, moved⟩
  · unfold roundTurn
    dsimp only
    rw [same]
    exact ⟨inv, id⟩
  · unfold roundTurn
    dsimp only
    rw [moved]
    cases point with
    | resolving step =>
      cases step with
      | requested decision =>
        obtain ⟨new, next, checked⟩ := resolveNext_requested round.ask.id elapsed
          ⟨s.shared.conversation, s.shared.clock⟩ decision
        simp only [userNext, next, ResolveCall.isChecked, Bool.or_false]
        refine ⟨inv.reads here (Int.le_of_lt later) ?_, fun holds => holds.reads _ _⟩
        intro chosen loaded pending isNew
        cases isNew
        obtain ⟨found, asked, undecided⟩ := checked chosen loaded pending rfl
        exact checked_of_getRunForApproval inv found asked undecided
      | checked decision loaded pending =>
        let shared := (userNext round elapsed s.shared
          (.resolving (.checked decision loaded pending))).1
        have accepted : shared.accepted = true := by
          simp [shared, userNext, ResolveCall.isChecked]
        obtain ⟨kept, answered⟩ := user_commits shared inv here later rfl rfl rfl rfl accepted
        exact ⟨kept, fun _ => answered⟩
      | returned _ | alreadyResolved | notFound =>
        simp only [userNext, resolveNext, ResolveCall.isChecked, Bool.or_false]
        refine ⟨inv.reads here (Int.le_refl _) ?_, fun holds => holds.reads _ _⟩
        intro _ _ _ isNew
        cases isNew
    | answering answer => exact user_answers inv here later answer
    | cancelling => exact user_cancels inv here later
    | replied =>
      refine ⟨inv.reads here (Int.le_refl _) ?_, fun holds => holds.reads _ _⟩
      intro _ _ _ isNew
      cases isNew

theorem inv_roundStart {round : ToolRound} {c : Conversation} {clock : Time}
    {worker : WorkerPoint} (begins : worker.Begins round.ask)
    (stored : (c.runs.find? round.runId).isSome) (bound : ∀ row ∈ c.runs.rows, row.updatedAt ≤ clock)
    (fresh : ∀ row ∈ c.runs.rows,
      asksFor round.ask.id row = false ∧ asksQuestion round.ask.id row = false)
    (replies : List Reply) : RoundInvariant round (roundStart c clock worker replies) := by
  have unchecked (i : Nat) (decision : Conversation.Decision) (loaded : AgentRun)
      (pending : PendingApproval) :
      (replies.map Reply.call)[i]? ≠ some (.resolving (.checked decision loaded pending)) := by
    intro here
    obtain ⟨reply, _, same⟩ := List.mem_map.mp (List.mem_of_getElem? here)
    cases reply <;> cases same
  have serves : worker.Serves round.ask ∧ worker.isOpen = false ∧ worker.isShown = false := by
    cases ask : round.ask with
    | approval id =>
      rw [ask] at begins
      cases worker with
      | request id' =>
        have same : id' = id := begins
        rw [same]
        exact ⟨rfl, rfl, rfl⟩
      | _ => exact begins.elim
    | question =>
      rw [ask] at begins
      cases worker with
      | result | prose => exact ⟨rfl, rfl, rfl⟩
      | _ => exact False.elim begins
  refine ⟨⟨?_, ?_, ?_, ?_⟩, bound, serves.1, ?_, ?_, ?_, ?_⟩
  · exact Option.isSome_iff_exists.mp stored
  · intro row member asks
    rw [(fresh row member).1] at asks
    cases asks
  · intro row member asks
    rw [(fresh row member).2] at asks
    cases asks
  · intro row member pending
    have asks := asksFor_of_pendingIn pending
    rw [(fresh row member).1] at asks
    cases asks
  · intro i decision loaded pending here
    exact absurd here (unchecked i decision loaded pending)
  · intro _
    exact ⟨rfl, fresh, unchecked⟩
  · intro still
    exact absurd still (Bool.eq_false_iff.mp serves.2.1)
  · intro still
    exact absurd still (Bool.eq_false_iff.mp serves.2.2)

/-- However the writes and frames of the worker are interleaved with the replies of the user, the
shown request stays answerable and its answer is kept exactly when the worker writes in time. -/
theorem pause_answerable_iff {round : ToolRound} {c : Conversation} {clock : Time}
    {worker : WorkerPoint} (begins : worker.Begins round.ask)
    (stored : (c.runs.find? round.runId).isSome) (bound : ∀ row ∈ c.runs.rows, row.updatedAt ≤ clock)
    (fresh : ∀ row ∈ c.runs.rows,
      asksFor round.ask.id row = false ∧ asksQuestion round.ask.id row = false)
    (replies : List Reply) (turns : List RoundTurn) :
    (∀ s ∈ trace (roundTurn round) (roundStart c clock worker replies) turns, Answerable round s) ↔
      Guarded (WritesInTime round) (roundTurn round) (roundStart c clock worker replies) turns := by
  have start : Answerable round (roundStart c clock worker replies) := by
    refine ⟨?_, ?_⟩
    · intro shown
      cases shown
    · intro decided
      cases decided
  refine forall_trace_iff_guarded ?_ ?_ (inv_roundStart begins stored bound fresh replies) start
  · intro s turn inv
    cases turn with
    | worker elapsed => exact inv_worker inv elapsed
    | user call elapsed => exact (inv_user inv call elapsed).1
  · intro s turn inv holds
    cases turn with
    | worker elapsed => exact answerable_worker_iff inv holds elapsed
    | user call elapsed => exact iff_of_true ((inv_user inv call elapsed).2 holds) trivial

def runAtWork : Conversation :=
  run step .empty
    [ ⟨0, .saveMessage ⟨1, .assistant, ⟨some "a", some "streaming", true, none, none⟩⟩⟩
    , ⟨0, .createRun 7 1 none true⟩ ]

def approvalRound : ToolRound := ⟨.approval "p", 7, some "a"⟩

def approvedAtOnce : List RoundTurn :=
  [ .worker 0, .worker 0, .worker 0, .worker 0, .user 0 0, .user 0 0, .worker 0, .worker 0,
    .worker 0 ]

theorem approved_at_once_answerable :
    ((roundStart runAtWork 1 (.request "p") [.decide .approved]).shared.conversation.runs.find?
        approvalRound.runId).isSome ∧
      ∀ s ∈ trace (roundTurn approvalRound)
        (roundStart runAtWork 1 (.request "p") [.decide .approved]) approvedAtOnce,
        Answerable approvalRound s := by
  have begins : (WorkerPoint.request "p").Begins approvalRound.ask := rfl
  refine ⟨by decide, ?_⟩
  refine (pause_answerable_iff begins (by decide) (by decide) (by decide) _ _).mpr ?_
  refine ⟨trivial, trivial, trivial, trivial, trivial, trivial, ?_, trivial, trivial, trivial⟩
  left
  decide +kernel

/-- The execution checkpoint follows the frame before the user can reply. -/
theorem execution_checkpoint_drops_request :
    ¬ ∀ (round : ToolRound) (c : Conversation) (clock : Time) (worker : WorkerPoint)
      (replies : List Reply) (turns : List RoundTurn), worker.Begins round.ask →
      (c.runs.find? round.runId).isSome → (∀ row ∈ c.runs.rows, row.updatedAt ≤ clock) →
      (∀ row ∈ c.runs.rows,
        asksFor round.ask.id row = false ∧ asksQuestion round.ask.id row = false) →
      ∀ s ∈ trace (roundTurn round) (roundStart c clock worker replies) turns,
        Answerable round s := by
  intro always
  let turns : List RoundTurn := List.replicate 5 (.worker 0)
  let last := run (roundTurn approvalRound) (roundStart runAtWork 1 (.request "p") []) turns
  have answerable : Answerable approvalRound last :=
    always approvalRound runAtWork 1 (.request "p") [] turns rfl (by decide) (by decide)
      (by decide) last (run_mem_trace _ _ turns)
  have missing : last.shared.conversation.runFor (.approval "p") = none := by decide +kernel
  obtain ⟨row, found, _⟩ := answerable.found (by decide +kernel) (by decide +kernel)
    (by decide +kernel)
  exact absurd (found.symm.trans missing) (by simp)

end AverQel.DeepSpace
