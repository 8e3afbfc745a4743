/- digest: Whether a run that has just started to work is taken for one that lost its worker. -/
import AverQel.DeepSpace.RunLookups

namespace AverQel.DeepSpace

open Foundation Transition
open Foundation.Text (nonempty truncate)

/-- A write that left its run `running`, with the heartbeat that it left there. -/
structure LeaseEntry where
  runId : Uuid
  time : Time
  beat : Option Time

/-- A conversation with the time of its last transaction and the moves to `running` so far. -/
structure LeaseHistory where
  conversation : Conversation
  clock : Time
  entries : List LeaseEntry

namespace Operation

/-- The run that the write leaves `running`. -/
def startedRun (c : Conversation) : Operation → Option Uuid
  | createRun runId _ _ fits => if fits && (c.runs.find? runId).isNone then some runId else none
  | updateCheckpoint runId status checkpoint lastError fits =>
    if (checkpoint.isSome || lastError.isSome) && !fits then none
    else ((c.runs.find? runId).filter
      (fun run => status.getD run.status = .running)).map AgentRun.id
  | clearPendingApproval runId _ fits =>
    if fits then (c.runs.find? runId).map AgentRun.id else none
  | claimUserQuestion questionId _ =>
    match Conversation.questionClaim questionId (c.runsByUpdate.filter (fun run =>
        run.status = .awaitingUser || run.status = .running)) with
    | some (found, true) => some found.id
    | _ => none
  | resolveApproval approvalId .approved =>
    ((c.getRunForApproval approvalId).filter (fun run =>
      run.checkpoint.pendingApproval.any (fun pending =>
        !Conversation.alreadyResolved pending))).map AgentRun.id
  | _ => none

def leaseEntries (now : Time) (c : Conversation) (op : Operation) : List LeaseEntry :=
  (op.startedRun c).toList.filterMap (fun runId =>
    ((op.apply now c).runs.find? runId).map (fun run => ⟨runId, now, run.heartbeatAt⟩))

def leaseGrace (runId : Uuid) : Operation → Option Time
  | expireStaleRun id => if id = runId then some Conversation.runStaleAfter else none
  | recoverStaleRuns staleAfter => some staleAfter
  | _ => none

def selects (now : Time) (c : Conversation) (runId : Uuid) : Operation → Bool
  | expireStaleRun id =>
    id = runId &&
      (c.runs.find? id).any (Conversation.leaseExpired (now - Conversation.runStaleAfter))
  | recoverStaleRuns staleAfter => (c.staleRuns (now - staleAfter)).any (fun run => run.id = runId)
  | _ => false

theorem selects_of_leaseGrace {now : Time} {c : Conversation} {runId : Uuid} {op : Operation}
    {grace : Time} (isGrace : op.leaseGrace runId = some grace) :
    op.selects now c runId =
      (c.runs.find? runId).any (Conversation.leaseExpired (now - grace)) := by
  cases op with
  | expireStaleRun id =>
    simp only [leaseGrace] at isGrace
    split at isGrace
    · rename_i same
      cases isGrace
      simp [selects, same]
    · cases isGrace
  | recoverStaleRuns =>
    cases isGrace
    rw [Bool.eq_iff_iff]
    simp only [selects, Conversation.staleRuns, List.any_eq_true, List.mem_filter,
      decide_eq_true_eq, Option.any_eq_true]
    constructor
    · rintro ⟨run, ⟨stored, expired⟩, key⟩
      exact ⟨run, Table.find?_eq_some_iff.mpr ⟨stored, key⟩, expired⟩
    · rintro ⟨run, found, expired⟩
      obtain ⟨stored, key⟩ := Table.find?_eq_some_iff.mp found
      exact ⟨run, ⟨stored, expired⟩, key⟩
  | _ => cases isGrace

end Operation

namespace Conversation

def BeatsFrom (now : Time) (c c' : Conversation) : Prop :=
  ∀ run' ∈ c'.runs.rows, run'.heartbeatAt = none ∨ run'.heartbeatAt = some now ∨
    ∃ run ∈ c.runs.rows, run.id = run'.id ∧ run'.heartbeatAt = run.heartbeatAt

def BeatKept (now : Time) (run run' : AgentRun) : Prop :=
  run'.heartbeatAt = none ∨ run'.heartbeatAt = some now ∨ run'.heartbeatAt = run.heartbeatAt

variable {now : Time} {c c' c'' : Conversation}

theorem BeatsFrom.of_same (same : c'.runs = c.runs) : BeatsFrom now c c' := by
  intro run stored
  rw [same] at stored
  exact .inr (.inr ⟨run, stored, rfl, rfl⟩)

theorem BeatsFrom.trans (first : BeatsFrom now c c') (second : BeatsFrom now c' c'') :
    BeatsFrom now c c'' := by
  intro run'' stored''
  rcases second run'' stored'' with none | written | ⟨run', stored', key', beat'⟩
  · exact .inl none
  · exact .inr (.inl written)
  · rcases first run' stored' with none | written | ⟨run, stored, key, beat⟩
    · exact .inl (beat'.trans none)
    · exact .inr (.inl (beat'.trans written))
    · exact .inr (.inr ⟨run, stored, key.trans key', beat'.trans beat⟩)

theorem BeatsFrom.of_map {f : AgentRun → AgentRun} (rows : c'.runs.rows = c.runs.rows.map f)
    (id : ∀ run, (f run).id = run.id) (kept : ∀ run, BeatKept now run (f run)) :
    BeatsFrom now c c' := by
  intro run' stored'
  rw [rows] at stored'
  obtain ⟨run, stored, rfl⟩ := List.mem_map.mp stored'
  rcases kept run with none | written | same
  · exact .inl none
  · exact .inr (.inl written)
  · exact .inr (.inr ⟨run, stored, (id run).symm, same⟩)

theorem BeatsFrom.of_modify {runId : Uuid} {f : AgentRun → AgentRun}
    {hf : ∀ run, (f run).id = run.id} (kept : ∀ run, BeatKept now run (f run)) :
    BeatsFrom now c (c.modifyRun runId f hf) := by
  refine .of_map rfl (fun run => ?_) (fun run => ?_)
  · split
    · exact hf run
    · rfl
  · split
    · exact kept run
    · exact .inr (.inr rfl)

theorem beatKept_recoverEndedRun (event : Option RunEvent) (turn : QueuedTurn) (run : AgentRun) :
    BeatKept now run (recoverEndedRun now event turn run) := by
  refine .inl ?_
  unfold recoverEndedRun
  cases event with
  | none | some => dsimp only; split <;> rfl

theorem beats_reconcileRun (cutoff : Time) (stored : Conversation) (run : AgentRun) :
    BeatsFrom now c (reconcileRun now cutoff stored c run) := by
  cases target : stored.recoveryTarget cutoff run with
  | none => exact .of_same (by simp only [reconcileRun, target])
  | some requestId =>
    cases ended : c.turns.find? requestId with
    | none => exact .of_same (by simp only [reconcileRun, target, ended])
    | some turn =>
      have kept (row : AgentRun) : BeatKept now row
          (if row.id = run.id then
            recoverEndedRun now (stored.newestTerminalEvent requestId) turn row
          else row) := by
        split
        · exact beatKept_recoverEndedRun (stored.newestTerminalEvent requestId) turn row
        · exact .inr (.inr rfl)
      refine .of_map ?_ (fun row => ?_) kept
      · simp only [reconcileRun, target, ended]
        rfl
      · split
        · exact recoverEndedRun_id now _ _ row
        · rfl

theorem beats_reconcileRuns (cutoff : Time) (stored : Conversation) (runs : List AgentRun) :
    BeatsFrom now c (runs.foldl (reconcileRun now cutoff stored) c) := by
  induction runs generalizing c with
  | nil => exact .of_same rfl
  | cons run rest ih => exact (beats_reconcileRun cutoff stored run).trans ih

theorem beats_updateCheckpoint (runId : Uuid) (status : Option RunStatus)
    (checkpoint : Option Checkpoint) (lastError : Option String) (fits : Bool) :
    BeatsFrom now c (c.updateCheckpoint now runId status checkpoint lastError fits) := by
  unfold updateCheckpoint
  split
  · exact .of_same rfl
  · refine .of_modify fun run => ?_
    dsimp only [BeatKept]
    split
    · exact .inr (.inl rfl)
    · exact .inr (.inr rfl)

end Conversation

namespace Operation

def keepsRuns : Operation → Bool
  | enqueue .. | updateQueuedPrompt .. | retryFailed .. | promote .. | pause .. | resume
  | resumeAfterFailure | requestCancel .. | requestCancelByRequestId .. | cancelAllForConversation
  | clearForConversation | releaseClaim .. | closeStream .. | recoverClaims .. | resumePaused
  | claim | finish .. | saveMessage .. | appendEvent .. => true
  | _ => false

variable {op : Operation}

theorem runs_apply_of_keepsRuns (now : Time) (c : Conversation) (keeps : op.keepsRuns) :
    (op.apply now c).runs = c.runs :=
  (frame_apply now c op).runs (by cases op <;> first | rfl | cases keeps)

/-- No transaction moves a heartbeat: it writes the present time, or takes the heartbeat away. -/
theorem beats_apply (now : Time) (c : Conversation) (op : Operation) :
    Conversation.BeatsFrom now c (op.apply now c) := by
  cases op with
  | recoverStaleRuns => exact Conversation.beats_reconcileRuns _ c _
  | createRun runId messageId checkpoint fits =>
    simp only [apply, Conversation.createRun]
    split
    · split
      · rename_i inserted
        intro run stored
        rcases (Table.mem_of_insert? inserted).mp stored with old | rfl
        · exact .inr (.inr ⟨run, old, rfl, rfl⟩)
        · exact .inr (.inl rfl)
      · exact .of_same rfl
    · exact .of_same rfl
  | updateCheckpoint runId status checkpoint lastError fits =>
    exact Conversation.beats_updateCheckpoint runId status checkpoint lastError fits
  | heartbeat =>
    refine .of_modify fun run => ?_
    split
    · exact .inr (.inl rfl)
    · exact .inr (.inr rfl)
  | recordStep =>
    simp only [apply, Conversation.recordStep]
    split
    · refine .of_modify fun run => ?_
      dsimp only [Conversation.BeatKept]
      split
      · exact .inr (.inl rfl)
      · exact .inr (.inr rfl)
    · exact .of_same rfl
  | resolveApproval =>
    simp only [apply, Conversation.resolveApproval]
    split
    · exact .of_same rfl
    · split
      · exact .of_same rfl
      · split
        · exact .of_same rfl
        · exact .of_modify fun run => .inr (.inr rfl)
  | clearPendingApproval runId checkpoint fits =>
    exact Conversation.beats_updateCheckpoint runId _ _ none fits
  | claimUserQuestion =>
    simp only [apply, Conversation.claimUserQuestion]
    split
    · exact .of_modify fun run => .inr (.inl rfl)
    · exact .of_same rfl
  | requestCancelRuns | finishRequestedCancellations =>
    refine .of_map rfl (fun run => ?_) (fun run => ?_)
    · split <;> rfl
    · dsimp only [Conversation.BeatKept]
      split
      · simp
      · exact .inr (.inr rfl)
  | finishRun => exact .of_modify fun run => .inl rfl
  | finishForRequest requestId status error =>
    have closed {found : AgentRun} {target : RunStatus} : Conversation.BeatsFrom now c
        (c.modifyRun found.id
          (fun run =>
            if run.status.isActive then
              { run with
                status := target
                updatedAt := now
                heartbeatAt := none
                lastError := ((nonempty error).map (truncate 2000)).or run.lastError }
            else run)
          (fun run => by split <;> rfl)) := by
      refine .of_modify fun run => ?_
      split
      · exact .inl rfl
      · exact .inr (.inr rfl)
    simp only [apply, Conversation.finishForRequest]
    split
    · split <;> exact closed
    · exact .of_same rfl
  | expireStaleRun =>
    simp only [apply, Conversation.expireStaleRun]
    split
    · exact .of_same rfl
    · split
      · split
        all_goals
          refine .of_map rfl (fun run => ?_) (fun run => ?_)
          · split <;> rfl
          · split
            · exact .inl rfl
            · exact .inr (.inr rfl)
      · exact .of_same rfl
  | _ => exact .of_same (runs_apply_of_keepsRuns now c rfl)

theorem startedRun_spec {now : Time} {c : Conversation} {runId : Uuid}
    (started : op.startedRun c = some runId) :
    ∃ run, (op.apply now c).runs.find? runId = some run ∧ run.status = .running ∧
      (run.heartbeatAt = some now ∨ ∃ approvalId, op = resolveApproval approvalId .approved) := by
  cases op with
  | createRun id messageId checkpoint fits =>
    simp only [startedRun] at started
    split at started
    · rename_i both
      cases started
      obtain ⟨fit, free⟩ := Bool.and_eq_true_iff.mp both
      have fresh : runId ∉ c.runs.rows.map AgentRun.id := by
        intro taken
        obtain ⟨row, stored, key⟩ := List.mem_map.mp taken
        rw [Table.find?_eq_some_iff.mpr ⟨stored, key⟩] at free
        cases free
      simp only [apply, Conversation.createRun, fit, if_true]
      split
      · rename_i runs inserted
        exact ⟨_, Table.find?_eq_some_iff.mpr ⟨(Table.mem_of_insert? inserted).mpr (.inr rfl), rfl⟩,
          rfl, .inl rfl⟩
      · rename_i refused
        obtain ⟨runs, inserted, _⟩ := Table.insert?_of_fresh (t := c.runs)
          (a := ⟨runId, some messageId, .running, false, 0, 0, checkpoint.getD .empty, none, now,
            some now⟩) fresh
        rw [inserted] at refused
        cases refused
    · cases started
  | updateCheckpoint id status checkpoint lastError fits =>
    simp only [startedRun] at started
    split at started
    · cases started
    · rename_i fitting
      obtain ⟨row, chosen, rfl⟩ := Option.map_eq_some_iff.mp started
      obtain ⟨found, running⟩ := Option.filter_eq_some_iff.mp chosen
      obtain ⟨stored, rfl⟩ := Table.find?_eq_some_iff.mp found
      have works : status.getD row.status = .running := of_decide_eq_true running
      simp only [apply, Conversation.updateCheckpoint, fitting]
      refine ⟨_, Conversation.find?_modifyRun found, works, .inl ?_⟩
      have beats : status.all RunStatus.isWorker = true := by
        cases status with
        | none => rfl
        | some =>
          rw [Option.getD_some] at works
          rw [works]
          rfl
      rw [if_pos beats]
  | clearPendingApproval id checkpoint fits =>
    simp only [startedRun] at started
    split at started
    · rename_i fit
      obtain ⟨row, found, rfl⟩ := Option.map_eq_some_iff.mp started
      obtain ⟨stored, rfl⟩ := Table.find?_eq_some_iff.mp found
      simp only [apply, Conversation.clearPendingApproval, Conversation.updateCheckpoint, fit]
      exact ⟨_, Conversation.find?_modifyRun found, rfl, .inl rfl⟩
    · cases started
  | claimUserQuestion questionId answer =>
    simp only [startedRun] at started
    split at started
    · rename_i found claimed
      cases started
      have stored := (Conversation.questionClaim_spec claimed).1
      have member := (List.mem_insertionSort _).mp (List.mem_filter.mp stored).1
      simp only [apply, Conversation.claimUserQuestion, claimed]
      exact ⟨_, Conversation.find?_modifyRun (Table.find?_eq_some_iff.mpr ⟨member, rfl⟩), rfl,
        .inl rfl⟩
    · cases started
  | resolveApproval approvalId decision =>
    cases decision with
    | denied => cases started
    | approved =>
      obtain ⟨found, chosen, rfl⟩ := Option.map_eq_some_iff.mp started
      obtain ⟨hit, undecided⟩ := Option.filter_eq_some_iff.mp chosen
      obtain ⟨stored, _, _⟩ := Conversation.getRunForApproval_spec hit
      obtain ⟨pending, asked, undecided⟩ := (Option.any_eq_true _ _).mp undecided
      have unresolved : Conversation.alreadyResolved pending = false := by simpa using undecided
      simp only [apply, Conversation.resolveApproval, hit, asked, unresolved]
      exact ⟨_, Conversation.find?_modifyRun (Table.find?_eq_some_iff.mpr ⟨stored, rfl⟩), rfl,
        .inr ⟨approvalId, rfl⟩⟩
  | _ => cases started

theorem leaseEntries_spec {now : Time} {c : Conversation} {entry : LeaseEntry}
    (member : entry ∈ op.leaseEntries now c) :
    entry.time = now ∧ ∃ run, (op.apply now c).runs.find? entry.runId = some run ∧
      run.status = .running ∧ run.heartbeatAt = entry.beat ∧
      (entry.beat = some entry.time ∨ ∃ approvalId, op = resolveApproval approvalId .approved) := by
  obtain ⟨runId, chosen, entered⟩ := List.mem_filterMap.mp member
  have started : op.startedRun c = some runId := Option.mem_toList.mp chosen
  obtain ⟨run, found, running, beat⟩ := startedRun_spec started
  rw [found] at entered
  cases entered
  exact ⟨rfl, run, found, running, rfl, beat⟩

end Operation

namespace LeaseHistory

def start (c : Conversation) (clock : Time) : LeaseHistory := ⟨c, clock, []⟩

def step (h : LeaseHistory) (call : Call) : LeaseHistory where
  conversation := DeepSpace.step h.conversation call
  clock := call.now
  entries := h.entries ++ call.operation.leaseEntries call.now h.conversation

def InOrder (h : LeaseHistory) (call : Call) : Prop := h.clock ≤ call.now

def RespectsLease (h : LeaseHistory) (call : Call) : Prop :=
  ∀ entry ∈ h.entries, ∀ grace ∈ call.operation.leaseGrace entry.runId,
    call.now < entry.time + grace →
      call.operation.selects call.now h.conversation entry.runId = false

/-- A recovery within the grace period meets the run, where it is still at work, with a heartbeat:
one that was written by the start or after it, or one that an approval left there and that is not
too old yet. -/
def LeaseRenewed (h : LeaseHistory) (call : Call) : Prop :=
  ∀ entry ∈ h.entries, ∀ grace ∈ call.operation.leaseGrace entry.runId,
    call.now < entry.time + grace →
      ∀ run ∈ h.conversation.runs.find? entry.runId, run.status.isWorker →
        run.heartbeatAt.isSome ∧
          (run.heartbeatAt = entry.beat → entry.beat ≠ some entry.time →
            before entry.beat (call.now - grace) = false)

/-- The heartbeat of a run that has started to work: gone, the one of the start, or a later one. -/
structure Timely (h : LeaseHistory) : Prop where
  past : ∀ entry ∈ h.entries, entry.time ≤ h.clock
  beats : ∀ entry ∈ h.entries, ∀ run ∈ h.conversation.runs.rows, run.id = entry.runId →
    run.heartbeatAt = none ∨ run.heartbeatAt = entry.beat ∨
      ∃ time, run.heartbeatAt = some time ∧ entry.time ≤ time

theorem timely_start (c : Conversation) (clock : Time) : (start c clock).Timely := by
  constructor
  all_goals
    intro entry member
    cases member

theorem timely_step {h : LeaseHistory} (timely : h.Timely) {call : Call}
    (inOrder : h.InOrder call) : (h.step call).Timely := by
  constructor
  · intro entry member
    rcases List.mem_append.mp member with old | new
    · exact (timely.past entry old).trans inOrder
    · exact (Operation.leaseEntries_spec new).1.le
  · intro entry member run' stored' key'
    rcases List.mem_append.mp member with old | new
    · rcases call.operation.beats_apply call.now h.conversation run' stored' with
        none | written | ⟨run, stored, key, beat⟩
      · exact .inl none
      · exact .inr (.inr ⟨call.now, written, (timely.past entry old).trans inOrder⟩)
      · rw [beat]
        exact timely.beats entry old run stored (key.trans key')
    · obtain ⟨_, run, found, _, beat, _⟩ := Operation.leaseEntries_spec new
      have here := Table.find?_eq_some_iff.mpr ⟨stored', key'⟩
      have same : run' = run := Option.some.inj (here.symm.trans found)
      rw [same]
      exact .inr (.inl beat)

theorem respectsLease_iff {h : LeaseHistory} (timely : h.Timely) (call : Call) :
    h.RespectsLease call ↔ h.LeaseRenewed call := by
  refine forall₂_congr fun entry member => forall₂_congr fun grace isGrace =>
    forall_congr' fun within => ?_
  rw [Operation.selects_of_leaseGrace isGrace]
  cases found : h.conversation.runs.find? entry.runId with
  | none => simp
  | some run =>
    obtain ⟨stored, key⟩ := Table.find?_eq_some_iff.mp found
    rw [Option.any_some, Conversation.leaseExpired]
    cases works : run.status.isWorker with
    | false => simp [works]
    | true =>
      rcases timely.beats entry member run stored key with none | same | ⟨time, some, later⟩
      · simp [none, works]
      · cases beat : entry.beat with
        | none => simp [same, beat, works]
        | some time =>
          have own : time = entry.time → before (some time) (call.now - grace) = false := by
            rintro rfl
            exact not_before_of_within le_rfl within
          simp only [same, beat, Option.isNone_some, Bool.false_or, Bool.true_and, works,
            Option.mem_some_iff, forall_eq', Option.isSome_some, true_and, forall_const, ne_eq,
            Option.some.injEq]
          constructor
          · intro fresh _
            exact fresh
          · intro fresh
            by_cases same : time = entry.time
            · exact own same
            · exact fresh same
      · have fresh := not_before_of_within later within
        simp only [some, fresh, Option.isNone_some, Bool.or_self, Bool.and_false, true_iff,
          Option.mem_some_iff, forall_eq', works, Option.isSome_some, true_and, forall_const]
        intro same _
        rw [← same]
        exact fresh

instance (h : LeaseHistory) (call : Call) : Decidable (h.InOrder call) :=
  inferInstanceAs (Decidable (_ ≤ _))

instance (h : LeaseHistory) (call : Call) : Decidable (h.RespectsLease call) := by
  unfold RespectsLease
  infer_instance

instance (h : LeaseHistory) (call : Call) : Decidable (h.LeaseRenewed call) := by
  unfold LeaseRenewed
  infer_instance

/-- In every history with times that do not run backwards, no run that has just started to work
is taken for one that lost its worker exactly when no recovery within the grace period meets such
a run at work without a heartbeat, or with the outdated one that an approval left there. -/
theorem lease_respected_iff (c : Conversation) (clock : Time) (calls : List Call)
    (inOrder : Guarded InOrder step (start c clock) calls) :
    Guarded RespectsLease step (start c clock) calls ↔
      Guarded LeaseRenewed step (start c clock) calls :=
  guarded_iff_of_guarded (fun _ _ timely inOrder => timely_step timely inOrder)
    (fun _ call timely _ => respectsLease_iff timely call) (timely_start c clock) inOrder

/-- A run that waits for an approval for as long as `pause` says, and starts to work then. -/
def approvedAfter (pause : Time) (resumed : List Call) : List Call :=
  [ ⟨0, .createRun 7 1 none true⟩
  , ⟨1, .updateCheckpoint 7 (some .awaitingApproval)
      (some { Checkpoint.empty with pendingApproval := some ⟨"approve", none, none⟩ }) none true⟩
  , ⟨pause, .resolveApproval "approve" .approved⟩ ] ++ resumed

theorem renewed_approval_keeps_lease : Guarded RespectsLease step (start .empty 0)
    (approvedAfter 1800000001 [⟨1800000002, .heartbeat 7⟩, ⟨1800000003, .expireStaleRun 7⟩]) :=
  (lease_respected_iff .empty 0 _ (by decide +kernel)).mpr (by decide +kernel)

/-- A maintenance pass right after an approval that came later than half an hour: the run still
has the heartbeat from before the pause. -/
theorem approval_after_long_pause_expires :
    ¬ ∀ (c : Conversation) (clock : Time) (calls : List Call),
      Guarded InOrder step (start c clock) calls →
        Guarded RespectsLease step (start c clock) calls := by
  intro respected
  have broken : ¬ Guarded RespectsLease step (start .empty 0)
      (approvedAfter 1800000001 [⟨1800000002, .expireStaleRun 7⟩]) := by decide +kernel
  exact broken (respected .empty 0 _ (by decide +kernel))

end LeaseHistory

end AverQel.DeepSpace
