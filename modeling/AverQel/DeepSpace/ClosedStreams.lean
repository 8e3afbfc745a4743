/- digest: When the recovery of an expired lease leaves a terminal frame behind the last resume. -/
import AverQel.DeepSpace.Outcomes

namespace AverQel.DeepSpace

open Foundation
open Foundation.Text (nonempty strip)
open Foundation.Transition

namespace Conversation

def requestEvents (c : Conversation) (requestId : String) : List RunEvent :=
  c.events.filter (fun event => event.clientRequestId = requestId)

/-- The request whose stream `maintenance_heartbeat` closes for a run. -/
def heartbeatRequestId (c : Conversation) (run : AgentRun) : Option String :=
  (nonempty (some (strip (run.checkpoint.clientRequestId.getD "")))).or (c.recoveryRequestId run)

/-- The pass of `maintenance_heartbeat` over one run; `stored` says whether its `append_event`
comes through. -/
def maintenanceHeartbeat (now : Time) (runId : Uuid) (stored : Bool) (c : Conversation) :
    Conversation :=
  match c.runs.find? runId with
  | none => c
  | some run =>
    if leaseExpired (now - runStaleAfter) run then
      let marked := c.expireStaleRun now runId
      match c.heartbeatRequestId run with
      | none => marked
      | some requestId =>
        if (marked.terminalEvents requestId).isEmpty && stored then
          marked.appendEvent now requestId (if run.cancelRequested then .done else .error)
            (if run.cancelRequested then some "cancelled" else none)
        else marked
    else c

/-- `_close_expired_worker_stream` when its `append_event` fails: only the message is written. -/
def failToCloseStream (now : Time) (requestId : String) (runId : Uuid) (c : Conversation) :
    Conversation :=
  { c.closeExpiredWorkerStream now requestId runId with events := c.events }

/-- `last_error` says that the lease of the run expired. -/
def leaseMarked (c : Conversation) (runId : Uuid) : Bool :=
  match c.runs.find? runId with
  | none => false
  | some run =>
    run.lastError = some "worker_lease_expired" ||
      run.lastError = some "cancelled_after_worker_lease_expired"

end Conversation

namespace Operation

def appends : Operation → Bool
  | closeStream .. | appendEvent .. => true
  | _ => false

theorem events_apply (now : Time) (c : Conversation) {op : Operation} (silent : op.appends = false) :
    (op.apply now c).events = c.events :=
  (frame_apply now c op).events (by cases op <;> first | rfl | cases silent)

end Operation

structure ClosingFrame (c : Conversation) (requestId : String) (event : RunEvent) : Prop where
  request : event.clientRequestId = strip requestId
  next : event.sequence = c.latestSequence (strip requestId) + 1
  terminal : event.eventName.isTerminal = true

namespace Conversation

variable {c : Conversation}

theorem closingFrame_of_isTerminal (now : Time) (requestId : String) (name : EventName)
    (frameStatus : Option String) (terminal : name.isTerminal = true) :
    ClosingFrame c requestId
      { clientRequestId := strip requestId
        sequence := c.latestSequence (strip requestId) + 1
        eventName := name
        frameStatus := frameStatus
        createdAt := now } :=
  ⟨rfl, rfl, terminal⟩

variable {runId : Uuid}

theorem events_closeExpiredWorkerStream (now : Time) (requestId : String)
    (marked : c.leaseMarked runId = true) :
    ∃ event, ClosingFrame c requestId event ∧
      (c.closeExpiredWorkerStream now requestId runId).events =
        if c.terminalEvents requestId = [] then c.events ++ [event] else c.events := by
  unfold leaseMarked at marked
  unfold closeExpiredWorkerStream
  cases found : c.runs.find? runId with
  | none =>
    rw [found] at marked
    cases marked
  | some run =>
    rw [found] at marked
    have expired : (!decide (run.lastError = some "cancelled_after_worker_lease_expired") &&
        decide (run.lastError ≠ some "worker_lease_expired")) = false := by
      simp only [Bool.or_eq_true, decide_eq_true_eq] at marked
      rcases marked with failed | cancelled
      · simp [failed]
      · simp [cancelled]
    refine ⟨_, closingFrame_of_isTerminal now requestId
      (if run.lastError = some "cancelled_after_worker_lease_expired" then .done else .error)
      (if run.lastError = some "cancelled_after_worker_lease_expired" then some "cancelled"
        else none) ?_, ?_⟩
    · split <;> rfl
    · dsimp only
      rw [expired]
      cases c.terminalEvents requestId with
      | cons => rfl
      | nil => cases c.assistantOf run <;> simp [appendEvent, latestSequence]

theorem closeExpiredWorkerStream_of_unmarked (now : Time) (requestId : String)
    (unmarked : c.leaseMarked runId = false) :
    c.closeExpiredWorkerStream now requestId runId = c := by
  unfold leaseMarked at unmarked
  unfold closeExpiredWorkerStream
  cases found : c.runs.find? runId with
  | none => rfl
  | some =>
    rw [found] at unmarked
    simp only [Bool.or_eq_false_iff, decide_eq_false_iff_not] at unmarked
    simp [unmarked.1, unmarked.2]

theorem events_maintenanceHeartbeat {now : Time} {run : AgentRun} {requestId : String}
    (stored : Bool) (found : c.runs.find? runId = some run)
    (expired : leaseExpired (now - runStaleAfter) run = true)
    (request : c.heartbeatRequestId run = some requestId) :
    ∃ event, ClosingFrame c requestId event ∧
      (c.maintenanceHeartbeat now runId stored).events =
        if c.terminalEvents requestId = [] ∧ stored = true then c.events ++ [event]
        else c.events := by
  have same : (c.expireStaleRun now runId).events = c.events :=
    (Operation.frame_apply now c (.expireStaleRun runId)).events rfl
  have terminals : (c.expireStaleRun now runId).terminalEvents requestId =
      c.terminalEvents requestId := by
    unfold terminalEvents
    rw [same]
  have latest : (c.expireStaleRun now runId).latestSequence (strip requestId) =
      c.latestSequence (strip requestId) := by
    unfold latestSequence
    rw [same]
  refine ⟨_, closingFrame_of_isTerminal now requestId
    (if run.cancelRequested then .done else .error)
    (if run.cancelRequested then some "cancelled" else none) ?_, ?_⟩
  · split <;> rfl
  · simp only [maintenanceHeartbeat, found, expired, request, terminals, if_true]
    cases c.terminalEvents requestId with
    | cons => simp [same]
    | nil => cases stored <;> simp [appendEvent, same, latest]

theorem events_maintenanceHeartbeat_of_none {now : Time} (stored : Bool)
    (idle : ∀ run, c.runs.find? runId = some run → leaseExpired (now - runStaleAfter) run = true →
      c.heartbeatRequestId run = none) :
    (c.maintenanceHeartbeat now runId stored).events = c.events := by
  unfold maintenanceHeartbeat
  cases found : c.runs.find? runId with
  | none => rfl
  | some run =>
    dsimp only
    split
    · rename_i expired
      rw [idle run found expired]
      exact (Operation.frame_apply now c (.expireStaleRun runId)).events rfl
    · rfl

theorem latestSequence_mono {c' : Conversation} (more : c.events <+: c'.events)
    (requestId : String) : c.latestSequence requestId ≤ c'.latestSequence requestId := by
  obtain ⟨added, whole⟩ := more
  unfold latestSequence
  rw [← whole, List.filter_append, List.map_append, List.foldl_append]
  exact (le_foldl_max _ _).1

def resumes (c : Conversation) : Operation → Option String
  | .resumePaused => c.pausedTurn.map QueuedTurn.clientRequestId
  | _ => none

end Conversation

structure StreamHistory where
  conversation : Conversation
  resumedAt : String → Nat

inductive HistoryMove where
  | transaction (call : Call)
  | failToCloseStream (now : Time) (requestId : String) (runId : Uuid)
  | maintenanceHeartbeat (now : Time) (runId : Uuid) (stored : Bool)

namespace StreamHistory

def start : StreamHistory := ⟨.empty, fun _ => 0⟩

def resumedAfter (s : StreamHistory) (operation : Operation) (requestId : String) : Nat :=
  match s.conversation.resumes operation with
  | none => s.resumedAt requestId
  | some resumed =>
    if strip resumed = requestId then s.conversation.latestSequence requestId
    else s.resumedAt requestId

def step (s : StreamHistory) : HistoryMove → StreamHistory
  | .transaction call =>
    { conversation := DeepSpace.step s.conversation call
      resumedAt := s.resumedAfter call.operation }
  | .failToCloseStream now requestId runId =>
    { s with conversation := s.conversation.failToCloseStream now requestId runId }
  | .maintenanceHeartbeat now runId stored =>
    { s with conversation := s.conversation.maintenanceHeartbeat now runId stored }

/-- The request whose stream a recovery closes for a run with an expired lease, and whether its
frame is stored. -/
def closes (s : StreamHistory) : HistoryMove → Option (String × Bool)
  | .transaction ⟨_, .closeStream requestId runId⟩ =>
    if s.conversation.leaseMarked runId then some (requestId, true) else none
  | .transaction _ => none
  | .failToCloseStream _ requestId runId =>
    if s.conversation.leaseMarked runId then some (requestId, false) else none
  | .maintenanceHeartbeat now runId stored =>
    ((s.conversation.runs.find? runId).filter
      (Conversation.leaseExpired (now - Conversation.runStaleAfter))).bind fun run =>
      (s.conversation.heartbeatRequestId run).map fun requestId => (requestId, stored)

def Closed (s : StreamHistory) (requestId : String) : Prop :=
  (s.conversation.requestEvents (strip requestId)).getLast?.any (fun event =>
    event.eventName.isTerminal && s.resumedAt (strip requestId) < event.sequence) = true

def ClosesStream (s : StreamHistory) (move : HistoryMove) : Prop :=
  ∀ requestId stored, s.closes move = some (requestId, stored) → (s.step move).Closed requestId

def Closable (s : StreamHistory) (move : HistoryMove) : Prop :=
  ∀ requestId stored, s.closes move = some (requestId, stored) →
    s.conversation.terminalEvents requestId = [] ∧ stored = true ∨ s.Closed requestId

def Bounded (s : StreamHistory) : Prop :=
  ∀ requestId, s.resumedAt requestId ≤ s.conversation.latestSequence requestId

variable {s : StreamHistory}

theorem events_step (s : StreamHistory) (move : HistoryMove) :
    s.conversation.events <+: (s.step move).conversation.events := by
  have grows {c c' : Conversation} {event : RunEvent} {p : Prop} [Decidable p]
      (events : c'.events = if p then c.events ++ [event] else c.events) :
      c.events <+: c'.events := by
    rw [events]
    split
    · exact List.prefix_append _ _
    · exact List.prefix_rfl
  have stays {c c' : Conversation} (same : c'.events = c.events) : c.events <+: c'.events :=
    ⟨[], (List.append_nil _).trans same.symm⟩
  cases move with
  | transaction call =>
    obtain ⟨now, operation⟩ := call
    cases silent : operation.appends with
    | false => exact stays (Operation.events_apply now s.conversation silent)
    | true =>
      cases operation with
      | closeStream requestId runId =>
        cases marked : s.conversation.leaseMarked runId with
        | true =>
          obtain ⟨event, _, events⟩ :=
            Conversation.events_closeExpiredWorkerStream now requestId marked
          exact grows events
        | false =>
          have same := Conversation.closeExpiredWorkerStream_of_unmarked now requestId marked
          exact stays (congrArg Conversation.events same)
      | appendEvent => exact List.prefix_append _ _
      | _ => cases silent
  | failToCloseStream => exact List.prefix_rfl
  | maintenanceHeartbeat now runId stored =>
    by_cases idle : ∀ run, s.conversation.runs.find? runId = some run →
        Conversation.leaseExpired (now - Conversation.runStaleAfter) run = true →
          s.conversation.heartbeatRequestId run = none
    · exact stays (Conversation.events_maintenanceHeartbeat_of_none stored idle)
    · push Not at idle
      obtain ⟨run, found, expired, some_request⟩ := idle
      obtain ⟨requestId, request⟩ := Option.ne_none_iff_exists'.mp some_request
      obtain ⟨event, _, events⟩ :=
        Conversation.events_maintenanceHeartbeat stored found expired request
      exact grows events

theorem bounded_step (bounded : s.Bounded) (move : HistoryMove) : (s.step move).Bounded := by
  intro requestId
  have grown := Conversation.latestSequence_mono (events_step s move) requestId
  have before := bounded requestId
  cases move with
  | transaction call =>
    show s.resumedAfter call.operation requestId ≤ _
    unfold resumedAfter
    split
    · exact before.trans grown
    · split
      · exact grown
      · exact before.trans grown
  | failToCloseStream | maintenanceHeartbeat => exact before.trans grown

theorem closed_iff (bounded : s.Bounded) {c : Conversation} {requestId : String} {stored : Bool}
    {event : RunEvent} (frame : ClosingFrame s.conversation requestId event)
    (events : c.events =
      if s.conversation.terminalEvents requestId = [] ∧ stored = true then
        s.conversation.events ++ [event]
      else s.conversation.events) :
    ({ s with conversation := c } : StreamHistory).Closed requestId ↔
      s.conversation.terminalEvents requestId = [] ∧ stored = true ∨ s.Closed requestId := by
  by_cases opens : s.conversation.terminalEvents requestId = [] ∧ stored = true
  · rw [if_pos opens] at events
    refine iff_of_true ?_ (.inl opens)
    have behind : s.resumedAt (strip requestId) < event.sequence := by
      have reached := bounded (strip requestId)
      rw [frame.next]
      omega
    unfold Closed Conversation.requestEvents
    rw [events, List.filter_append, List.filter_singleton]
    simp [frame.request, frame.terminal, behind]
  · rw [if_neg opens] at events
    have same : ({ s with conversation := c } : StreamHistory).Closed requestId ↔
        s.Closed requestId := by
      unfold Closed Conversation.requestEvents
      rw [events]
    rw [same, or_iff_right opens]

theorem closesStream_iff_closable (bounded : s.Bounded) (move : HistoryMove) :
    s.ClosesStream move ↔ s.Closable move := by
  refine forall_congr' fun requestId => forall_congr' fun stored => imp_congr_right fun closes => ?_
  cases move with
  | transaction call =>
    obtain ⟨now, operation⟩ := call
    cases operation with
    | closeStream other =>
      obtain ⟨marked, same⟩ := Option.ite_none_right_eq_some.mp closes
      obtain ⟨rfl, rfl⟩ := Prod.mk.inj (Option.some.inj same)
      obtain ⟨event, frame, events⟩ :=
        Conversation.events_closeExpiredWorkerStream now other marked
      refine closed_iff bounded frame (events.trans ?_)
      simp
    | _ => cases closes
  | failToCloseStream now other =>
    obtain ⟨marked, same⟩ := Option.ite_none_right_eq_some.mp closes
    obtain ⟨rfl, rfl⟩ := Prod.mk.inj (Option.some.inj same)
    obtain ⟨event, frame, _⟩ := Conversation.events_closeExpiredWorkerStream now other marked
    refine closed_iff bounded frame ?_
    simp [Conversation.failToCloseStream]
  | maintenanceHeartbeat now runId kept =>
    obtain ⟨run, selected, same⟩ := Option.bind_eq_some_iff.mp closes
    obtain ⟨found, expired⟩ := Option.filter_eq_some_iff.mp selected
    obtain ⟨other, request, pair⟩ := Option.map_eq_some_iff.mp same
    obtain ⟨rfl, rfl⟩ := Prod.mk.inj pair
    obtain ⟨event, frame, events⟩ :=
      Conversation.events_maintenanceHeartbeat kept found expired request
    exact closed_iff bounded frame events

/-- In every history of transactions, pauses, resumes and recoveries, every recovery of a run with
an expired lease leaves a terminal frame behind the last resume exactly if it stores the first
terminal frame of the request, or the log ends with such a frame already. -/
theorem recovery_closes_stream_iff (moves : List HistoryMove) :
    Guarded ClosesStream step start moves ↔ Guarded Closable step start moves :=
  guarded_iff_of_guarded (I := Bounded) (fun _ move bounded _ => bounded_step bounded move)
    (fun _ move bounded _ => closesStream_iff_closable bounded move) (fun _ => Nat.zero_le _)
    (guarded_true step start moves)

/-- A turn asks its user, is resumed, and its worker dies after one more frame. -/
def dieAfterResume : List HistoryMove :=
  [ .transaction ⟨0, .enqueue (.plain "a" "go" false)⟩
  , .transaction ⟨0, .claim⟩
  , .transaction ⟨0, .saveMessage ⟨1, .assistant, ⟨some "a", some "streaming", true, none, none⟩⟩⟩
  , .transaction ⟨0, .createRun 7 1 none true⟩
  , .transaction ⟨0, .updateCheckpoint 7 (some .awaitingUser)
      (some { Checkpoint.empty with pendingUserQuestion := some ⟨"q", none, none⟩ }) none true⟩
  , .transaction ⟨0, .appendEvent "a" .done (some "awaiting_user")⟩
  , .transaction ⟨0, .finish "a" "awaiting_user" none⟩
  , .transaction ⟨0, .claimUserQuestion "q" "yes"⟩
  , .transaction ⟨0, .resumePaused⟩
  , .transaction ⟨0, .appendEvent "a" (.other "message") none⟩ ]

/-- The frame of the pause keeps the recovery from closing the resumed stream. -/
theorem pause_frame_keeps_stream_open :
    ¬ ∀ moves : List HistoryMove, Guarded ClosesStream step start moves := by
  intro closes
  have whole := closes
    (dieAfterResume ++ [.maintenanceHeartbeat (Conversation.runStaleAfter + 1) 7 true])
  have last := ((guarded_append step start _ _).mp whole).2.1
  have closed := last "a" true (by decide +kernel)
  revert closed
  unfold Closed
  decide +kernel

end StreamHistory

end AverQel.DeepSpace
