/- digest: Whether recovery leaves a turn alone for its grace period after it starts to run. -/
import AverQel.DeepSpace.SingleActive

namespace AverQel.DeepSpace

open Foundation Transition

/-- A move of a turn to `running`, by `claim_next` or by `resume_paused`. -/
structure Entry where
  requestId : String
  time : Time
  resumed : Bool

/-- A conversation with the time of its last transaction and the moves to `running` so far. -/
structure History where
  conversation : Conversation
  clock : Time
  entries : List Entry

namespace Operation

def entered (now : Time) (c : Conversation) : Operation → List Entry
  | claim => c.claimable.toList.map (fun turn => ⟨turn.clientRequestId, now, false⟩)
  | resumePaused => c.pausedTurn.toList.map (fun turn => ⟨turn.clientRequestId, now, true⟩)
  | _ => []

/-- The grace period of a transaction of `recover_stale_claims`. -/
def graceOf : Operation → Option Time
  | recoverStaleRuns staleAfter | recoverClaims staleAfter => some staleAfter
  | _ => none

end Operation

namespace History

def start (clock : Time) : History := ⟨.empty, clock, []⟩

def step (h : History) (call : Call) : History where
  conversation := DeepSpace.step h.conversation call
  clock := call.now
  entries := h.entries ++ call.operation.entered call.now h.conversation

def InOrder (h : History) (call : Call) : Prop := h.clock ≤ call.now

def RespectsGrace (h : History) (call : Call) : Prop :=
  ∀ staleAfter ∈ call.operation.graceOf, ∀ entry ∈ h.entries,
    call.now < entry.time + staleAfter →
      (DeepSpace.step h.conversation call).turnStatus entry.requestId =
        h.conversation.turnStatus entry.requestId

/-- While no run is active, recovery meets no turn that was resumed less than the grace period
ago and claimed longer ago than that. -/
def ResumesKept (h : History) (call : Call) : Prop :=
  match call.operation with
  | .recoverClaims staleAfter =>
    h.conversation.hasActiveRun = false → ∀ entry ∈ h.entries, entry.resumed = true →
      call.now < entry.time + staleAfter →
        (h.conversation.turns.find? entry.requestId).any
          (staleClaim (call.now - staleAfter)) = false
  | _ => True

/-- What the timestamps of a turn say about its moves to `running`. -/
structure Timely (h : History) : Prop where
  past : ∀ entry ∈ h.entries, entry.time ≤ h.clock
  stored : ∀ entry ∈ h.entries, ∃ turn, h.conversation.turns.find? entry.requestId = some turn
  claimed : ∀ entry ∈ h.entries, entry.resumed = false → ∀ turn,
    h.conversation.turns.find? entry.requestId = some turn →
      ∀ time ∈ turn.startedAt, entry.time ≤ time
  ended : ∀ entry ∈ h.entries, ∀ turn,
    h.conversation.turns.find? entry.requestId = some turn → turn.status.isTerminal →
      ∀ time ∈ turn.completedAt, entry.time ≤ time

theorem timely_start (clock : Time) : (start clock).Timely := by
  constructor
  all_goals
    intro entry member
    cases member

theorem entered_spec {now : Time} {c : Conversation} {op : Operation} {entry : Entry}
    (member : entry ∈ op.entered now c) :
    entry.time = now ∧ ∃ turn, c.turns.find? entry.requestId = some turn ∧
      (op.turnChange now c turn).status = .running ∧
      (entry.resumed = false → (op.turnChange now c turn).startedAt = some now) := by
  cases op with
  | claim =>
    obtain ⟨turn, claimed, rfl⟩ := List.mem_map.mp member
    have chosen : c.claimable = some turn := Option.mem_toList.mp claimed
    have stored := (Conversation.claimable_spec chosen).1
    refine ⟨rfl, turn, Table.find?_eq_some_iff.mpr ⟨stored, rfl⟩, ?_, fun _ => ?_⟩ <;>
      simp [Operation.turnChange, chosen]
  | resumePaused =>
    obtain ⟨turn, paused, rfl⟩ := List.mem_map.mp member
    have chosen : c.pausedTurn = some turn := Option.mem_toList.mp paused
    have stored := (Conversation.pausedTurn_spec chosen).1
    refine ⟨rfl, turn, Table.find?_eq_some_iff.mpr ⟨stored, rfl⟩, ?_, ?_⟩
    · simp [Operation.turnChange, chosen]
    · intro first
      cases first
  | _ => cases member

theorem timely_step {h : History} (timely : h.Timely) {call : Call} (inOrder : h.InOrder call) :
    (h.step call).Timely := by
  have after {requestId : String} {turn : QueuedTurn}
      (found : h.conversation.turns.find? requestId = some turn) :
      (h.step call).conversation.turns.find? requestId =
        some (call.operation.turnChange call.now h.conversation turn) :=
    call.operation.find?_apply call.now found
  refine ⟨?_, ?_, ?_, ?_⟩
  · intro entry member
    rcases List.mem_append.mp member with old | new
    · exact (timely.past entry old).trans inOrder
    · exact (entered_spec new).1.le
  · intro entry member
    rcases List.mem_append.mp member with old | new
    · obtain ⟨turn, found⟩ := timely.stored entry old
      exact ⟨_, after found⟩
    · obtain ⟨_, turn, found, _⟩ := entered_spec new
      exact ⟨_, after found⟩
  · intro entry member notResumed turn' found' time started
    rcases List.mem_append.mp member with old | new
    · obtain ⟨turn, found⟩ := timely.stored entry old
      rw [after found] at found'
      cases found'
      rcases (call.operation.moved_turnChange call.now h.conversation turn).startedAt with same | none | now
      · exact timely.claimed entry old notResumed turn found time (same ▸ started)
      · rw [none] at started
        cases started
      · rw [now] at started
        cases started
        exact (timely.past entry old).trans inOrder
    · obtain ⟨at_now, turn, found, _, startedNow⟩ := entered_spec new
      rw [after found] at found'
      cases found'
      rw [startedNow notResumed] at started
      cases started
      exact at_now.le
  · intro entry member turn' found' terminal time completed
    rcases List.mem_append.mp member with old | new
    · obtain ⟨turn, found⟩ := timely.stored entry old
      rw [after found] at found'
      cases found'
      rcases (call.operation.moved_turnChange call.now h.conversation turn).ends terminal with
        ⟨was, same⟩ | now
      · exact timely.ended entry old turn found was time (same ▸ completed)
      · rw [now] at completed
        cases completed
        exact (timely.past entry old).trans inOrder
    · obtain ⟨_, turn, found, running, _⟩ := entered_spec new
      rw [after found] at found'
      cases found'
      rw [running] at terminal
      cases terminal

theorem recoverClaim_moves (now : Time) (run : Option AgentRun) {turn : QueuedTurn}
    (claimed : turn.status.isClaimed) : (recoverClaim now run turn).status ≠ turn.status := by
  intro same
  have inactive := not_active_recoverClaim now run turn
  rw [same, TurnStatus.isActive_of_isClaimed claimed] at inactive
  cases inactive

theorem respectsGrace_iff {h : History} (timely : h.Timely) (call : Call) :
    h.RespectsGrace call ↔ h.ResumesKept call := by
  obtain ⟨now, operation⟩ := call
  have status_after {requestId : String} {turn : QueuedTurn}
      (found : h.conversation.turns.find? requestId = some turn) :
      (DeepSpace.step h.conversation ⟨now, operation⟩).turnStatus requestId =
          h.conversation.turnStatus requestId ↔
        (operation.turnChange now h.conversation turn).status = turn.status := by
    have after : (DeepSpace.step h.conversation ⟨now, operation⟩).turns.find? requestId =
        some (operation.turnChange now h.conversation turn) := operation.find?_apply now found
    simp [Conversation.turnStatus, found, after]
  cases operation with
  | recoverStaleRuns staleAfter =>
    refine iff_of_true ?_ trivial
    intro grace isGrace entry member within
    cases isGrace
    obtain ⟨turn, found⟩ := timely.stored entry member
    obtain ⟨stored, key⟩ := Table.find?_eq_some_iff.mp found
    rw [status_after found]
    cases target : h.conversation.isRecoveryTarget (now - staleAfter) turn.clientRequestId with
    | false => rw [Operation.turnChange_recoverStaleRuns_of_not_target now staleAfter _ target]
    | true =>
      -- an ended turn ended after every time it started to run, so the cutoff is too late
      obtain ⟨terminal, old⟩ := Conversation.ended_of_isRecoveryTarget stored target
      obtain ⟨time, completed⟩ : ∃ time, turn.completedAt = some time := by
        cases completed : turn.completedAt with
        | none => simp [completed] at old
        | some time => exact ⟨time, rfl⟩
      have started := timely.ended entry member turn found terminal time completed
      rw [completed, not_before_of_within started within] at old
      cases old
  | recoverClaims staleAfter =>
    constructor
    · intro respects idle entry member _ within
      obtain ⟨turn, found⟩ := timely.stored entry member
      rw [found, Option.any_some, ← Bool.not_eq_true]
      intro stale
      have same := (status_after found).mp (respects staleAfter rfl entry member within)
      simp only [Operation.turnChange, idle, stale, and_self, if_true] at same
      simp only [staleClaim, Bool.and_eq_true] at stale
      exact recoverClaim_moves now _ stale.1 same
    · intro kept grace isGrace entry member within
      cases isGrace
      obtain ⟨turn, found⟩ := timely.stored entry member
      rw [status_after found]
      simp only [Operation.turnChange]
      split
      · rename_i taken
        obtain ⟨idle, stale⟩ := taken
        cases resumed : entry.resumed with
        | true =>
          have left := kept idle entry member resumed within
          rw [found, Option.any_some, stale] at left
          cases left
        | false =>
          -- a claim sets the start time, so a stale claim entered before the cutoff
          simp only [staleClaim, Bool.and_eq_true] at stale
          obtain ⟨time, started⟩ : ∃ time, turn.startedAt = some time := by
            cases started : turn.startedAt with
            | none => simp [started] at stale
            | some time => exact ⟨time, rfl⟩
          have entered := timely.claimed entry member resumed turn found time started
          rw [started, not_before_of_within entered within] at stale
          cases stale.2
      · rfl
  | _ =>
    refine iff_of_true ?_ trivial
    intro grace isGrace
    cases isGrace

instance (h : History) (call : Call) : Decidable (h.InOrder call) :=
  inferInstanceAs (Decidable (_ ≤ _))

instance (h : History) : ∀ call : Call, Decidable (h.ResumesKept call)
  | ⟨_, operation⟩ => by
    unfold ResumesKept
    cases operation <;> infer_instance

instance (h : History) (call : Call) : Decidable (h.RespectsGrace call) := by
  unfold RespectsGrace
  cases call.operation.graceOf with
  | none => exact .isTrue nofun
  | some grace => exact decidable_of_iff (∀ entry ∈ h.entries, call.now < entry.time + grace →
      (DeepSpace.step h.conversation call).turnStatus entry.requestId =
        h.conversation.turnStatus entry.requestId) (by simp)

/-- In every history with times that do not run backwards, recovery leaves every turn alone for
its grace period exactly when it never meets, with no run active, a turn that was resumed within
the grace period and claimed before it. -/
theorem grace_respected_iff (clock : Time) (calls : List Call)
    (inOrder : Guarded InOrder step (start clock) calls) :
    Guarded RespectsGrace step (start clock) calls ↔
      Guarded ResumesKept step (start clock) calls :=
  guarded_iff_of_guarded (fun _ _ timely inOrder => timely_step timely inOrder)
    (fun _ call timely _ => respectsGrace_iff timely call) (timely_start clock) inOrder

/-- A claim, a recovery within the grace period, a short pause and another recovery. -/
def shortPause : List Call :=
  [ ⟨0, .enqueue (.plain "a" "go" false)⟩
  , ⟨0, .claim⟩
  , ⟨300000000, .recoverClaims staleDispatchAfter⟩
  , ⟨360000000, .finish "a" "awaiting_user" none⟩
  , ⟨420000000, .resumePaused⟩
  , ⟨480000000, .recoverStaleRuns staleDispatchAfter⟩
  , ⟨480000000, .recoverClaims staleDispatchAfter⟩ ]

theorem short_pause_respects_grace : Guarded RespectsGrace step (start 0) shortPause :=
  (grace_respected_iff 0 shortPause (by decide)).mpr (by decide)

/-- An approval that is denied after the grace period: the turn is resumed, its run is already
`blocked`, and the first poll takes the old start time for a stale claim. -/
def deniedApproval : List Call :=
  [ ⟨0, .enqueue (.plain "a" "go" false)⟩
  , ⟨0, .claim⟩
  , ⟨1, .saveMessage ⟨1, .assistant, ⟨some "a", some "streaming", true, none, none⟩⟩⟩
  , ⟨1, .createRun 7 1 none true⟩
  , ⟨2, .updateCheckpoint 7 (some .awaitingApproval)
      (some { Checkpoint.empty with
        pendingApproval := some ⟨"approve", none, none⟩ }) none true⟩
  , ⟨3, .finish "a" "awaiting_approval" none⟩
  , ⟨staleDispatchAfter + 1, .resolveApproval "approve" .denied⟩
  , ⟨staleDispatchAfter + 1, .resumePaused⟩
  , ⟨staleDispatchAfter + 2, .recoverClaims staleDispatchAfter⟩ ]

theorem denied_approval_breaks_grace :
    ¬ ∀ (clock : Time) (calls : List Call), Guarded InOrder step (start clock) calls →
      Guarded RespectsGrace step (start clock) calls := by
  intro respected
  have broken : ¬ Guarded RespectsGrace step (start 0) deniedApproval := by decide
  exact broken (respected 0 deniedApproval (by decide))

end History

end AverQel.DeepSpace
