/- digest: The methods of the turn queue lock by lock, and what a pause of the user keeps back. -/
import AverQel.DeepSpace.Operations
import AverQel.Foundation.Interleaving

namespace AverQel.DeepSpace

open Foundation Transition
open Foundation.Interleaving

namespace Operation

/-- The transactions that begin with `_conversation_for_update`. -/
def locksConversation : Operation → Bool
  | enqueue .. | updateQueuedPrompt .. | retryFailed .. | pause .. | resume | resumePaused => true
  | _ => false

/-- The transactions that are a method of their own. The others are parts of `claim_next`,
`recover_stale_claims` and `resume_after_failure`. -/
def isWhole : Operation → Bool
  | resumeAfterFailure | recoverStaleRuns .. | closeStream .. | recoverClaims .. | claim => false
  | _ => true

def isUserPause : Operation → Bool
  | pause _ none => true
  | _ => false

def liftsPause : Operation → Bool
  | resume | clearForConversation | pause _ (some _) => true
  | _ => false

def writesControl : Operation → Bool
  | pause .. | resume | resumeAfterFailure | clearForConversation => true
  | _ => false

end Operation

structure WholeOperation where
  operation : Operation
  whole : operation.isWhole = true

/-- The methods that start with `recover_stale_claims`. -/
inductive Recovery where
  | recoverStaleClaims
  | listOpen
  | claimNext
  deriving DecidableEq, Repr

inductive QueueRequest where
  | transaction (op : WholeOperation)
  | recovery (caller : Recovery) (staleAfter : Time)
  | resumeAfterFailure

/-- How far a call has come. `locked`, `repairLocked` and everything from `claimLocked` to
`leaving` hold the conversation row. -/
inductive QueueCall where
  | transaction (op : WholeOperation)
  | locked (op : WholeOperation)
  | recovering (caller : Recovery) (staleAfter : Time)
  | closingRuns (caller : Recovery) (cutoff : Time) (pairs : List (String × Uuid))
  | closingClaims (caller : Recovery) (pairs : List (String × Uuid))
  | repairing (claims : Bool)
  | repairWaiting (claims : Bool)
  | repairLocked (claims : Bool)
  | claimWaiting
  | claimLocked
  | notPaused
  | noActiveTurn
  | noActiveRun
  | leaving
  | returned

namespace QueueCall

def holdsConversation : QueueCall → Bool
  | locked _ | repairLocked _ | claimLocked | notPaused | noActiveTurn | noActiveRun | leaving =>
    true
  | transaction _ | recovering .. | closingRuns .. | closingClaims .. | repairing _
  | repairWaiting _ | claimWaiting | returned => false

def pastPausedCheck : QueueCall → Bool
  | notPaused | noActiveTurn | noActiveRun => true
  | transaction _ | locked _ | recovering .. | closingRuns .. | closingClaims .. | repairing _
  | repairWaiting _ | repairLocked _ | claimWaiting | claimLocked | leaving | returned => false

def commits : QueueCall → Option Operation
  | transaction op => if op.operation.locksConversation then none else some op.operation
  | locked op => some op.operation
  | _ => none

def ofRequest : QueueRequest → QueueCall
  | .transaction op => transaction op
  | .recovery caller staleAfter => recovering caller staleAfter
  | .resumeAfterFailure => repairing false

/-- What follows `recover_stale_claims`. -/
def afterRecovery : Recovery → QueueCall
  | .recoverStaleClaims | .listOpen => returned
  | .claimNext => repairing true

/-- What follows a `resume_after_failure` that holds no lock. -/
def afterRepair (claims : Bool) : QueueCall :=
  if claims then claimWaiting else returned

end QueueCall

structure Tick where
  now : Time
  heldRuns : List Uuid
  heldTurns : List String

namespace Conversation

/-- The condition that `resume_after_failure` checks without a lock, and again under it. -/
def failurePaused (c : Conversation) : Bool :=
  match c.control with
  | none => false
  | some control => control.paused && control.failedRequestId.isSome

def UserPaused (c : Conversation) : Prop :=
  ∃ control, c.control = some control ∧ control.paused = true ∧ control.failedRequestId = none

/-- The runs that `_recover_stale_runs_for_terminal_turns` locks, with their turns. -/
def lockableRuns (tick : Tick) (cutoff : Time) (c : Conversation) : List AgentRun :=
  (c.staleRuns cutoff).filter (fun run =>
    run.id ∉ tick.heldRuns && (c.recoveryTarget cutoff run).all (· ∉ tick.heldTurns))

/-- The turn that `claim_next` selects with `skip_locked`. -/
def nextUnlocked (tick : Tick) (c : Conversation) : Option QueuedTurn :=
  maxBy dispatchKey (c.turns.rows.filter (fun turn =>
    turn.status = .queued && turn.clientRequestId ∉ tick.heldTurns))

end Conversation

/-- The rows, and the turns that `claim_next` has returned. -/
structure Queue where
  conversation : Conversation
  claimed : List QueuedTurn

/-- The next step of a call, up to the next lock, read or commit. -/
def queueNext (tick : Tick) (s : Queue) : QueueCall → Queue × QueueCall
  | .transaction op =>
    if op.operation.locksConversation then (s, .locked op)
    else ({ s with conversation := op.operation.apply tick.now s.conversation }, .returned)
  | .locked op =>
    ({ s with conversation := op.operation.apply tick.now s.conversation }, .returned)
  | .recovering caller staleAfter =>
    let cutoff := tick.now - staleAfter
    let runs := s.conversation.lockableRuns tick cutoff
    let recovered := runs.foldl (Conversation.reconcileRun tick.now cutoff s.conversation)
      s.conversation
    let interrupted := runs.filterMap (fun run =>
      (s.conversation.recoveryTarget cutoff run).bind (fun requestId =>
        if (s.conversation.newestTerminalEvent requestId).isNone then some (requestId, run.id)
        else none))
    ({ s with conversation := recovered }, .closingRuns caller cutoff interrupted)
  | .closingRuns caller cutoff (pair :: pairs) =>
    ({ s with
        conversation := s.conversation.closeExpiredWorkerStream tick.now pair.1 pair.2 },
      .closingRuns caller cutoff pairs)
  | .closingRuns caller cutoff [] =>
    ({ s with conversation := s.conversation.recoverClaims tick.now cutoff },
      .closingClaims caller (s.conversation.expiredRuns cutoff))
  | .closingClaims caller (pair :: pairs) =>
    ({ s with
        conversation := s.conversation.closeExpiredWorkerStream tick.now pair.1 pair.2 },
      .closingClaims caller pairs)
  | .closingClaims caller [] => (s, .afterRecovery caller)
  | .repairing claims =>
    if s.conversation.failurePaused then (s, .repairWaiting claims) else (s, .afterRepair claims)
  | .repairWaiting claims => (s, .repairLocked claims)
  | .repairLocked claims =>
    if s.conversation.failurePaused then
      ({ s with conversation := s.conversation.resumeAfterFailure }, .afterRepair claims)
    -- `return False` commits nothing, so the session keeps the row
    else (s, if claims then .claimLocked else .leaving)
  | .claimWaiting => (s, .claimLocked)
  | .claimLocked => if s.conversation.queuePaused then (s, .leaving) else (s, .notPaused)
  | .notPaused =>
    if s.conversation.turns.rows.any (fun turn => turn.status.isActive) then (s, .leaving)
    else (s, .noActiveTurn)
  | .noActiveTurn => if s.conversation.hasActiveRun then (s, .leaving) else (s, .noActiveRun)
  | .noActiveRun =>
    match s.conversation.nextUnlocked tick with
    | none => (s, .leaving)
    | some turn =>
      ({ conversation := s.conversation.modifyTurn turn.clientRequestId
            (fun row => { row with status := .running, startedAt := some tick.now })
            (fun _ => rfl)
         claimed := s.claimed ++ [turn] },
        .returned)
  | .leaving | .returned => (s, .returned)

def bothHold (p q : QueueCall) : Bool :=
  p.holdsConversation && q.holdsConversation

def queueTurn : CallSystem Queue QueueCall → Nat × Tick → CallSystem Queue QueueCall :=
  advance bothHold queueNext

def queueStart (c : Conversation) (requests : List QueueRequest) : CallSystem Queue QueueCall :=
  ⟨⟨c, []⟩, requests.map .ofRequest⟩

def PausesQueue (s : CallSystem Queue QueueCall) (turn : Nat × Tick) : Prop :=
  ((s.calls[turn.1]?.bind QueueCall.commits).any Operation.isUserPause) = true

def KeepsPause (s : CallSystem Queue QueueCall) (turn : Nat × Tick) : Prop :=
  ((s.calls[turn.1]?.bind QueueCall.commits).any Operation.liftsPause) = false

instance (s : CallSystem Queue QueueCall) (turn : Nat × Tick) : Decidable (PausesQueue s turn) :=
  inferInstanceAs (Decidable (_ = true))

instance (s : CallSystem Queue QueueCall) (turn : Nat × Tick) : Decidable (KeepsPause s turn) :=
  inferInstanceAs (Decidable (_ = false))

variable {now : Time} {log : List QueuedTurn} {caller : Recovery} {cutoff : Time}
  {last : Queue × QueueCall}

def openTick (now : Time) : Tick := ⟨now, [], []⟩

namespace Conversation

variable {c : Conversation}

theorem UserPaused.queuePaused (paused : c.UserPaused) : c.queuePaused = true := by
  obtain ⟨control, here, on, _⟩ := paused
  simp only [Conversation.queuePaused, here, on]

theorem UserPaused.not_failurePaused (paused : c.UserPaused) : c.failurePaused = false := by
  obtain ⟨control, here, _, user⟩ := paused
  simp only [failurePaused, here, user, Option.isSome_none, Bool.and_false]

theorem UserPaused.of_control {c' : Conversation} (paused : c.UserPaused)
    (same : c'.control = c.control) : c'.UserPaused := by
  obtain ⟨control, here, rest⟩ := paused
  exact ⟨control, same.trans here, rest⟩

end Conversation

/-- The control row is written by `pause`, `resume`, `resume_after_failure` and
`clear_for_conversation` only. -/
theorem Operation.control_apply {op : Operation} (kept : op.writesControl = false) (now : Time)
    (c : Conversation) : (op.apply now c).control = c.control :=
  (frame_apply now c op).control (by cases op <;> first | rfl | cases kept)

theorem Conversation.UserPaused.apply {op : Operation} (whole : op.isWhole = true)
    (kept : op.liftsPause = false) {c : Conversation} (paused : c.UserPaused) (now : Time) :
    (op.apply now c).UserPaused := by
  cases control : op.writesControl with
  | false => exact paused.of_control (Operation.control_apply control now c)
  | true =>
    cases op with
    | pause reason failed =>
      cases failed with
      | none => exact ⟨_, rfl, rfl, rfl⟩
      | some => cases kept
    | resume | clearForConversation => cases kept
    | resumeAfterFailure => cases whole
    | _ => cases control

structure StepHeldBack (before after : Queue) (call : QueueCall) : Prop where
  paused : after.conversation.UserPaused
  unpassed : call.pastPausedCheck = false
  claimed : after.claimed = before.claimed

theorem stepHeldBack_queueNext {s : Queue} {call : QueueCall} (paused : s.conversation.UserPaused)
    (unpassed : call.pastPausedCheck = false)
    (kept : call.commits.any Operation.liftsPause = false) (tick : Tick) :
    StepHeldBack s (queueNext tick s call).1 (queueNext tick s call).2 := by
  cases call with
  | transaction op =>
    cases locks : op.operation.locksConversation with
    | true =>
      simp only [queueNext, locks, if_true]
      exact ⟨paused, rfl, rfl⟩
    | false =>
      simp only [QueueCall.commits, locks, Bool.false_eq_true, if_false, Option.any_some] at kept
      simp only [queueNext, locks, Bool.false_eq_true, if_false]
      exact ⟨paused.apply op.whole kept tick.now, rfl, rfl⟩
  | locked op => exact ⟨paused.apply op.whole kept tick.now, rfl, rfl⟩
  | recovering =>
    exact ⟨paused.of_control ((Operation.frame_recoverStaleRuns _ _ _ _ _).control rfl), rfl, rfl⟩
  | closingRuns caller cutoff pairs =>
    cases pairs with
    | nil =>
      refine ⟨paused.of_control ?_, rfl, rfl⟩
      dsimp only [queueNext, Conversation.recoverClaims]
      split <;> rfl
    | cons =>
      exact ⟨paused.of_control ((Operation.frame_apply _ _ (.closeStream _ _)).control rfl), rfl, rfl⟩
  | closingClaims caller pairs =>
    cases pairs with
    | nil => exact ⟨paused, by cases caller <;> rfl, rfl⟩
    | cons =>
      exact ⟨paused.of_control ((Operation.frame_apply _ _ (.closeStream _ _)).control rfl), rfl, rfl⟩
  | repairing claims | repairLocked claims =>
    simp only [queueNext, paused.not_failurePaused, Bool.false_eq_true, if_false]
    exact ⟨paused, by cases claims <;> rfl, rfl⟩
  | claimLocked =>
    simp only [queueNext, paused.queuePaused, if_true]
    exact ⟨paused, rfl, rfl⟩
  | repairWaiting | claimWaiting | leaving | returned => exact ⟨paused, rfl, rfl⟩
  | notPaused | noActiveTurn | noActiveRun => cases unpassed

structure HeldBack (s : CallSystem Queue QueueCall) : Prop where
  paused : s.shared.conversation.UserPaused
  unpassed : ∀ call ∈ s.calls, call.pastPausedCheck = false

theorem heldBack_queueTurn {s : CallSystem Queue QueueCall} (held : HeldBack s) {turn : Nat × Tick}
    (kept : KeepsPause s turn) :
    HeldBack (queueTurn s turn) ∧ (queueTurn s turn).shared.claimed = s.shared.claimed := by
  rcases advance_cases bothHold queueNext s turn with same | ⟨call, here, _, moved⟩
  · unfold queueTurn
    rw [same]
    exact ⟨held, rfl⟩
  · have mine := held.unpassed call (List.mem_of_getElem? here)
    unfold KeepsPause at kept
    rw [here, Option.bind_some] at kept
    obtain ⟨paused, unpassed, claimed⟩ := stepHeldBack_queueNext held.paused mine kept turn.2
    unfold queueTurn
    rw [moved]
    refine ⟨⟨paused, ?_⟩, claimed⟩
    intro other member
    rcases List.mem_or_eq_of_mem_set member with old | rfl
    · exact held.unpassed other old
    · exact unpassed

theorem exclusive_queueStart (c : Conversation) (requests : List QueueRequest) :
    (queueStart c requests).Exclusive bothHold := by
  have free {i : Nat} {call : QueueCall} (here : (requests.map .ofRequest)[i]? = some call) :
      call.holdsConversation = false := by
    obtain ⟨request, _, rfl⟩ := List.mem_map.mp (List.mem_of_getElem? here)
    cases request <;> rfl
  intro i j p q _ atI _
  simp only [bothHold, free atI, Bool.false_and]

theorem bothHold_symm (p q : QueueCall) : bothHold p q = bothHold q p := Bool.and_comm _ _

theorem holds_of_pastPausedCheck {call : QueueCall} (past : call.pastPausedCheck = true) :
    call.holdsConversation = true := by
  cases call <;> first | rfl | cases past

theorem heldBack_of_pausesQueue {s : CallSystem Queue QueueCall} (exclusive : s.Exclusive bothHold)
    {turn : Nat × Tick} (pauses : PausesQueue s turn) :
    HeldBack (queueTurn s turn) ∧ (queueTurn s turn).shared.claimed = s.shared.claimed := by
  obtain ⟨op, committed, userPause⟩ := (Option.any_eq_true _ _).mp pauses
  obtain ⟨call, here, commits⟩ := Option.bind_eq_some_iff.mp committed
  obtain ⟨whole, isLocked⟩ : ∃ whole : WholeOperation, call = .locked whole := by
    cases call with
    | transaction op' =>
      simp only [QueueCall.commits] at commits
      split at commits
      · cases commits
      · rename_i free
        cases commits
        cases shape : op'.operation with
        | pause => exact absurd (by rw [shape]; rfl) free
        | _ => rw [shape] at userPause; cases userPause
    | locked whole => exact ⟨whole, rfl⟩
    | _ => cases commits
  subst isLocked
  cases commits
  have free : s.blocked bothHold turn.1 (queueNext turn.2 s.shared (.locked whole)).2 = false := by
    simp [CallSystem.blocked, queueNext, bothHold, QueueCall.holdsConversation]
  have moved := advance_of_free bothHold queueNext here free
  have paused : (whole.operation.apply turn.2.now s.shared.conversation).UserPaused := by
    cases shape : whole.operation with
    | pause reason failed =>
      rw [shape] at userPause
      cases failed with
      | none => exact ⟨_, rfl, rfl, rfl⟩
      | some => cases userPause
    | _ => rw [shape] at userPause; cases userPause
  unfold queueTurn
  rw [moved]
  refine ⟨⟨paused, ?_⟩, rfl⟩
  intro other member
  obtain ⟨j, at_j⟩ := List.mem_iff_getElem?.mp member
  rcases (getElem?_set_iff here).mp at_j with ⟨_, rfl⟩ | ⟨distinct, old⟩
  · rfl
  · have apart := exclusive j turn.1 other (.locked whole) distinct old here
    cases past : other.pastPausedCheck with
    | false => rfl
    | true =>
      have both : bothHold other (.locked whole) = true :=
        Bool.and_eq_true_iff.mpr ⟨holds_of_pastPausedCheck past, rfl⟩
      rw [both] at apart
      cases apart

/-- After a pause of the user has committed, in any order of the steps of any calls, no
`claim_next` returns a turn before a `resume`, a `clear_for_conversation` or a pause for a failed
request commits. -/
theorem user_pause_holds {c : Conversation} {requests : List QueueRequest}
    {before after : List (Nat × Tick)} {pausing : Nat × Tick}
    (pauses : PausesQueue (run queueTurn (queueStart c requests) before) pausing)
    (kept : Guarded KeepsPause queueTurn
      (queueTurn (run queueTurn (queueStart c requests) before) pausing) after) :
    (run queueTurn (queueStart c requests) (before ++ pausing :: after)).shared.claimed =
      (run queueTurn (queueStart c requests) before).shared.claimed := by
  let reached := run queueTurn (queueStart c requests) before
  have exclusive : reached.Exclusive bothHold := by
    refine invariant_of_keeps (I := fun s => s.Exclusive bothHold) ?_
      (exclusive_queueStart c requests) before reached (run_mem_trace _ _ before)
    intro s turn held
    exact exclusive_advance bothHold queueNext bothHold_symm held turn
  obtain ⟨held, claimed⟩ := heldBack_of_pausesQueue exclusive pauses
  let paused := queueTurn reached pausing
  have all : ∀ t ∈ trace queueTurn paused after,
      HeldBack t ∧ t.shared.claimed = paused.shared.claimed := by
    refine invariant_of_guarded ?_ ⟨held, rfl⟩ kept
    intro s turn inv keeps
    obtain ⟨heldAfter, same⟩ := heldBack_queueTurn inv.1 keeps
    exact ⟨heldAfter, same.trans inv.2⟩
  have last := all (run queueTurn paused after) (run_mem_trace _ _ after)
  rw [run_append]
  exact last.2.trans claimed

def failurePausedQueue : Conversation :=
  run step .empty
    [ ⟨0, .enqueue (.plain "b" "next" false)⟩
    , ⟨1, .pause "Legacy failed-turn pause" (some "a")⟩ ]

/-- `claim_next` has found the pause for a failed request, and then the user pauses. -/
def pausedMeanwhile : List QueueRequest :=
  [.recovery .claimNext staleDispatchAfter, .transaction ⟨.pause "Queue paused by user." none, rfl⟩]

theorem pause_during_claim_holds :
    (run queueTurn (queueStart failurePausedQueue pausedMeanwhile)
      ([(0, openTick 2), (0, openTick 2), (0, openTick 2), (0, openTick 2), (1, openTick 2)] ++
        (1, openTick 2) ::
        [(0, openTick 2), (0, openTick 2), (0, openTick 2), (0, openTick 2)])).shared.claimed = [] := by
  rw [user_pause_holds (by decide +kernel) (by decide +kernel)]
  decide +kernel

/-- Without the pause the same `claim_next` returns the turn. -/
example :
    (run queueTurn (queueStart failurePausedQueue pausedMeanwhile)
      (List.replicate 11 (0, openTick 2))).shared.claimed.length = 1 := by
  decide +kernel

end AverQel.DeepSpace
