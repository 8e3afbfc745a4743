/- digest: Turns are numbered as they are created and dispatched as the queue lists them. -/
import AverQel.DeepSpace.Capacity
import AverQel.DeepSpace.Outcomes
import AverQel.DeepSpace.Workers
import AverQel.Foundation.Ranking

namespace AverQel.DeepSpace

open Foundation (Table Ranked maxBy le_foldl_max)
open Foundation.Transition

/-- One turn taken from the queue and ended. -/
structure Round where
  (claimedAt finishedAt : Time)
  status : String
  error : Option String
  deriving DecidableEq, Repr

def Round.Ends (round : Round) : Prop := (finishStatus round.status).isTerminal

instance (round : Round) : Decidable round.Ends := inferInstanceAs (Decidable (_ = true))

namespace Conversation

/-- What `claim_next` returns. -/
def claimed (now : Time) (c : Conversation) : Option QueuedTurn :=
  ((c.recoverStaleClaims now staleDispatchAfter).resumeAfterFailure).claimable

/-- The turns that a series of `claim_next` and `finish` dispatches. -/
def dispatch : List Round → Conversation → List QueuedTurn
  | [], _ => []
  | round :: rounds, c =>
    match c.claimed round.claimedAt with
    | none => dispatch rounds (c.claimNext round.claimedAt)
    | some turn => turn :: dispatch rounds
        ((c.claimNext round.claimedAt).finish round.finishedAt turn.clientRequestId round.status
          round.error)

/-- The queued turns as `list_open` shows them. -/
def shownQueue (now : Time) (c : Conversation) : List QueuedTurn :=
  (c.listOpen now).2.filter (fun turn => turn.status = .queued)

def Numbered (c : Conversation) : Prop :=
  c.turns.rows.Pairwise (fun a b => a.sequence < b.sequence)

structure Idle (c : Conversation) : Prop where
  unpaused : c.queuePaused = false
  no_run : c.hasActiveRun = false
  no_turn : ∀ turn ∈ c.turns.rows, turn.status.isActive = false

end Conversation

theorem Operation.sequence_turnChange (now : Time) (c : Conversation) (op : Operation)
    (turn : QueuedTurn) : (op.turnChange now c turn).sequence = turn.sequence :=
  (op.moved_turnChange now c turn).sequence

namespace Conversation

theorem sequence_lt_nextSequence {c : Conversation} {turn : QueuedTurn}
    (member : turn ∈ c.turns.rows) : turn.sequence < c.nextSequence := by
  have bound := (le_foldl_max (c.turns.rows.map QueuedTurn.sequence) 0).2 turn.sequence
    (List.mem_map_of_mem member)
  unfold nextSequence
  omega

theorem numbered_step {c : Conversation} (numbered : c.Numbered) (call : Call) :
    (step c call).Numbered := by
  obtain ⟨added, rows, new⟩ := call.operation.rowsStep call.now c
  have stored : (step c call).turns.rows = _ := rows
  have old : (c.turns.rows.map (call.operation.turnChange call.now c)).Pairwise
      (fun a b => a.sequence < b.sequence) := by
    rw [List.pairwise_map]
    simp only [Operation.sequence_turnChange]
    exact numbered
  unfold Numbered
  rw [stored, List.pairwise_append]
  refine ⟨old, ?_, ?_⟩
  · cases added with
    | none => exact List.Pairwise.nil
    | some turn => exact List.pairwise_singleton _ turn
  · intro a memberA b memberB
    obtain ⟨before, member, rfl⟩ := List.mem_map.mp memberA
    have fresh := new b (Option.mem_toList.mp memberB)
    rw [Operation.sequence_turnChange, fresh.sequence]
    exact sequence_lt_nextSequence member

theorem numbered_run (calls : List Call) : (run step .empty calls).Numbered := by
  have start : Conversation.empty.Numbered := List.Pairwise.nil
  exact run_of_keeps (I := Numbered) (fun _ call held => numbered_step held call) start calls

theorem sequence_inj {c : Conversation} (numbered : c.Numbered) {a b : QueuedTurn}
    (memberA : a ∈ c.turns.rows) (memberB : b ∈ c.turns.rows) (same : a.sequence = b.sequence) :
    a = b := by
  have distinct : (c.turns.rows.map QueuedTurn.sequence).Nodup := by
    rw [List.Nodup, List.pairwise_map]
    exact numbered.imp fun below => Nat.ne_of_lt below
  exact List.inj_on_of_nodup_map distinct memberA memberB same

def queuedTurns (c : Conversation) : List QueuedTurn :=
  c.turns.rows.filter (fun turn => turn.status = .queued)

theorem mem_queuedTurns {c : Conversation} {turn : QueuedTurn} :
    turn ∈ c.queuedTurns ↔ turn ∈ c.turns.rows ∧ turn.status = .queued := by
  simp [queuedTurns]

theorem dispatchKey_lt_of_listKey_le {a b : QueuedTurn} (queuedA : a.status = .queued)
    (queuedB : b.status = .queued) (below : listKey a ≤ listKey b) (other : a.sequence ≠ b.sequence) :
    dispatchKey b < dispatchKey a := by
  simp only [listKey, queuedA, queuedB, Prod.Lex.toLex_le_toLex, lt_irrefl, false_or, true_and,
    OrderDual.toDual_lt_toDual, OrderDual.toDual_inj] at below
  simp only [dispatchKey, Prod.Lex.toLex_lt_toLex, OrderDual.toDual_lt_toDual]
  rcases below with higher | ⟨same, earlier⟩
  · exact .inl higher
  · exact .inr ⟨same.symm, lt_of_le_of_ne earlier other⟩

/-- `list_open` shows the queued turns in the order of their dispatch. -/
theorem ranked_listedTurns {c : Conversation} (numbered : c.Numbered) :
    Ranked dispatchKey c.queuedTurns
      (c.listedTurns.filter (fun turn => turn.status = .queued)) := by
  let rows := (c.turns.rows.filter (fun turn =>
    turn.status.isVisible || turn.status = .completed)).insertionSort (listKey · ≤ listKey ·)
  have stored (turn : QueuedTurn) (member : turn ∈ rows) : turn ∈ c.turns.rows :=
    (List.mem_filter.mp ((List.mem_insertionSort _).mp member)).1
  have nodup : rows.Nodup := by
    refine (List.perm_insertionSort _ _).nodup_iff.mpr ?_
    exact (List.Nodup.of_map _ c.turns.keys_nodup).filter _
  have sorted : rows.Pairwise (fun a b => listKey a ≤ listKey b) :=
    List.pairwise_insertionSort (fun a b => listKey a ≤ listKey b) _
  have numberedRows : rows.Pairwise (fun a b => listKey a ≤ listKey b ∧ a.sequence ≠ b.sequence) := by
    refine (sorted.and nodup).imp_of_mem ?_
    intro a b memberA memberB order
    refine ⟨order.1, ?_⟩
    intro same
    exact order.2 (sequence_inj numbered (stored a memberA) (stored b memberB) same)
  refine ⟨?_, ?_⟩
  · refine ((numberedRows.filter _).filter _).imp_of_mem ?_
    intro a b memberA memberB order
    have queuedA : a.status = .queued := by simpa using (List.mem_filter.mp memberA).2
    have queuedB : b.status = .queued := by simpa using (List.mem_filter.mp memberB).2
    exact dispatchKey_lt_of_listKey_le queuedA queuedB order.1 order.2
  · intro turn
    simp only [listedTurns, List.mem_filter, List.mem_insertionSort, mem_queuedTurns]
    constructor
    · rintro ⟨⟨⟨member, _⟩, _⟩, queued⟩
      exact ⟨member, by simpa using queued⟩
    · rintro ⟨member, queued⟩
      simp [member, queued, TurnStatus.isVisible]

theorem recoverStaleClaims_of_idle {c : Conversation} (idle : c.Idle) (now staleAfter : Time) :
    c.recoverStaleClaims now staleAfter = c := by
  have noStale : c.staleRuns (now - staleAfter) = [] := by
    refine List.filter_eq_nil_iff.mpr ?_
    intro run member expired
    have active := RunStatus_isActive_of_leaseExpired expired
    have inactive := List.any_eq_false.mp idle.no_run run member
    exact inactive active
  have unclaimed (turn : QueuedTurn) (member : turn ∈ c.turns.rows) :
      staleClaim (now - staleAfter) turn = false := by
    have inactive := idle.no_turn turn member
    unfold staleClaim
    cases claimed : turn.status.isClaimed with
    | false => rfl
    | true =>
      rw [TurnStatus.isActive_of_isClaimed claimed] at inactive
      cases inactive
  have first : (c.recoverStaleRunsForTerminalTurns now (now - staleAfter)).closeStreams now
      (c.interruptedRuns (now - staleAfter)) = c := by
    unfold recoverStaleRunsForTerminalTurns interruptedRuns
    rw [noStale]
    rfl
  have second : c.recoverClaims now (now - staleAfter) = c := by
    unfold recoverClaims
    rw [idle.no_run]
    refine congrArg (fun turns => { c with turns := turns }) (Table.mapRows_eq_self ?_)
    intro turn member
    rw [unclaimed turn member]
    rfl
  have third : c.expiredRuns (now - staleAfter) = [] := by
    have noClaim : c.turns.rows.filter (staleClaim (now - staleAfter)) = [] := by
      refine List.filter_eq_nil_iff.mpr ?_
      intro turn member stale
      rw [unclaimed turn member] at stale
      cases stale
    unfold expiredRuns
    rw [idle.no_run, noClaim]
    rfl
  unfold recoverStaleClaims
  simp only [first, second, third]
  rfl

theorem resumeAfterFailure_of_unpaused {c : Conversation} (unpaused : c.queuePaused = false) :
    c.resumeAfterFailure = c := by
  unfold queuePaused at unpaused
  unfold resumeAfterFailure
  cases found : c.control with
  | none => rfl
  | some =>
    rw [found] at unpaused
    dsimp only at unpaused ⊢
    rw [unpaused]
    rfl

theorem claimable_of_idle {c : Conversation} (idle : c.Idle) :
    c.claimable = maxBy dispatchKey c.queuedTurns := by
  have inactive : c.turns.rows.any (fun turn => turn.status.isActive) = false := by
    refine List.any_eq_false.mpr ?_
    intro turn member
    rw [idle.no_turn turn member]
    exact Bool.false_ne_true
  unfold claimable
  rw [idle.unpaused, inactive, idle.no_run]
  rfl

theorem claimed_of_idle {c : Conversation} (idle : c.Idle) (now : Time) :
    c.claimed now = maxBy dispatchKey c.queuedTurns := by
  unfold claimed
  rw [recoverStaleClaims_of_idle idle, resumeAfterFailure_of_unpaused idle.unpaused]
  exact claimable_of_idle idle

theorem claimNext_of_idle {c : Conversation} (idle : c.Idle) (now : Time) :
    c.claimNext now = c.claim now := by
  unfold claimNext
  rw [recoverStaleClaims_of_idle idle, resumeAfterFailure_of_unpaused idle.unpaused]

def endedRow (round : Round) (row : QueuedTurn) : QueuedTurn :=
  finishTurn round.finishedAt (finishStatus round.status) round.error
    { row with status := .running, startedAt := some round.claimedAt }

def endRound (round : Round) (turn : QueuedTurn) (c : Conversation) : Conversation :=
  (c.claimNext round.claimedAt).finish round.finishedAt turn.clientRequestId round.status
    round.error

theorem endRound_frame {c : Conversation} (idle : c.Idle) (round : Round) (turn : QueuedTurn)
    (chosen : c.claimed round.claimedAt = some turn) :
    (c.endRound round turn).control = c.control ∧ (c.endRound round turn).runs = c.runs ∧
      (c.endRound round turn).turns.rows = c.turns.rows.map (fun row =>
        if row.clientRequestId = turn.clientRequestId then endedRow round row else row) := by
  rw [claimed_of_idle idle, ← claimable_of_idle idle] at chosen
  unfold endRound
  rw [claimNext_of_idle idle]
  unfold claim
  rw [chosen]
  refine ⟨rfl, rfl, ?_⟩
  dsimp only [finish, modifyTurn, Table.modify, Table.mapRows]
  rw [List.map_map]
  refine List.map_congr_left ?_
  intro row _
  by_cases same : row.clientRequestId = turn.clientRequestId
  · simp [same, endedRow]
  · simp [same]

theorem idle_endRound {c : Conversation} (idle : c.Idle) {round : Round} (ends : round.Ends)
    {turn : QueuedTurn} (chosen : c.claimed round.claimedAt = some turn) :
    (c.endRound round turn).Idle ∧ ∀ row, row ∈ (c.endRound round turn).queuedTurns ↔
      row ∈ c.queuedTurns ∧ row ≠ turn := by
  obtain ⟨control, runs, rows⟩ := endRound_frame idle round turn chosen
  have member : turn ∈ c.turns.rows := by
    rw [claimed_of_idle idle] at chosen
    exact (mem_queuedTurns.mp (Foundation.mem_of_maxBy chosen)).1
  have ended (row : QueuedTurn) : (endedRow round row).status.isTerminal := ends
  refine ⟨⟨?_, ?_, ?_⟩, ?_⟩
  · unfold queuePaused
    rw [control]
    exact idle.unpaused
  · unfold hasActiveRun
    rw [runs]
    exact idle.no_run
  · intro row stored
    rw [rows] at stored
    obtain ⟨before, old, rfl⟩ := List.mem_map.mp stored
    split
    · exact TurnStatus.not_isActive_of_isTerminal (ended before)
    · exact idle.no_turn before old
  · intro row
    rw [mem_queuedTurns, mem_queuedTurns, rows]
    constructor
    · rintro ⟨stored, queued⟩
      obtain ⟨before, old, rfl⟩ := List.mem_map.mp stored
      split at queued
      · have terminal := ended before
        rw [queued] at terminal
        cases terminal
      · rename_i other
        rw [if_neg other]
        refine ⟨⟨old, queued⟩, ?_⟩
        rintro rfl
        exact other rfl
    · rintro ⟨⟨stored, queued⟩, other⟩
      refine ⟨List.mem_map.mpr ⟨row, stored, if_neg ?_⟩, queued⟩
      intro same
      exact other (c.turns.eq_of_key_eq stored member same)

theorem dispatch_eq_take {rounds : List Round} (ends : ∀ round ∈ rounds, round.Ends)
    {c : Conversation} (idle : c.Idle) {order : List QueuedTurn}
    (ranked : Ranked dispatchKey c.queuedTurns order) :
    c.dispatch rounds = order.take rounds.length := by
  induction rounds generalizing c order with
  | nil => rfl
  | cons round rounds ih =>
    have later : ∀ round ∈ rounds, round.Ends :=
      fun other member => ends other (List.mem_cons_of_mem round member)
    cases order with
    | nil =>
      have chosen : c.claimed round.claimedAt = none := by
        rw [claimed_of_idle idle]
        exact ranked.maxBy_nil
      have same : c.claimNext round.claimedAt = c := by
        rw [claimed_of_idle idle, ← claimable_of_idle idle] at chosen
        rw [claimNext_of_idle idle, claim, chosen]
      unfold dispatch
      rw [chosen, same, List.take_nil]
      dsimp only
      rw [ih later idle ranked, List.take_nil]
    | cons turn =>
      have chosen : c.claimed round.claimedAt = some turn := by
        rw [claimed_of_idle idle]
        exact ranked.maxBy_cons
      obtain ⟨next, queue⟩ := idle_endRound idle (ends round List.mem_cons_self) chosen
      have rest := ih later next (ranked.tail queue)
      unfold dispatch
      rw [chosen, List.length_cons, List.take_succ_cons, ← rest]
      rfl

theorem ranked_shownQueue {c : Conversation} (numbered : c.Numbered) (idle : c.Idle) (now : Time) :
    Ranked dispatchKey c.queuedTurns (c.shownQueue now) := by
  unfold shownQueue listOpen
  rw [recoverStaleClaims_of_idle idle]
  exact ranked_listedTurns numbered

theorem filter_shownQueue {c : Conversation} (numbered : c.Numbered) (idle : c.Idle) (now : Time)
    (priority : Nat) : (c.shownQueue now).filter (fun turn => turn.priority = priority) =
      c.queuedTurns.filter (fun turn => turn.priority = priority) := by
  have ranked := ranked_shownQueue numbered idle now
  let age (turn : QueuedTurn) : ℕᵒᵈ := OrderDual.toDual turn.sequence
  have shown : Ranked age (c.queuedTurns.filter (fun turn => turn.priority = priority))
      ((c.shownQueue now).filter (fun turn => turn.priority = priority)) := by
    refine ⟨(ranked.strict.filter _).imp_of_mem ?_, ?_⟩
    · intro a b memberA memberB below
      have samePriority : b.priority = a.priority := by
        have ofA := (List.mem_filter.mp memberA).2
        have ofB := (List.mem_filter.mp memberB).2
        rw [decide_eq_true_eq] at ofA ofB
        rw [ofA, ofB]
      simp only [dispatchKey, Prod.Lex.toLex_lt_toLex, samePriority, lt_irrefl, false_or,
        true_and] at below
      exact below
    · intro turn
      rw [List.mem_filter, List.mem_filter, ranked.mem_iff]
  have created : Ranked age (c.queuedTurns.filter (fun turn => turn.priority = priority))
      (c.queuedTurns.filter (fun turn => turn.priority = priority)) := by
    refine ⟨((List.Pairwise.filter _ numbered).filter _).imp ?_, fun _ => Iff.rfl⟩
    intro a b earlier
    exact earlier
  exact shown.unique created

theorem priority_le_top {c : Conversation} {turn : QueuedTurn} (queued : turn ∈ c.queuedTurns) :
    turn.priority ≤ (c.queuedTurns.map QueuedTurn.priority).foldl max 0 :=
  (le_foldl_max _ 0).2 turn.priority (List.mem_map_of_mem queued)

theorem head_dispatch_promote {c : Conversation} (numbered : c.Numbered) (idle : c.Idle)
    {requestId : String} (waiting : c.turnStatus requestId = some .queued) {round : Round}
    {rounds : List Round} (ends : ∀ each ∈ round :: rounds, each.Ends) :
    ((c.promote requestId).dispatch (round :: rounds)).head?.map QueuedTurn.clientRequestId =
      some requestId := by
  obtain ⟨turn, found, queued⟩ := Option.map_eq_some_iff.mp waiting
  obtain ⟨member, rfl⟩ := Table.find?_eq_some_iff.mp found
  let top := (c.queuedTurns.map QueuedTurn.priority).foldl max 0
  let raised (row : QueuedTurn) : QueuedTurn := { row with priority := top + 1 }
  have promoted : c.promote turn.clientRequestId =
      c.modifyTurn turn.clientRequestId raised (fun _ => rfl) := by
    unfold promote
    rw [found, Option.filter_some, if_pos (by simpa using queued)]
    rfl
  have rows : (c.promote turn.clientRequestId).turns.rows = c.turns.rows.map (fun row =>
      if row.clientRequestId = turn.clientRequestId then raised row else row) := by
    rw [promoted]
    rfl
  have idleAfter : (c.promote turn.clientRequestId).Idle := by
    refine ⟨?_, ?_, ?_⟩
    · rw [promoted]
      exact idle.unpaused
    · rw [promoted]
      exact idle.no_run
    · intro row stored
      rw [rows] at stored
      obtain ⟨before, old, rfl⟩ := List.mem_map.mp stored
      split <;> exact idle.no_turn before old
  have ranked := ranked_shownQueue (numbered_step numbered ⟨0, .promote turn.clientRequestId⟩)
    idleAfter 0
  have first : raised turn ∈ (c.promote turn.clientRequestId).queuedTurns := by
    rw [mem_queuedTurns, rows]
    exact ⟨List.mem_map.mpr ⟨turn, member, if_pos rfl⟩, queued⟩
  rw [dispatch_eq_take ends idleAfter ranked]
  change Ranked dispatchKey (c.promote turn.clientRequestId).queuedTurns
    ((c.promote turn.clientRequestId).shownQueue 0) at ranked
  change Option.map _ (((c.promote turn.clientRequestId).shownQueue 0).take _).head? = _
  have listed := (ranked.mem_iff _).mpr first
  cases order : (c.promote turn.clientRequestId).shownQueue 0 with
  | nil =>
    rw [order] at listed
    exact absurd listed List.not_mem_nil
  | cons head rest =>
    rw [order] at ranked listed
    have isFirst : head = raised turn := by
      by_contra other
      have later : raised turn ∈ rest :=
        (List.mem_cons.mp listed).resolve_left (fun same => other same.symm)
      have below := (List.pairwise_cons.mp ranked.strict).1 (raised turn) later
      obtain ⟨stored, waits⟩ := mem_queuedTurns.mp ((ranked.mem_iff head).mp List.mem_cons_self)
      rw [rows] at stored
      obtain ⟨before, old, same⟩ := List.mem_map.mp stored
      by_cases key : before.clientRequestId = turn.clientRequestId
      · rw [if_pos key, c.turns.eq_of_key_eq old member key] at same
        exact other same.symm
      · rw [if_neg key] at same
        have bound := priority_le_top (mem_queuedTurns.mpr ⟨old, same ▸ waits⟩)
        rw [same] at bound
        simp only [dispatchKey, Prod.Lex.toLex_lt_toLex, raised, top] at below
        omega
    rw [isFirst, List.length_cons, List.take_succ_cons, List.head?_cons]
    rfl

end Conversation

/-- In every reachable conversation the turns are numbered as they were created, and while nothing
runs, claiming and ending turns dispatches the queued ones once each as they are listed: among
turns of one priority the older first, and a promoted turn before all others. -/
theorem dispatched_as_listed (calls : List Call) :
    let c := run step .empty calls
    c.Numbered ∧ (c.Idle → ∀ (now : Time) (rounds : List Round), (∀ round ∈ rounds, round.Ends) →
      c.dispatch rounds = (c.shownQueue now).take rounds.length ∧
      (c.shownQueue now).Nodup ∧
      (∀ turn, turn ∈ c.shownQueue now ↔ turn ∈ c.turns.rows ∧ turn.status = .queued) ∧
      (∀ priority, (c.shownQueue now).filter (fun turn => turn.priority = priority) =
        c.queuedTurns.filter (fun turn => turn.priority = priority)) ∧
      ∀ requestId, c.turnStatus requestId = some .queued → rounds ≠ [] →
        ((c.promote requestId).dispatch rounds).head?.map QueuedTurn.clientRequestId =
          some requestId) := by
  intro c
  have numbered : c.Numbered := Conversation.numbered_run calls
  refine ⟨numbered, ?_⟩
  intro idle now rounds ends
  have ranked := Conversation.ranked_shownQueue numbered idle now
  refine ⟨Conversation.dispatch_eq_take ends idle ranked, ranked.nodup, ?_,
    Conversation.filter_shownQueue numbered idle now, ?_⟩
  · intro turn
    rw [ranked.mem_iff, Conversation.mem_queuedTurns]
  · intro requestId waiting some_round
    obtain ⟨round, rest, rfl⟩ := List.exists_cons_of_ne_nil some_round
    exact Conversation.head_dispatch_promote numbered idle waiting ends

def mixedQueue : List Call :=
  [ ⟨0, .enqueue (.plain "a" "go" false)⟩, ⟨1, .enqueue (.plain "b" "go" false)⟩
  , ⟨2, .enqueue (.plain "c" "go" true)⟩, ⟨3, .finish "a" "failed" none⟩
  , ⟨4, .retryFailed "a" "d" true⟩, ⟨5, .enqueue (.plain "e" "go" false)⟩ ]

def twoRounds : List Round := [⟨6, 7, "completed", none⟩, ⟨8, 9, "cancelled", none⟩]

theorem mixed_queue_dispatched : (run step .empty mixedQueue).dispatch twoRounds =
    ((run step .empty mixedQueue).shownQueue 6).take 2 :=
  ((dispatched_as_listed mixedQueue).2 ⟨by decide, by decide, by decide⟩ 6 twoRounds
    (by decide)).1

example : ((run step .empty mixedQueue).dispatch twoRounds).map QueuedTurn.clientRequestId =
    ["c", "d"] := by decide +kernel

/-- A turn that waits for the user holds back the queue, though no run is active. -/
theorem awaiting_turn_blocks_dispatch :
    ¬ ∀ (calls : List Call) (now : Time) (rounds : List Round),
      let c := run step .empty calls
      c.queuePaused = false → c.hasActiveRun = false →
      c.staleRuns (now - staleDispatchAfter) = [] →
      (∀ turn ∈ c.turns.rows, staleClaim (now - staleDispatchAfter) turn = false) →
      (∀ round ∈ rounds, round.Ends) →
        c.dispatch rounds = (c.shownQueue now).take rounds.length := by
  intro dispatches
  have empty := dispatches
    [ ⟨0, .enqueue (.plain "a" "go" false)⟩, ⟨1, .enqueue (.plain "b" "go" false)⟩
    , ⟨2, .finish "a" "awaiting_user" none⟩ ]
    3 [⟨3, 4, "completed", none⟩] (by decide) (by decide) (by decide) (by decide) (by decide)
  revert empty
  decide +kernel

end AverQel.DeepSpace
