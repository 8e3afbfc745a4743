/- digest: Concurrent decisions of one approval, read, checked and committed without a lock. -/
import AverQel.DeepSpace.RunLookups
import AverQel.Foundation.Interleaving

namespace AverQel.DeepSpace

open Foundation Transition
open Foundation.Interleaving
open Conversation (Decision alreadyResolved)

def decisionStatus : Decision → RunStatus
  | .approved => .running
  | .denied => .blocked

/-- One call of `resolve_approval`: before its query, between its check and its commit with the
run that it loaded, or after its return. -/
inductive ResolveCall where
  | requested (decision : Decision)
  | checked (decision : Decision) (run : AgentRun) (pending : PendingApproval)
  | returned (decision : Decision)
  | alreadyResolved
  | notFound
  deriving DecidableEq, Repr

namespace ResolveCall

def wins : ResolveCall → Bool
  | checked .. | returned _ => true
  | requested _ | alreadyResolved | notFound => false

def isChecked : ResolveCall → Bool
  | checked .. => true
  | requested _ | returned _ | alreadyResolved | notFound => false

def isDone : ResolveCall → Bool
  | returned _ | alreadyResolved | notFound => true
  | requested _ | checked .. => false

end ResolveCall

structure Clocked where
  conversation : Conversation
  clock : Time

/-- The commit of a decision: only attributes whose value differs from the loaded one are
written. -/
def commitDecision (now : Time) (decision : Decision) (loaded : AgentRun)
    (pending : PendingApproval) (c : Conversation) : Conversation :=
  c.modifyRun loaded.id
    (fun row =>
      { row with
        checkpoint :=
          { loaded.checkpoint with
            pendingApproval := some
              { pending with decision := some decision.toString, resolvedAt := some now }
            phase := some "approval_resolved" }
        status := if decisionStatus decision = loaded.status then row.status
          else decisionStatus decision
        updatedAt := now })
    (fun _ => rfl)

/-- The next step of a call, some time after the last one: the query with its check, or the
commit. -/
def resolveNext (approvalId : String) (elapsed : Nat) (s : Clocked) :
    ResolveCall → Clocked × ResolveCall
  | .requested decision =>
    let s' := { s with clock := s.clock + elapsed + 1 }
    match s.conversation.getRunForApproval approvalId with
    | none => (s', .notFound)
    | some run =>
      match run.checkpoint.pendingApproval with
      | none => (s', .notFound)
      | some pending =>
        if alreadyResolved pending then (s', .alreadyResolved)
        else (s', .checked decision run pending)
  | .checked decision run pending =>
    let now := s.clock + elapsed + 1
    ({ conversation := commitDecision now decision run pending s.conversation, clock := now },
      .returned decision)
  | call => (s, call)

theorem resolveNext_requested (approvalId : String) (elapsed : Nat) (s : Clocked)
    (decision : Decision) :
    ∃ new, resolveNext approvalId elapsed s (.requested decision) =
        ({ s with clock := s.clock + elapsed + 1 }, new) ∧
      ∀ chosen loaded pending, new = .checked chosen loaded pending →
        s.conversation.getRunForApproval approvalId = some loaded ∧
          loaded.checkpoint.pendingApproval = some pending ∧ alreadyResolved pending = false := by
  simp only [resolveNext]
  cases found : s.conversation.getRunForApproval approvalId with
  | none =>
    refine ⟨.notFound, rfl, ?_⟩
    intro _ _ _ isNew
    cases isNew
  | some run =>
    cases asked : run.checkpoint.pendingApproval with
    | none =>
      refine ⟨.notFound, by simp only [asked], ?_⟩
      intro _ _ _ isNew
      cases isNew
    | some pending =>
      cases resolved : alreadyResolved pending with
      | true =>
        refine ⟨.alreadyResolved, by simp only [asked, resolved, if_true], ?_⟩
        intro _ _ _ isNew
        cases isNew
      | false =>
        refine ⟨.checked decision run pending,
          by simp only [asked, resolved, Bool.false_eq_true, if_false], ?_⟩
        intro _ _ _ isNew
        cases isNew
        exact ⟨rfl, asked, resolved⟩

def resolveTurn (approvalId : String) :
    CallSystem Clocked ResolveCall → Nat × Nat → CallSystem Clocked ResolveCall :=
  advance (fun _ _ => false) (resolveNext approvalId)

def ReadsAlone (s : CallSystem Clocked ResolveCall) (turn : Nat × Nat) : Prop :=
  ∀ decision, s.calls[turn.1]? = some (.requested decision) →
    ∀ (other : Nat) decision run pending, s.calls[other]? ≠ some (.checked decision run pending)

/-- One call returned its decision, every other one reported `already_resolved`, and the run
carries that decision and its status. -/
def DecidedOnce (runId : Uuid) (s : CallSystem Clocked ResolveCall) : Prop :=
  ∃ (i : Nat) (decision : Decision), s.calls[i]? = some (.returned decision) ∧
    (∀ (j : Nat) call, j ≠ i → s.calls[j]? = some call → call = .alreadyResolved) ∧
    ∃ row pending, s.shared.conversation.runs.find? runId = some row ∧
      row.checkpoint.pendingApproval = some pending ∧
      pending.decision = some decision.toString ∧ row.status = decisionStatus decision

def resolveStart (c : Conversation) (clock : Time) (decisions : List Decision) :
    CallSystem Clocked ResolveCall :=
  ⟨⟨c, clock⟩, decisions.map .requested⟩

/-- Call `i` passed its check. -/
def Wins (s : CallSystem Clocked ResolveCall) (i : Nat) : Prop :=
  ∃ call, s.calls[i]? = some call ∧ call.wins = true

def SingleWinner (s : CallSystem Clocked ResolveCall) : Prop :=
  ∀ i j, Wins s i → Wins s j → i = j

structure Committed (approvalId : String) (runId : Uuid) (c : Conversation) : Prop where
  resolved : ∃ row pending, c.getRunForApproval approvalId = some row ∧ row.id = runId ∧
    row.checkpoint.pendingApproval = some pending ∧ alreadyResolved pending = true

def Persisted (runId : Uuid) (decision : Decision) (c : Conversation) : Prop :=
  ∃ row pending, c.runs.find? runId = some row ∧ row.checkpoint.pendingApproval = some pending ∧
    pending.decision = some decision.toString ∧ row.status = decisionStatus decision

/-- What holds while the calls of one approval run: nothing is written before the first commit,
and afterwards the run is found with a decision. -/
structure RaceInvariant (approvalId : String) (c : Conversation) (run : AgentRun)
    (pending : PendingApproval) (s : CallSystem Clocked ResolveCall) : Prop where
  untouched : (∀ (i : Nat) decision, s.calls[i]? ≠ some (.returned decision)) →
    s.shared.conversation = c
  committed : ∀ (i : Nat) decision, s.calls[i]? = some (.returned decision) →
    Committed approvalId run.id s.shared.conversation
  snapshot : ∀ (i : Nat) decision loaded asked,
    s.calls[i]? = some (.checked decision loaded asked) → loaded = run ∧ asked = pending
  bound : ∀ row ∈ s.shared.conversation.runs.rows, row.updatedAt ≤ s.shared.clock
  candidate : ∃ row, s.shared.conversation.runs.find? run.id = some row ∧
    row.status.mayAskApproval = true
  found : ∀ i : Nat, s.calls[i]? ≠ some .notFound
  after : ∀ i : Nat, s.calls[i]? = some .alreadyResolved →
    ∃ (j : Nat) (decision : Decision), s.calls[j]? = some (.returned decision)
  persisted : SingleWinner s → ∀ (i : Nat) decision, s.calls[i]? = some (.returned decision) →
    Persisted run.id decision s.shared.conversation

section Race

variable {approvalId : String} {c : Conversation} {run : AgentRun} {pending : PendingApproval}

theorem writtenStatus (decision : Decision) (status : RunStatus) :
    (if decisionStatus decision = status then status else decisionStatus decision) =
      decisionStatus decision := by
  split
  · rename_i same
    exact same.symm
  · rfl

theorem mayAskApproval_decisionStatus (decision : Decision) :
    (decisionStatus decision).mayAskApproval = true := by
  cases decision <;> rfl

theorem alreadyResolved_decision (pending : PendingApproval) (decision : Decision)
    (resolvedAt : Option Time) :
    alreadyResolved { pending with decision := some decision.toString, resolvedAt := resolvedAt } =
      true := by
  cases decision <;> rfl

theorem committed_commitDecision {now : Time} {decision : Decision} {c' : Conversation}
    (asks : asksFor approvalId run) (asked : run.checkpoint.pendingApproval = some pending)
    (bound : ∀ row ∈ c'.runs.rows, row.updatedAt < now)
    (candidate : ∃ row, c'.runs.find? run.id = some row ∧ row.status.mayAskApproval = true) :
    Committed approvalId run.id (commitDecision now decision run pending c') ∧
      ∃ row, (commitDecision now decision run pending c').runs.find? run.id = some row ∧
        row.status.mayAskApproval = true := by
  obtain ⟨before, stored, status⟩ := candidate
  let after : AgentRun :=
    { before with
      checkpoint :=
        { run.checkpoint with
          pendingApproval := some
            { pending with decision := some decision.toString, resolvedAt := some now }
          phase := some "approval_resolved" }
      status := if decisionStatus decision = run.status then before.status
        else decisionStatus decision
      updatedAt := now }
  have here : (commitDecision now decision run pending c').runs.find? run.id = some after :=
    Conversation.find?_modifyRun stored
  have statusAfter : after.status.mayAskApproval = true := by
    change (if decisionStatus decision = run.status then before.status
      else decisionStatus decision).mayAskApproval = true
    split
    · exact status
    · exact mayAskApproval_decisionStatus decision
  have asksAfter : asksFor approvalId after = true := by
    unfold asksFor at asks ⊢
    rw [asked] at asks
    exact asks
  have first : (commitDecision now decision run pending c').getRunForApproval approvalId =
      some after := Conversation.getRunForApproval_modifyRun stored bound rfl statusAfter asksAfter
  have decided := alreadyResolved_decision pending decision (some now)
  have key := (Table.find?_eq_some_iff.mp here).2
  exact ⟨⟨after, _, first, key, rfl, decided⟩, after, here, statusAfter⟩

theorem clock_lt (clock : Int) (elapsed : Nat) : clock < clock + elapsed + 1 := by
  omega

/-- What one turn of a call can do. -/
inductive RaceStep (run : AgentRun) (pending : PendingApproval) (s s' : CallSystem Clocked ResolveCall)
    (i : Nat) : Prop
  | stays (idle : ∀ decision, s.calls[i]? ≠ some (.requested decision)) (same : s' = s)
  | reads (decision : Decision) (t : Time) (later : s.shared.clock < t)
      (here : s.calls[i]? = some (.requested decision))
      (first : ∀ (j : Nat) other, s.calls[j]? ≠ some (.returned other))
      (next : s' = ⟨{ s.shared with clock := t }, s.calls.set i (.checked decision run pending)⟩)
  | refused (decision : Decision) (t : Time) (later : s.shared.clock < t)
      (here : s.calls[i]? = some (.requested decision))
      (beaten : ∃ (j : Nat) (other : Decision), s.calls[j]? = some (.returned other))
      (next : s' = ⟨{ s.shared with clock := t }, s.calls.set i .alreadyResolved⟩)
  | commits (decision : Decision) (t : Time) (later : s.shared.clock < t)
      (here : s.calls[i]? = some (.checked decision run pending))
      (next : s' = ⟨⟨commitDecision t decision run pending s.shared.conversation, t⟩,
        s.calls.set i (.returned decision)⟩)

theorem raceStep (hit : c.getRunForApproval approvalId = some run)
    (asked : run.checkpoint.pendingApproval = some pending)
    (undecided : alreadyResolved pending = false) {s : CallSystem Clocked ResolveCall}
    (inv : RaceInvariant approvalId c run pending s) (turn : Nat × Nat) :
    RaceStep run pending s (resolveTurn approvalId s turn) turn.1 := by
  have later := clock_lt s.shared.clock turn.2
  cases here : s.calls[turn.1]? with
  | none =>
    refine .stays ?_ (advance_of_none (fun _ _ => false) (resolveNext approvalId) here)
    intro decision requested
    rw [here] at requested
    cases requested
  | some point =>
    have moved : resolveTurn approvalId s turn = _ :=
      advance_of_free (fun _ _ => false) (resolveNext approvalId) here (blocked_of_lockFree s _ _)
    cases point with
    | requested decision =>
      by_cases beaten : ∃ (j : Nat) (other : Decision), s.calls[j]? = some (.returned other)
      · obtain ⟨j, other, returned⟩ := beaten
        obtain ⟨row, answered, first, _, rowAsked, resolved⟩ := (inv.committed j other returned).resolved
        refine .refused decision _ later here ⟨j, other, returned⟩ ?_
        rw [moved]
        simp only [resolveNext, first, rowAsked, resolved, if_true]
      · have first : ∀ (j : Nat) other, s.calls[j]? ≠ some (.returned other) := by
          intro j other returned
          exact beaten ⟨j, other, returned⟩
        refine .reads decision _ later here first ?_
        rw [moved]
        simp only [resolveNext, inv.untouched first, hit, asked, undecided, Bool.false_eq_true,
          if_false]
    | checked decision loaded question =>
      obtain ⟨rfl, rfl⟩ := inv.snapshot turn.1 decision loaded question here
      exact .commits decision _ later here moved
    | returned _ | alreadyResolved | notFound =>
      refine .stays ?_ (advance_of_stays (fun _ _ => false) (resolveNext approvalId) here rfl)
      intro decision requested
      rw [here] at requested
      cases requested

variable {i : Nat}

theorem wins_of_checked {s : CallSystem Clocked ResolveCall} {decision : Decision}
    {loaded : AgentRun} {question : PendingApproval}
    (here : s.calls[i]? = some (.checked decision loaded question)) : Wins s i :=
  ⟨_, here, rfl⟩

theorem wins_of_returned {s : CallSystem Clocked ResolveCall} {decision : Decision}
    (here : s.calls[i]? = some (.returned decision)) : Wins s i :=
  ⟨_, here, rfl⟩

theorem wins_raceStep {s s' : CallSystem Clocked ResolveCall} {i j : Nat}
    (step : RaceStep run pending s s' i) (wins : Wins s j) : Wins s' j := by
  obtain ⟨call, at_j, passed⟩ := wins
  have other_of {point new : ResolveCall} (here : s.calls[i]? = some point)
      (lost : point.wins = false) : (s.calls.set i new)[j]? = some call := by
    refine (getElem?_set_iff here).mpr (.inr ⟨?_, at_j⟩)
    rintro rfl
    rw [here] at at_j
    cases at_j
    rw [lost] at passed
    cases passed
  cases step with
  | stays _ same => exact same ▸ ⟨call, at_j, passed⟩
  | reads decision t _ here _ next | refused decision t _ here _ next =>
    rw [next]
    exact ⟨call, other_of here rfl, passed⟩
  | commits decision t _ here next =>
    rw [next]
    by_cases mine : j = i
    · exact ⟨.returned decision, (getElem?_set_iff here).mpr (.inl ⟨mine, rfl⟩), rfl⟩
    · exact ⟨call, (getElem?_set_iff here).mpr (.inr ⟨mine, at_j⟩), passed⟩

theorem wins_of_raceStep {s s' : CallSystem Clocked ResolveCall} {i j : Nat}
    (step : RaceStep run pending s s' i) (wins : Wins s' j) :
    Wins s j ∨ (j = i ∧ ∀ (k : Nat) other, s.calls[k]? ≠ some (.returned other)) := by
  obtain ⟨call, at_j, passed⟩ := wins
  cases step with
  | stays _ same => exact .inl (same ▸ ⟨call, at_j, passed⟩)
  | reads decision t _ here first next =>
    rw [next] at at_j
    rcases (getElem?_set_iff here).mp at_j with ⟨mine, _⟩ | ⟨_, old⟩
    · exact .inr ⟨mine, first⟩
    · exact .inl ⟨call, old, passed⟩
  | refused decision t _ here _ next =>
    rw [next] at at_j
    rcases (getElem?_set_iff here).mp at_j with ⟨_, rfl⟩ | ⟨_, old⟩
    · cases passed
    · exact .inl ⟨call, old, passed⟩
  | commits decision t _ here next =>
    rw [next] at at_j
    rcases (getElem?_set_iff here).mp at_j with ⟨mine, _⟩ | ⟨_, old⟩
    · exact .inl (mine ▸ wins_of_checked here)
    · exact .inl ⟨call, old, passed⟩

theorem checked_of_wins {s : CallSystem Clocked ResolveCall} {j : Nat} (wins : Wins s j)
    (first : ∀ (k : Nat) other, s.calls[k]? ≠ some (.returned other)) :
    ∃ decision loaded question, s.calls[j]? = some (.checked decision loaded question) := by
  obtain ⟨call, at_j, passed⟩ := wins
  cases call with
  | checked decision loaded question => exact ⟨decision, loaded, question, at_j⟩
  | returned decision => exact absurd at_j (first j decision)
  | requested | alreadyResolved | notFound => cases passed

theorem singleWinner_raceStep_iff {s s' : CallSystem Clocked ResolveCall}
    (step : RaceStep run pending s s' i) (single : SingleWinner s) :
    SingleWinner s' ↔ ∀ decision, s.calls[i]? = some (.requested decision) →
      ∀ (other : Nat) decision run pending,
        s.calls[other]? ≠ some (.checked decision run pending) := by
  constructor
  · intro singleAfter decision here other chosen loaded question checked
    have distinct : other ≠ i := by
      rintro rfl
      rw [here] at checked
      cases checked
    have before : Wins s other := wins_of_checked checked
    cases step with
    | stays idle => exact idle decision here
    | reads _ t _ _ first next =>
      have mine : Wins s' i := by
        rw [next]
        exact wins_of_checked ((getElem?_set_iff here).mpr (.inl ⟨rfl, rfl⟩))
      have theirs : Wins s' other := by
        rw [next]
        exact wins_of_checked ((getElem?_set_iff here).mpr (.inr ⟨distinct, checked⟩))
      exact distinct (singleAfter other i theirs mine)
    | refused _ t _ _ beaten =>
      obtain ⟨k, winner, returned⟩ := beaten
      have same := single other k before (wins_of_returned returned)
      rw [same, returned] at checked
      cases checked
    | commits _ t _ atChecked =>
      rw [here] at atChecked
      cases atChecked
  · intro alone j k winsJ winsK
    have newcomer {a b : Nat} (winsA : Wins s a) (mine : b = i)
        (first : ∀ (k : Nat) other, s.calls[k]? ≠ some (.returned other))
        (winsB : Wins s' b) : a = b := by
      obtain ⟨decision, loaded, question, checked⟩ := checked_of_wins winsA first
      by_contra distinct
      cases step with
      | stays _ same =>
        rw [same] at winsB
        exact distinct (single a b winsA winsB)
      | reads chosen _ _ here | refused chosen _ _ here =>
        exact alone chosen here a decision loaded question checked
      | commits _ _ _ here =>
        exact distinct (mine ▸ single a i winsA (wins_of_checked here))
    rcases wins_of_raceStep step winsJ with oldJ | ⟨mineJ, first⟩
    · rcases wins_of_raceStep step winsK with oldK | ⟨mineK, first⟩
      · exact single j k oldJ oldK
      · exact newcomer oldJ mineK first winsK
    · rcases wins_of_raceStep step winsK with oldK | ⟨mineK, _⟩
      · exact (newcomer oldK mineJ first winsJ).symm
      · rw [mineJ, mineK]

theorem singleWinner_of_raceStep {s s' : CallSystem Clocked ResolveCall}
    (step : RaceStep run pending s s' i) (single : SingleWinner s') : SingleWinner s :=
  fun j k winsJ winsK => single j k (wins_raceStep step winsJ) (wins_raceStep step winsK)

/-- A turn that writes nothing keeps the invariant when its call goes on from `requested` to a
point that is neither a return nor `notFound`. -/
theorem inv_of_read {s : CallSystem Clocked ResolveCall} {decision : Decision} {t : Time}
    {new : ResolveCall} (inv : RaceInvariant approvalId c run pending s)
    (later : s.shared.clock < t) (here : s.calls[i]? = some (.requested decision))
    (reads : (∃ decision, new = .checked decision run pending) ∨ (new = .alreadyResolved ∧
      ∃ (j : Nat) (other : Decision), s.calls[j]? = some (.returned other)))
    (shrinks : SingleWinner ⟨{ s.shared with clock := t }, s.calls.set i new⟩ → SingleWinner s) :
    RaceInvariant approvalId c run pending ⟨{ s.shared with clock := t }, s.calls.set i new⟩ := by
  have kept {j : Nat} {other : Decision} (returned : s.calls[j]? = some (.returned other)) :
      (s.calls.set i new)[j]? = some (.returned other) := by
    refine (getElem?_set_iff here).mpr (.inr ⟨?_, returned⟩)
    rintro rfl
    rw [here] at returned
    cases returned
  have old {j : Nat} {other : Decision} (returned : (s.calls.set i new)[j]? = some (.returned other)) :
      s.calls[j]? = some (.returned other) := by
    rcases (getElem?_set_iff here).mp returned with ⟨_, isNew⟩ | ⟨_, before⟩
    · rcases reads with ⟨_, rfl⟩ | ⟨rfl, _⟩ <;> cases isNew
    · exact before
  refine ⟨?_, ?_, ?_, ?_, inv.candidate, ?_, ?_, ?_⟩
  · intro none_returned
    exact inv.untouched fun j other returned => none_returned j other (kept returned)
  · intro j other returned
    exact inv.committed j other (old returned)
  · intro j other loaded question checked
    rcases (getElem?_set_iff here).mp checked with ⟨_, isNew⟩ | ⟨_, before⟩
    · rcases reads with ⟨_, rfl⟩ | ⟨rfl, _⟩
      · cases isNew
        exact ⟨rfl, rfl⟩
      · cases isNew
    · exact inv.snapshot j other loaded question before
  · intro row member
    exact Int.le_of_lt (Int.lt_of_le_of_lt (inv.bound row member) later)
  · intro j missing
    rcases (getElem?_set_iff here).mp missing with ⟨_, isNew⟩ | ⟨_, before⟩
    · rcases reads with ⟨_, rfl⟩ | ⟨rfl, _⟩ <;> cases isNew
    · exact inv.found j before
  · intro j told
    rcases (getElem?_set_iff here).mp told with ⟨_, isNew⟩ | ⟨_, before⟩
    · rcases reads with ⟨_, rfl⟩ | ⟨_, k, other, returned⟩
      · cases isNew
      · exact ⟨k, other, kept returned⟩
    · obtain ⟨k, other, returned⟩ := inv.after j before
      exact ⟨k, other, kept returned⟩
  · intro single j other returned
    exact inv.persisted (shrinks single) j other (old returned)

theorem inv_raceStep (hit : c.getRunForApproval approvalId = some run)
    (asked : run.checkpoint.pendingApproval = some pending)
    {s s' : CallSystem Clocked ResolveCall} (inv : RaceInvariant approvalId c run pending s)
    (step : RaceStep run pending s s' i) : RaceInvariant approvalId c run pending s' := by
  have shrinks := singleWinner_of_raceStep step
  obtain ⟨member, _, asks⟩ := Conversation.getRunForApproval_spec hit
  cases step with
  | stays _ same => exact same ▸ inv
  | reads decision t later here _ next =>
    rw [next] at shrinks ⊢
    exact inv_of_read inv later here (.inl ⟨decision, rfl⟩) shrinks
  | refused decision t later here beaten next =>
    rw [next] at shrinks ⊢
    exact inv_of_read inv later here (.inr ⟨rfl, beaten⟩) shrinks
  | commits decision t later here next =>
    have written : ∀ row ∈ s.shared.conversation.runs.rows, row.updatedAt < t :=
      fun row stored => Int.lt_of_le_of_lt (inv.bound row stored) later
    have mine : (s.calls.set i (.returned decision))[i]? = some (.returned decision) :=
      (getElem?_set_iff here).mpr (.inl ⟨rfl, rfl⟩)
    obtain ⟨committed, candidate⟩ : Committed approvalId run.id
        (commitDecision t decision run pending s.shared.conversation) ∧ _ :=
      committed_commitDecision asks asked written inv.candidate
    rw [next] at shrinks ⊢
    refine ⟨?_, ?_, ?_, ?_, candidate, ?_, ?_, ?_⟩
    · intro none_returned
      exact absurd mine (none_returned i decision)
    · intro _ _ _
      exact committed
    · intro j other loaded question checked
      rcases (getElem?_set_iff here).mp checked with ⟨_, isNew⟩ | ⟨_, before⟩
      · cases isNew
      · exact inv.snapshot j other loaded question before
    · intro row stored
      obtain ⟨before, old, rfl⟩ := List.mem_map.mp stored
      dsimp only
      split
      · exact Int.le_refl t
      · exact Int.le_of_lt (written before old)
    · intro j missing
      rcases (getElem?_set_iff here).mp missing with ⟨_, isNew⟩ | ⟨_, before⟩
      · cases isNew
      · exact inv.found j before
    · intro j told
      exact ⟨i, decision, mine⟩
    · intro single j other returned
      have first : ∀ (k : Nat) winner, s.calls[k]? ≠ some (.returned winner) := by
        intro k winner before
        have same := shrinks single k i (wins_of_returned before) (wins_of_checked here)
        rw [same, here] at before
        cases before
      rcases (getElem?_set_iff here).mp returned with ⟨_, isNew⟩ | ⟨_, before⟩
      · cases isNew
        rw [inv.untouched first]
        have stored : c.runs.find? run.id = some run := Table.find?_eq_some_iff.mpr ⟨member, rfl⟩
        unfold Persisted commitDecision Conversation.modifyRun
        rw [Table.find?_modify, if_pos rfl, stored]
        exact ⟨_, _, rfl, rfl, rfl, writtenStatus decision run.status⟩
      · exact absurd before (first j other)

theorem inv_resolveStart (hit : c.getRunForApproval approvalId = some run) {clock : Time}
    (bound : ∀ row ∈ c.runs.rows, row.updatedAt ≤ clock) (decisions : List Decision) :
    RaceInvariant approvalId c run pending (resolveStart c clock decisions) := by
  have waiting {i : Nat} {call : ResolveCall} (here : (decisions.map .requested)[i]? = some call) :
      ∃ decision, call = .requested decision := by
    obtain ⟨decision, _, same⟩ := List.mem_map.mp (List.mem_of_getElem? here)
    exact ⟨decision, same.symm⟩
  obtain ⟨member, status, _⟩ := Conversation.getRunForApproval_spec hit
  refine ⟨fun _ => rfl, ?_, ?_, bound, ?_, ?_, ?_, ?_⟩
  · intro i decision here
    obtain ⟨_, same⟩ := waiting here
    cases same
  · intro i decision loaded question here
    obtain ⟨_, same⟩ := waiting here
    cases same
  · exact ⟨run, Table.find?_eq_some_iff.mpr ⟨member, rfl⟩, status⟩
  · intro i here
    obtain ⟨_, same⟩ := waiting here
    cases same
  · intro i here
    obtain ⟨_, same⟩ := waiting here
    cases same
  · intro _ i decision here
    obtain ⟨_, same⟩ := waiting here
    cases same

theorem decidedOnce_iff {s : CallSystem Clocked ResolveCall}
    (inv : RaceInvariant approvalId c run pending s) (called : s.calls ≠ [])
    (complete : ∀ call ∈ s.calls, call.isDone) : DecidedOnce run.id s ↔ SingleWinner s := by
  constructor
  · rintro ⟨i, decision, _, others, _⟩
    have onlyWinner {j : Nat} (wins : Wins s j) : j = i := by
      obtain ⟨call, here, passed⟩ := wins
      by_contra other
      rw [others j call other here] at passed
      cases passed
    intro j k winsJ winsK
    rw [onlyWinner winsJ, onlyWinner winsK]
  · intro single
    have winner : ∃ (i : Nat) (decision : Decision), s.calls[i]? = some (.returned decision) := by
      obtain ⟨call, rest, calls⟩ := List.exists_cons_of_ne_nil called
      have first : s.calls[0]? = some call := by
        rw [calls]
        rfl
      have done := complete call (List.mem_of_getElem? first)
      cases call with
      | returned decision => exact ⟨0, decision, first⟩
      | alreadyResolved => exact inv.after 0 first
      | notFound => exact absurd first (inv.found 0)
      | requested | checked => cases done
    obtain ⟨i, decision, here⟩ := winner
    refine ⟨i, decision, here, ?_, inv.persisted single i decision here⟩
    intro j call other atJ
    have done := complete call (List.mem_of_getElem? atJ)
    cases call with
    | returned => exact absurd (single j i (wins_of_returned atJ) (wins_of_returned here)) other
    | alreadyResolved => rfl
    | notFound => exact absurd atJ (inv.found j)
    | requested | checked => cases done

end Race

/-- Of the calls that decide one approval, however they are interleaved, one returns its decision,
the others report that it was resolved, and the run carries that decision, exactly when every call
starts its query while no other one is between its check and its commit. -/
theorem approval_decided_once_iff {c : Conversation} {approvalId : String} {found : AgentRun}
    {pending : PendingApproval} (hit : c.getRunForApproval approvalId = some found)
    (asked : found.checkpoint.pendingApproval = some pending)
    (undecided : alreadyResolved pending = false) {clock : Time}
    (bound : ∀ row ∈ c.runs.rows, row.updatedAt ≤ clock) {decisions : List Decision}
    (called : decisions ≠ []) {schedule : List (Nat × Nat)}
    (complete : ∀ call ∈
      (run (resolveTurn approvalId) (resolveStart c clock decisions) schedule).calls, call.isDone) :
    DecidedOnce found.id (run (resolveTurn approvalId) (resolveStart c clock decisions) schedule) ↔
      Guarded ReadsAlone (resolveTurn approvalId) (resolveStart c clock decisions) schedule := by
  let start := resolveStart c clock decisions
  let last := run (resolveTurn approvalId) start schedule
  have keep (s : CallSystem Clocked ResolveCall) (turn : Nat × Nat)
      (inv : RaceInvariant approvalId c found pending s) :
      RaceInvariant approvalId c found pending (resolveTurn approvalId s turn) :=
    inv_raceStep hit asked inv (raceStep hit asked undecided inv turn)
  have startInv : RaceInvariant approvalId c found pending start := inv_resolveStart hit bound decisions
  have lastInv : RaceInvariant approvalId c found pending last :=
    invariant_of_keeps keep startInv schedule last (run_mem_trace _ start schedule)
  have lengths : last.calls.length = decisions.length := by
    have all : ∀ t ∈ trace (resolveTurn approvalId) start schedule,
        t.calls.length = decisions.length := by
      refine invariant_of_keeps
        (I := fun t : CallSystem Clocked ResolveCall => t.calls.length = decisions.length) ?_
        (List.length_map _) schedule
      intro s turn same
      exact (length_calls_advance _ _ s turn).trans same
    exact all last (run_mem_trace _ start schedule)
  have someCall : last.calls ≠ [] := by
    intro none_called
    rw [none_called] at lengths
    exact called (List.length_eq_zero_iff.mp lengths.symm)
  have startSingle : SingleWinner start := by
    rintro i j ⟨call, here, passed⟩
    obtain ⟨decision, _, rfl⟩ := List.mem_map.mp (List.mem_of_getElem? here)
    cases passed
  have exact_step (s : CallSystem Clocked ResolveCall) (turn : Nat × Nat)
      (inv : RaceInvariant approvalId c found pending s) (single : SingleWinner s) :
      SingleWinner (resolveTurn approvalId s turn) ↔ ReadsAlone s turn :=
    singleWinner_raceStep_iff (raceStep hit asked undecided inv turn) single
  have reflect (s : CallSystem Clocked ResolveCall) (turn : Nat × Nat)
      (inv : RaceInvariant approvalId c found pending s)
      (single : SingleWinner (resolveTurn approvalId s turn)) : SingleWinner s :=
    singleWinner_of_raceStep (raceStep hit asked undecided inv turn) single
  rw [decidedOnce_iff lastInv someCall complete,
    ← forall_trace_iff_guarded keep exact_step startInv startSingle]
  constructor
  · intro single
    exact forall_trace_of_run keep reflect startInv single
  · intro all
    exact all last (run_mem_trace _ start schedule)

/-- A run that waits for the approval `p`. -/
def waitingRun : Conversation :=
  let waiting : Checkpoint :=
    { Checkpoint.empty with pendingApproval := some ⟨"p", some "pending", none⟩ }
  run step .empty
    [ ⟨0, .saveMessage ⟨1, .assistant, ⟨some "a", some "streaming", true, none, none⟩⟩⟩
    , ⟨0, .createRun 7 1 none true⟩
    , ⟨1, .updateCheckpoint 7 (some .awaitingApproval) (some waiting) none true⟩ ]

theorem waitingRun_asks : ∃ found pending, waitingRun.getRunForApproval "p" = some found ∧
    found.id = 7 ∧ found.checkpoint.pendingApproval = some pending ∧
    alreadyResolved pending = false := by
  have asks : (waitingRun.getRunForApproval "p").any (fun found => found.id = 7 &&
      found.checkpoint.pendingApproval.any (fun pending => !alreadyResolved pending)) := by decide
  obtain ⟨found, hit, all⟩ := (Option.any_eq_true _ _).mp asks
  obtain ⟨key, asked⟩ := Bool.and_eq_true_iff.mp all
  obtain ⟨pending, here, undecided⟩ := (Option.any_eq_true _ _).mp asked
  exact ⟨found, pending, hit, by simpa using key, here, by simpa using undecided⟩

def oneAfterTheOther : List (Nat × Nat) := [(0, 0), (0, 0), (1, 0), (1, 0)]

theorem one_after_the_other_decided_once :
    DecidedOnce 7 (run (resolveTurn "p") (resolveStart waitingRun 1 [.approved, .denied])
      oneAfterTheOther) := by
  obtain ⟨found, pending, hit, key, asked, undecided⟩ := waitingRun_asks
  rw [← key]
  refine (approval_decided_once_iff hit asked undecided (by decide) (by decide) ?_).mpr ?_
  · decide +kernel
  · have alone (s : CallSystem Clocked ResolveCall) (turn : Nat × Nat)
        (clear : ∀ call ∈ s.calls, call.isChecked = false) : ReadsAlone s turn := by
      intro decision _ other chosen loaded question checked
      have free := clear _ (List.mem_of_getElem? checked)
      cases free
    have commits (s : CallSystem Clocked ResolveCall) (turn : Nat × Nat)
        (waits : s.calls[turn.1]?.any ResolveCall.isChecked) : ReadsAlone s turn := by
      intro decision here
      rw [here] at waits
      cases waits
    refine ⟨alone _ _ ?_, commits _ _ ?_, alone _ _ ?_, alone _ _ ?_, trivial⟩
    all_goals decide +kernel

/-- Both tabs query before either of them commits. -/
theorem both_tabs_decide :
    ¬ ∀ (c : Conversation) (approvalId : String) (found : AgentRun) (pending : PendingApproval)
      (clock : Time) (decisions : List Decision) (schedule : List (Nat × Nat)),
      c.getRunForApproval approvalId = some found →
      found.checkpoint.pendingApproval = some pending → alreadyResolved pending = false →
      (∀ row ∈ c.runs.rows, row.updatedAt ≤ clock) → decisions ≠ [] →
      (∀ call ∈ (run (resolveTurn approvalId) (resolveStart c clock decisions) schedule).calls,
        call.isDone) →
      DecidedOnce found.id
        (run (resolveTurn approvalId) (resolveStart c clock decisions) schedule) := by
  intro once
  obtain ⟨found, pending, hit, _, asked, undecided⟩ := waitingRun_asks
  have decided := once waitingRun "p" found pending 1 [.approved, .denied]
    [(0, 0), (1, 0), (0, 0), (1, 0)] hit asked undecided (by decide) (by decide)
    (by decide +kernel)
  obtain ⟨i, decision, _, others, _⟩ := decided
  let last := run (resolveTurn "p") (resolveStart waitingRun 1 [.approved, .denied])
    [(0, 0), (1, 0), (0, 0), (1, 0)]
  have first : last.calls[0]? = some (.returned .approved) := by decide +kernel
  have second : last.calls[1]? = some (.returned .denied) := by decide +kernel
  by_cases mine : i = 0
  · have told := others 1 _ (by omega) second
    cases told
  · have told := others 0 _ (by omega) first
    cases told

end AverQel.DeepSpace
