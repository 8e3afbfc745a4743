/- digest: An answered question is claimed by one call, and goes on in one worker. -/
import AverQel.DeepSpace.QuestionClaims

namespace AverQel.DeepSpace

open Foundation Transition
open Foundation.Interleaving
open Conversation (questionClaim)

variable {c : Conversation} {runId : Uuid} {row : AgentRun} {f : AgentRun → AgentRun}
  {hf : ∀ run, (f run).id = run.id}

theorem departures_self (c : Conversation) : c.departures c = [] := by
  refine List.map_eq_nil_iff.mpr (List.filter_eq_nil_iff.mpr fun run stored => ?_)
  have found : c.runs.find? run.id = some run := Table.find?_eq_some_iff.mpr ⟨stored, rfl⟩
  rw [found]
  simp

/-- A write of one run takes no other run out of `awaiting_user`. -/
theorem departures_modifyRun (found : c.runs.find? runId = some row) :
    c.departures (c.modifyRun runId f hf) =
      if row.status = .awaitingUser ∧ (f row).status ≠ .awaitingUser then [runId] else [] := by
  obtain ⟨stored, rfl⟩ := Table.find?_eq_some_iff.mp found
  have own : ∀ run ∈ c.runs.rows,
      (decide (run.status = .awaitingUser) &&
        ((c.modifyRun row.id f hf).runs.find? run.id).any (fun run' =>
          decide (run'.status ≠ .awaitingUser))) =
      (run == row &&
        decide (row.status = .awaitingUser ∧ (f row).status ≠ .awaitingUser)) := by
    intro run member
    have here : c.runs.find? run.id = some run := Table.find?_eq_some_iff.mpr ⟨member, rfl⟩
    unfold Conversation.modifyRun
    rw [Table.find?_modify, here]
    by_cases same : run.id = row.id
    · rw [c.runs.eq_of_key_eq member stored same]
      simp
    · have distinct : (run == row) = false := by
        refine beq_false_of_ne fun equal => same ?_
        rw [equal]
      simp [same, distinct]
  have distinct : c.runs.rows.Nodup := c.runs.keys_nodup.of_map
  unfold Conversation.departures
  rw [List.filter_congr own]
  by_cases leaves : row.status = .awaitingUser ∧ (f row).status ≠ .awaitingUser
  · simp only [decide_eq_true leaves, Bool.and_true]
    rw [if_pos leaves, List.filter_beq, List.count_eq_one_of_mem distinct stored]
    rfl
  · simp only [decide_eq_false leaves, Bool.and_false, if_neg leaves]
    simp

def storedAnswer (checkpoint : Checkpoint) (answer : String) : String :=
  if checkpoint.phase = some "question_claimed" then answer else workerPrompt answer

def AnswerStored (questionId answer : String) (run : AgentRun) : Prop :=
  ∀ pending ∈ run.checkpoint.pendingUserQuestion, pending.questionId = questionId →
    pending.answer = some (storedAnswer run.checkpoint answer)

/-- The run as `claim_user_question` leaves it. -/
structure ClaimedRun (questionId answer : String) (run : AgentRun) : Prop where
  status : run.status = .running
  phase : run.checkpoint.phase = some "question_claimed"
  asks : asksQuestion questionId run = true
  answer : AnswerStored questionId answer run

/-- What holds of the rows while a call is at a point. -/
def PointInvariant (questionId : String) (c : Conversation) : QuestionCall → Prop
  | .locking _ _ held rows => ∀ row ∈ rows, row.id ∈ held ∧ c.runs.find? row.id = some row
  | .claimed _ found held =>
    found.id ∈ held ∧ c.runs.find? found.id = some found ∧ found.status = .awaitingUser ∧
      asksQuestion questionId found = true
  | .committed answer runId =>
    ∃ row, c.runs.find? runId = some row ∧ ClaimedRun questionId answer row
  | .resuming answer runId checkpoint | .resumeLocked answer runId checkpoint =>
    ∃ row, c.runs.find? runId = some row ∧ ClaimedRun questionId answer row ∧
      row.checkpoint = checkpoint
  | .working answer runId | .workLocked answer runId =>
    ∃ row, c.runs.find? runId = some row ∧ row.status ≠ .awaitingUser ∧
      AnswerStored questionId answer row
  | .parked _ runId =>
    ∃ row, c.runs.find? runId = some row ∧ asksQuestion questionId row = false
  | .requested _ | .inProgress _ | .notFound _ | .returnedInProgress | .returnedNotFound
  | .rolledBack => True

def Answered (questionId : String) (c : Conversation) : Prop :=
  ∀ run ∈ c.runs.rows, asksQuestion questionId run = true → run.status ≠ .awaitingUser

/-- At most one run asks the question, and a committed claim has taken it out of
`awaiting_user`. -/
structure ClaimInvariant (questionId : String) (s : CallSystem Questioned QuestionCall) : Prop where
  points : ∀ (i : Nat) point, s.calls[i]? = some point →
    PointInvariant questionId s.shared.conversation point
  asked : s.shared.conversation.runs.AtMostOne (asksQuestion questionId)
  departed : s.shared.departed = (s.calls.filterMap QuestionCall.claim).map Prod.snd
  taken : s.calls.filterMap QuestionCall.claim = [] ∨
    (∃ claim, s.calls.filterMap QuestionCall.claim = [claim]) ∧
      Answered questionId s.shared.conversation

variable {questionId : String} {c : Conversation} {runId : Uuid} {row : AgentRun}
  {f : AgentRun → AgentRun} {hf : ∀ run, (f run).id = run.id} {now : Time} {answer : String}
  {point new : QuestionCall} {s : CallSystem Questioned QuestionCall} {i : Nat}

theorem asksQuestion_iff {run : AgentRun} : asksQuestion questionId run = true ↔
    ∃ pending, run.checkpoint.pendingUserQuestion = some pending ∧
      pending.questionId = questionId := by
  unfold asksQuestion
  simp [Option.any_eq_true]

theorem PointInvariant.modifyRun (holds : PointInvariant questionId c point)
    (unclaimed : point.claim = none) (free : runId ∉ point.locked) :
    PointInvariant questionId (c.modifyRun runId f hf) point := by
  have kept {id : Uuid} (held : id ∈ point.locked) :
      (c.modifyRun runId f hf).runs.find? id = c.runs.find? id := by
    unfold Conversation.modifyRun
    rw [Table.find?_modify, if_neg]
    rintro rfl
    exact free held
  cases point with
  | locking =>
    intro row member
    obtain ⟨locked, found⟩ := holds row member
    exact ⟨locked, (kept locked).trans found⟩
  | claimed =>
    obtain ⟨locked, stored, rest⟩ := holds
    exact ⟨locked, (kept locked).trans stored, rest⟩
  | requested | inProgress | notFound | returnedInProgress | returnedNotFound | rolledBack =>
    trivial
  | _ => cases unclaimed

theorem Answered.modifyRun
    (others : ∀ run ∈ c.runs.rows, run.id ≠ runId → asksQuestion questionId run = true →
      run.status ≠ .awaitingUser)
    (own : ∀ run ∈ c.runs.rows, run.id = runId → asksQuestion questionId (f run) = true →
      (f run).status ≠ .awaitingUser) :
    Answered questionId (c.modifyRun runId f hf) := by
  intro run stored asks
  obtain ⟨old, member, changed⟩ := List.mem_map.mp stored
  by_cases same : old.id = runId
  · rw [if_pos same] at changed
    subst changed
    exact own old member same asks
  · rw [if_neg same] at changed
    subst changed
    exact others old member same asks

theorem asked_modifyRun (asked : c.runs.AtMostOne (asksQuestion questionId))
    (quiet : ∀ run ∈ c.runs.rows, run.id = runId → asksQuestion questionId (f run) = true →
      asksQuestion questionId run = true) :
    (c.modifyRun runId f hf).runs.AtMostOne (asksQuestion questionId) := by
  have asker {run' : AgentRun} (stored : run' ∈ (c.modifyRun runId f hf).runs.rows)
      (asks : asksQuestion questionId run' = true) :
      ∃ run ∈ c.runs.rows, run.id = run'.id ∧ asksQuestion questionId run = true := by
    obtain ⟨run, member, changed⟩ := List.mem_map.mp stored
    by_cases same : run.id = runId
    · rw [if_pos same] at changed
      subst changed
      exact ⟨run, member, (hf run).symm, quiet run member same asks⟩
    · rw [if_neg same] at changed
      subst changed
      exact ⟨run, member, rfl, asks⟩
  intro a storedA b storedB asksA asksB
  obtain ⟨runA, memberA, keyA, wasA⟩ := asker storedA asksA
  obtain ⟨runB, memberB, keyB, wasB⟩ := asker storedB asksB
  rw [← keyA, ← keyB]
  exact asked runA memberA runB memberB wasA wasB

theorem ClaimInvariant.moves (inv : ClaimInvariant questionId s) (here : s.calls[i]? = some point)
    (ok : PointInvariant questionId s.shared.conversation new) (same : new.claim = point.claim) :
    ClaimInvariant questionId ⟨s.shared, s.calls.set i new⟩ := by
  have claims : (s.calls.set i new).filterMap QuestionCall.claim =
      s.calls.filterMap QuestionCall.claim := filterMap_set_of_same here same
  refine ⟨?_, inv.asked, ?_, ?_⟩
  · intro j other at_j
    rcases (getElem?_set_iff here).mp at_j with ⟨_, rfl⟩ | ⟨_, old⟩
    · exact ok
    · exact inv.points j other old
  · rw [inv.departed, claims]
  · rw [claims]
    exact inv.taken

theorem sharesLock_symm (p q : QuestionCall) : sharesLock p q = sharesLock q p := by
  rw [Bool.eq_iff_iff]
  simp only [sharesLock, List.any_eq_true, List.contains_iff_mem]
  constructor
  all_goals
    rintro ⟨id, one, other⟩
    exact ⟨id, other, one⟩

theorem not_locked_of_exclusive (exclusive : s.Exclusive sharesLock)
    (here : s.calls[i]? = some point) (held : runId ∈ point.locked) {j : Nat}
    {other : QuestionCall} (distinct : j ≠ i) (at_j : s.calls[j]? = some other) :
    runId ∉ other.locked := by
  intro also
  have free := exclusive i j point other distinct.symm here at_j
  have shares : sharesLock point other = true :=
    List.any_eq_true.mpr ⟨runId, held, List.contains_iff_mem.mpr also⟩
  rw [shares] at free
  cases free

theorem ClaimInvariant.write (inv : ClaimInvariant questionId s)
    (exclusive : s.Exclusive sharesLock) (here : s.calls[i]? = some point)
    (held : runId ∈ point.locked)
    (alone : ∀ (j : Nat) other, j ≠ i → s.calls[j]? = some other → other.claim = none)
    (quiet : ∀ run ∈ s.shared.conversation.runs.rows, run.id = runId →
      asksQuestion questionId (f run) = true → asksQuestion questionId run = true)
    (ok : PointInvariant questionId (s.shared.conversation.modifyRun runId f hf) new)
    (departed : s.shared.departed ++
        s.shared.conversation.departures (s.shared.conversation.modifyRun runId f hf) =
      ((s.calls.set i new).filterMap QuestionCall.claim).map Prod.snd)
    (taken : ∃ claim, (s.calls.set i new).filterMap QuestionCall.claim = [claim])
    (answered : Answered questionId (s.shared.conversation.modifyRun runId f hf)) :
    ClaimInvariant questionId
      ⟨s.shared.commit (s.shared.conversation.modifyRun runId f hf), s.calls.set i new⟩ := by
  refine ⟨?_, asked_modifyRun inv.asked quiet, departed, .inr ⟨taken, answered⟩⟩
  intro j other at_j
  rcases (getElem?_set_iff here).mp at_j with ⟨_, rfl⟩ | ⟨distinct, old⟩
  · exact ok
  · exact (inv.points j other old).modifyRun (alone j other distinct old)
      (not_locked_of_exclusive exclusive here held distinct old)

theorem ClaimInvariant.claims (inv : ClaimInvariant questionId s)
    (exclusive : s.Exclusive sharesLock) {found : AgentRun} {held : List Uuid}
    (here : s.calls[i]? = some (.claimed answer found held)) :
    ClaimInvariant questionId
      ⟨s.shared.commit (s.shared.conversation.modifyRun found.id (answeredRun now answer)
          (fun _ => rfl)), s.calls.set i (.committed answer found.id)⟩ := by
  obtain ⟨locked, stored, waiting, asks⟩ := inv.points i _ here
  obtain ⟨member, _⟩ := Table.find?_eq_some_iff.mp stored
  have first : s.calls.filterMap QuestionCall.claim = [] := by
    refine inv.taken.resolve_right fun taken => ?_
    exact taken.2 found member asks waiting
  have claims : (s.calls.set i (.committed answer found.id)).filterMap QuestionCall.claim =
      [(answer, found.id)] := filterMap_set_of_first here first rfl
  have row_of {run : AgentRun} (runMember : run ∈ s.shared.conversation.runs.rows)
      (same : run.id = found.id) : run = found :=
    s.shared.conversation.runs.eq_of_key_eq runMember member same
  have after : (s.shared.conversation.modifyRun found.id (answeredRun now answer)
      (fun _ => rfl)).runs.find? found.id = some (answeredRun now answer found) :=
    Conversation.find?_modifyRun stored
  obtain ⟨pending, pendingHere, named⟩ := asksQuestion_iff.mp asks
  refine inv.write exclusive here locked ?_ ?_ ?_ ?_ ⟨_, claims⟩ ?_
  · intro j other _ at_j
    exact List.filterMap_eq_nil_iff.mp first other (List.mem_of_getElem? at_j)
  · intro run runMember same _
    rw [row_of runMember same]
    exact asks
  · refine ⟨_, after, rfl, rfl, ?_, ?_⟩
    · rw [asks_answeredRun]
      exact asks
    · intro pending' isPending _
      simp only [answeredRun, pendingHere, Option.map_some, Option.mem_some_iff] at isPending
      subst isPending
      rfl
  · have leaves : found.status = .awaitingUser ∧
        (answeredRun now answer found).status ≠ .awaitingUser := ⟨waiting, by simp [answeredRun]⟩
    have left : s.shared.conversation.departures (s.shared.conversation.modifyRun found.id
        (answeredRun now answer) (fun _ => rfl)) = [found.id] :=
      (departures_modifyRun stored).trans (if_pos leaves)
    rw [inv.departed, first, left, claims]
    rfl
  · refine .modifyRun ?_ ?_
    · intro run runMember other runAsks _
      exact other (inv.asked run runMember found member runAsks asks)
    · intro run _ _ _
      simp [answeredRun]

theorem ClaimInvariant.works (inv : ClaimInvariant questionId s)
    (exclusive : s.Exclusive sharesLock) (here : s.calls[i]? = some point)
    (held : runId ∈ point.locked) {claim : String × Uuid} (own : point.claim = some claim)
    (same : new.claim = point.claim) (found : s.shared.conversation.runs.find? runId = some row)
    (working : row.status ≠ .awaitingUser)
    (quiet : asksQuestion questionId (f row) = true →
      asksQuestion questionId row = true ∧ (f row).status ≠ .awaitingUser)
    (ok : PointInvariant questionId (s.shared.conversation.modifyRun runId f hf) new) :
    ClaimInvariant questionId
      ⟨s.shared.commit (s.shared.conversation.modifyRun runId f hf), s.calls.set i new⟩ := by
  have claims : (s.calls.set i new).filterMap QuestionCall.claim =
      s.calls.filterMap QuestionCall.claim := filterMap_set_of_same here same
  obtain ⟨⟨only, one⟩, answered⟩ : (∃ claim, s.calls.filterMap QuestionCall.claim = [claim]) ∧
      Answered questionId s.shared.conversation := by
    refine inv.taken.resolve_left fun none_yet => ?_
    rw [List.filterMap_eq_nil_iff.mp none_yet point (List.mem_of_getElem? here)] at own
    cases own
  obtain ⟨member, key⟩ := Table.find?_eq_some_iff.mp found
  have row_of {run : AgentRun} (runMember : run ∈ s.shared.conversation.runs.rows)
      (sameId : run.id = runId) : run = row :=
    s.shared.conversation.runs.eq_of_key_eq runMember member (sameId.trans key.symm)
  refine inv.write exclusive here held ?_ ?_ ok ?_ ⟨only, claims.trans one⟩ ?_
  · intro j other distinct at_j
    by_contra claimed
    have ownSome : point.claim.isSome := by rw [own]; rfl
    exact distinct (index_of_singleton one at_j here (Option.isSome_iff_ne_none.mpr claimed) ownSome)
  · intro run runMember sameId asks
    rw [row_of runMember sameId] at asks ⊢
    exact (quiet asks).1
  · rw [departures_modifyRun found, if_neg (fun both => working both.1), List.append_nil,
      inv.departed, claims]
  · refine .modifyRun (fun run runMember _ => answered run runMember) ?_
    intro run runMember sameId asks
    rw [row_of runMember sameId] at asks ⊢
    exact (quiet asks).2

theorem getClaimedUserQuestion_of_claimed (asked : c.runs.AtMostOne (asksQuestion questionId))
    (found : c.runs.find? runId = some row) (claimed : ClaimedRun questionId answer row) :
    c.getClaimedUserQuestion questionId = some row := by
  obtain ⟨member, key⟩ := Table.find?_eq_some_iff.mp found
  have listed : row ∈ c.runsByUpdate.filter (fun run => run.status = .running) := by
    refine List.mem_filter.mpr ⟨(List.mem_insertionSort _).mpr member, ?_⟩
    exact decide_eq_true claimed.status
  have continues : continuesQuestion questionId row = true := by
    simp [continuesQuestion, claimed.phase, claimed.asks]
  unfold Conversation.getClaimedUserQuestion
  cases hit : (c.runsByUpdate.filter (fun run => run.status = .running)).find?
      (continuesQuestion questionId) with
  | none => exact absurd continues (List.find?_eq_none.mp hit row listed)
  | some run =>
    have runListed := (List.mem_filter.mp (List.mem_of_find?_eq_some hit)).1
    have runMember := (List.mem_insertionSort _).mp runListed
    have continuesHere : continuesQuestion questionId run = true := List.find?_some hit
    have runAsks := (Bool.and_eq_true_iff.mp continuesHere).2
    have same := asked run runMember row member runAsks claimed.asks
    rw [c.runs.eq_of_key_eq runMember member same]

theorem ClaimInvariant.resumes (inv : ClaimInvariant questionId s)
    (exclusive : s.Exclusive sharesLock) {checkpoint : Checkpoint} (fits : Bool)
    (here : s.calls[i]? = some (.resumeLocked answer runId checkpoint)) :
    ClaimInvariant questionId
      ⟨s.shared.commit (s.shared.conversation.updateCheckpoint now runId (some .running)
          (some (resumedCheckpoint answer checkpoint)) none fits),
        s.calls.set i (.working answer runId)⟩ := by
  obtain ⟨row, found, claimed, loaded⟩ := inv.points i _ here
  have working : row.status ≠ .awaitingUser := by
    rw [claimed.status]
    decide
  cases fits with
  | false =>
    have refused : s.shared.commit (s.shared.conversation.updateCheckpoint now runId (some .running)
        (some (resumedCheckpoint answer checkpoint)) none false) = s.shared := by
      have same : s.shared.conversation.updateCheckpoint now runId (some .running)
          (some (resumedCheckpoint answer checkpoint)) none false = s.shared.conversation := rfl
      rw [same, Questioned.commit, departures_self, List.append_nil]
    rw [refused]
    exact inv.moves here ⟨row, found, working, claimed.answer⟩ rfl
  | true =>
    rw [updateCheckpoint_eq]
    refine inv.works exclusive here (List.mem_singleton_self runId) rfl rfl found working ?_ ?_
    · intro _
      exact ⟨claimed.asks, by simp [writtenRun]⟩
    · refine ⟨_, Conversation.find?_modifyRun found, by simp [writtenRun], ?_⟩
      intro pending' isPending _
      obtain ⟨pending, _, rfl⟩ := Option.map_eq_some_iff.mp isPending
      have resumed : storedAnswer (resumedCheckpoint answer checkpoint) answer =
          workerPrompt answer := by simp [storedAnswer, resumedCheckpoint]
      exact congrArg some resumed.symm

theorem ClaimInvariant.writes (inv : ClaimInvariant questionId s)
    (exclusive : s.Exclusive sharesLock) (fits : Bool) (write : WorkerWrite questionId)
    (here : s.calls[i]? = some (.workLocked answer runId)) :
    ClaimInvariant questionId
      ⟨s.shared.commit (write.apply now fits runId s.shared.conversation),
        s.calls.set i (if write.parks && fits then .parked answer runId
          else .working answer runId)⟩ := by
  obtain ⟨row, found, working, stored⟩ := inv.points i _ here
  have unchanged {c' : Conversation} (same : c' = s.shared.conversation) :
      ClaimInvariant questionId
        ⟨s.shared.commit c', s.calls.set i (.working answer runId)⟩ := by
    rw [same, Questioned.commit, departures_self, List.append_nil]
    exact inv.moves here ⟨row, found, working, stored⟩ rfl
  cases write with
  | progress status checkpoint lastError works quiet =>
    cases fits with
    | false => exact unchanged rfl
    | true =>
      have written : ClaimInvariant questionId
          ⟨s.shared.commit (s.shared.conversation.updateCheckpoint now runId (some status)
            (some checkpoint) lastError true), s.calls.set i (.working answer runId)⟩ := by
        simp only [Conversation.updateCheckpoint, Bool.not_true, Bool.and_false]
        refine inv.works exclusive here (List.mem_singleton_self runId) rfl rfl found working ?_ ?_
        · intro asks
          simp [asksQuestion, quiet] at asks
        · refine ⟨_, Conversation.find?_modifyRun found, works, ?_⟩
          intro pending isPending
          have nothing : some pending = none := isPending.symm.trans quiet
          cases nothing
      exact written
  | park pending clientRequestId fresh =>
    cases fits with
    | false => exact unchanged rfl
    | true =>
      have other {run : AgentRun} (asked : run.checkpoint.pendingUserQuestion = some pending) :
          asksQuestion questionId run = false := by
        simp [asksQuestion, asked, fresh]
      refine inv.works exclusive here (List.mem_singleton_self runId) rfl rfl found working ?_ ?_
      · intro asks
        rw [other rfl] at asks
        cases asks
      · exact ⟨_, Conversation.find?_modifyRun found, other rfl⟩
  | finish status error ended =>
    refine inv.works exclusive here (List.mem_singleton_self runId) rfl rfl found working ?_ ?_
    · intro asks
      exact ⟨asks, ended⟩
    · exact ⟨_, Conversation.find?_modifyRun found, ended, stored⟩

/-- What `claim_user_question` decides on the rows it has locked. -/
theorem pointInvariant_decided {held : List Uuid} {rows : List AgentRun} {found : AgentRun}
    (locked : PointInvariant questionId c (.locking answer [] held rows))
    (decided : questionClaim questionId rows = some (found, true)) :
    PointInvariant questionId c (.claimed answer found held) := by
  obtain ⟨member, waiting, asks⟩ := Conversation.questionClaim_spec decided
  obtain ⟨lock, stored⟩ := locked found member
  exact ⟨lock, stored, waiting, asks⟩

theorem pointInvariant_locked {id : Uuid} {todo held : List Uuid} {rows : List AgentRun}
    (locked : PointInvariant questionId c (.locking answer (id :: todo) held rows)) :
    PointInvariant questionId c (.locking answer todo (held ++ [id])
      (rows ++ ((c.runs.find? id).filter (fun run => run.status.mayHoldQuestion)).toList)) := by
  intro row member
  rcases List.mem_append.mp member with old | new
  · obtain ⟨lock, stored⟩ := locked row old
    exact ⟨List.mem_append_left _ lock, stored⟩
  · obtain ⟨found, _⟩ := Option.filter_eq_some_iff.mp (Option.mem_toList.mp new)
    obtain ⟨_, rfl⟩ := Table.find?_eq_some_iff.mp found
    exact ⟨List.mem_append_right _ (List.mem_singleton_self _), found⟩

theorem inv_next (inv : ClaimInvariant questionId s) (exclusive : s.Exclusive sharesLock)
    (tick : QuestionTick questionId) (here : s.calls[i]? = some point) :
    ClaimInvariant questionId
      ⟨(questionNext questionId tick s.shared point).1,
        s.calls.set i (questionNext questionId tick s.shared point).2⟩ := by
  have now := inv.points i point here
  cases point with
  | requested =>
    refine inv.moves here ?_ rfl
    intro row member
    cases member
  | locking answer todo held rows =>
    cases todo with
    | cons =>
      simp only [questionNext]
      split
      · exact inv.moves here trivial rfl
      · exact inv.moves here (pointInvariant_locked now) rfl
    | nil =>
      simp only [questionNext]
      split
      · exact inv.moves here trivial rfl
      · split
        · rename_i decided
          have kept := pointInvariant_decided now decided
          exact inv.moves here kept rfl
        · exact inv.moves here trivial rfl
        · exact inv.moves here trivial rfl
  | claimed =>
    simp only [questionNext]
    split
    · exact inv.moves here trivial rfl
    · exact inv.claims exclusive here
  | inProgress | notFound => exact inv.moves here trivial rfl
  | committed answer =>
    obtain ⟨row, found, claimed⟩ := now
    simp only [questionNext]
    split
    · have working : row.status ≠ .awaitingUser := by
        rw [claimed.status]
        decide
      exact inv.moves here ⟨row, found, working, claimed.answer⟩ rfl
    · rw [getClaimedUserQuestion_of_claimed inv.asked found claimed]
      obtain ⟨_, rfl⟩ := Table.find?_eq_some_iff.mp found
      exact inv.moves here ⟨row, found, claimed, rfl⟩ rfl
  | resuming => exact inv.moves here now rfl
  | resumeLocked => exact inv.resumes exclusive tick.fits here
  | working => exact inv.moves here now rfl
  | workLocked => exact inv.writes exclusive tick.fits tick.write here
  | parked | returnedInProgress | returnedNotFound | rolledBack => exact inv.moves here now rfl

theorem inv_questionTurn (inv : ClaimInvariant questionId s ∧ s.Exclusive sharesLock)
    (turn : Nat × QuestionTick questionId) :
    ClaimInvariant questionId (questionTurn questionId s turn) ∧
      (questionTurn questionId s turn).Exclusive sharesLock := by
  refine ⟨?_, exclusive_advance sharesLock _ sharesLock_symm inv.2 turn⟩
  unfold questionTurn
  rcases advance_cases sharesLock (questionNext questionId) s turn with same | ⟨_, here, _, moved⟩
  · rw [same]
    exact inv.1
  · rw [moved]
    exact inv_next inv.1 inv.2 turn.2 here

theorem inv_questionStart (c : Conversation) (answers : List String)
    (one : c.runs.AtMostOne (asksQuestion questionId)) :
    ClaimInvariant questionId (questionStart c answers) ∧
      (questionStart c answers).Exclusive sharesLock := by
  have requested {i : Nat} {point : QuestionCall}
      (here : (questionStart c answers).calls[i]? = some point) :
      ∃ answer, point = .requested answer := by
    obtain ⟨answer, _, same⟩ := List.mem_map.mp (List.mem_of_getElem? here)
    exact ⟨answer, same.symm⟩
  have unclaimed : (questionStart c answers).calls.filterMap QuestionCall.claim = [] := by
    refine List.filterMap_eq_nil_iff.mpr fun point member => ?_
    obtain ⟨answer, _, rfl⟩ := List.mem_map.mp member
    rfl
  refine ⟨⟨?_, one, ?_, .inl unclaimed⟩, ?_⟩
  · intro i point here
    obtain ⟨answer, rfl⟩ := requested here
    trivial
  · rw [unclaimed]
    rfl
  · intro i j p q _ atI _
    obtain ⟨answer, rfl⟩ := requested atI
    rfl

/-- At most one call has claimed the question, its run has left `awaiting_user` once and no other
run has, and the run carries the answer of that call. -/
structure OneContinuation (stored : Checkpoint → String → String) (questionId : String)
    (s : CallSystem Questioned QuestionCall) : Prop where
  single : (s.calls.filterMap QuestionCall.claim).length ≤ 1
  departed : s.shared.departed = (s.calls.filterMap QuestionCall.claim).map Prod.snd
  answer : ∀ claim ∈ s.calls.filterMap QuestionCall.claim,
    ∀ run ∈ s.shared.conversation.runs.find? claim.2,
      ∀ pending ∈ run.checkpoint.pendingUserQuestion, pending.questionId = questionId →
        pending.answer = some (stored run.checkpoint claim.1)

def WritesAsClaimed (questionId : String) (s : CallSystem Questioned QuestionCall)
    (turn : Nat × QuestionTick questionId) : Prop :=
  ∀ point ∈ (questionTurn questionId s turn).calls[turn.1]?, point.claim = none →
    (questionTurn questionId s turn).shared = s.shared

theorem answerStored_of_claim {questionId : String} {c : Conversation} {point : QuestionCall}
    {claim : String × Uuid} {run : AgentRun} (holds : PointInvariant questionId c point)
    (own : point.claim = some claim) (found : c.runs.find? claim.2 = some run) :
    AnswerStored questionId claim.1 run := by
  cases point with
  | committed answer =>
    cases own
    obtain ⟨row, stored, claimed⟩ := holds
    cases Option.some.inj (found.symm.trans stored)
    exact claimed.answer
  | resuming answer runId checkpoint | resumeLocked answer runId checkpoint =>
    cases own
    obtain ⟨row, stored, claimed, _⟩ := holds
    cases Option.some.inj (found.symm.trans stored)
    exact claimed.answer
  | working answer runId | workLocked answer runId =>
    cases own
    obtain ⟨row, stored, _, answered⟩ := holds
    cases Option.some.inj (found.symm.trans stored)
    exact answered
  | parked =>
    cases own
    obtain ⟨row, stored, silent⟩ := holds
    cases Option.some.inj (found.symm.trans stored)
    intro pending isPending named
    have asks : asksQuestion questionId run = true := asksQuestion_iff.mpr ⟨pending, isPending, named⟩
    rw [silent] at asks
    cases asks
  | _ => cases own

theorem oneContinuation_of_inv {questionId : String} {s : CallSystem Questioned QuestionCall}
    (inv : ClaimInvariant questionId s) : OneContinuation storedAnswer questionId s := by
  refine ⟨?_, inv.departed, ?_⟩
  · rcases inv.taken with none | ⟨⟨claim, one⟩, _⟩
    · rw [none]
      exact Nat.zero_le 1
    · rw [one]
      exact le_rfl
  · intro claim member run found
    obtain ⟨point, pointMember, own⟩ := List.mem_filterMap.mp member
    obtain ⟨i, here⟩ := List.mem_iff_getElem?.mp pointMember
    exact answerStored_of_claim (inv.points i point here) own found

theorem writesAsClaimed (questionId : String) (s : CallSystem Questioned QuestionCall)
    (turn : Nat × QuestionTick questionId) : WritesAsClaimed questionId s turn := by
  intro after at_turn unclaimed
  unfold questionTurn at at_turn ⊢
  rcases advance_cases sharesLock (questionNext questionId) s turn with
    same | ⟨point, here, _, moved⟩
  · rw [same]
  · rw [moved] at at_turn ⊢
    have isNew : after = (questionNext questionId turn.2 s.shared point).2 := by
      rcases (getElem?_set_iff here).mp at_turn with ⟨_, new⟩ | ⟨other, _⟩
      · exact new
      · exact absurd rfl other
    subst isNew
    cases point with
    | locking answer todo =>
      cases todo with
      | cons =>
        simp only [questionNext]
        split <;> rfl
      | nil =>
        simp only [questionNext]
        split
        · rfl
        · split <;> rfl
    | claimed answer found held =>
      simp only [questionNext] at unclaimed ⊢
      split at unclaimed
      · rename_i rolled
        rw [if_pos rolled]
      · cases unclaimed
    | committed =>
      simp only [questionNext]
      split
      · rfl
      · split <;> rfl
    | resumeLocked => cases unclaimed
    | workLocked =>
      simp only [questionNext] at unclaimed
      split at unclaimed <;> cases unclaimed
    | _ => rfl

/-- Any number of calls for one question, in any order of their steps and with any of them rolled
back: at most one claims it, its run leaves `awaiting_user` once and carries that answer, and the
other calls change nothing. The worker joins the blanks of the answer when it goes on with it. -/
theorem answer_starts_one_continuation (questionId : String) (c : Conversation)
    (answers : List String) (one : c.runs.AtMostOne (asksQuestion questionId))
    (turns : List (Nat × QuestionTick questionId)) :
    (∀ s ∈ trace (questionTurn questionId) (questionStart c answers) turns,
      OneContinuation storedAnswer questionId s) ∧
    Guarded (WritesAsClaimed questionId) (questionTurn questionId) (questionStart c answers)
      turns := by
  constructor
  · intro s member
    have kept : ClaimInvariant questionId s ∧ s.Exclusive sharesLock :=
      invariant_of_keeps
        (I := fun reached => ClaimInvariant questionId reached ∧ reached.Exclusive sharesLock)
        (fun _ turn inv => inv_questionTurn inv turn) (inv_questionStart c answers one) turns s
        member
    exact oneContinuation_of_inv kept.1
  · exact guarded_of_step _ (writesAsClaimed questionId) _ turns

def waitingForAnswer : Conversation :=
  (Conversation.empty.createRun 0 7 1 none true).updateCheckpoint 1 7 (some .awaitingUser)
    (some { Checkpoint.empty with pendingUserQuestion := some ⟨"q", none, none⟩ }) none true

def stepsOf (call count : Nat) : List (Nat × QuestionTick "q") :=
  List.replicate count (call, ⟨2, false, true, .finish .ready none (by decide)⟩)

/-- Two answers, of which the second one waits for the lock of the first. -/
theorem second_answer_starts_nothing :
    (∀ s ∈ trace (questionTurn "q") (questionStart waitingForAnswer ["yes", "no"])
      (stepsOf 0 2 ++ stepsOf 1 2 ++ stepsOf 0 4 ++ stepsOf 1 3),
      OneContinuation storedAnswer "q" s) ∧
    Guarded (WritesAsClaimed "q") (questionTurn "q") (questionStart waitingForAnswer ["yes", "no"])
      (stepsOf 0 2 ++ stepsOf 1 2 ++ stepsOf 0 4 ++ stepsOf 1 3) :=
  answer_starts_one_continuation "q" waitingForAnswer ["yes", "no"]
    (by unfold Table.AtMostOne; decide) _

/-- The worker goes on with the words of the answer, and stores them in place of the answer. -/
theorem worker_joins_blanks_of_answer :
    ¬ ∀ (questionId : String) (c : Conversation) (answers : List String),
      c.runs.AtMostOne (asksQuestion questionId) →
        ∀ turns : List (Nat × QuestionTick questionId),
          (∀ s ∈ trace (questionTurn questionId) (questionStart c answers) turns,
            OneContinuation (fun _ answer => answer) questionId s) ∧
          Guarded (WritesAsClaimed questionId) (questionTurn questionId) (questionStart c answers)
            turns := by
  intro stored
  have one : waitingForAnswer.runs.AtMostOne (asksQuestion "q") := by
    unfold Table.AtMostOne
    decide
  have last := (stored "q" waitingForAnswer ["a\n b"] one (stepsOf 0 8)).1 _
    (run_mem_trace _ _ _)
  have changed : ¬ ∀ claim ∈ (run (questionTurn "q") (questionStart waitingForAnswer ["a\n b"])
        (stepsOf 0 8)).calls.filterMap QuestionCall.claim,
      ∀ row ∈ (run (questionTurn "q") (questionStart waitingForAnswer ["a\n b"])
          (stepsOf 0 8)).shared.conversation.runs.find? claim.2,
        ∀ pending ∈ row.checkpoint.pendingUserQuestion, pending.questionId = "q" →
          pending.answer = some claim.1 := by decide +kernel
  exact changed last.answer

end AverQel.DeepSpace
