/- digest: Concurrent answers to one question, row lock by row lock, with the worker that goes on. -/
import AverQel.DeepSpace.AnswerablePause

namespace AverQel.DeepSpace

open Foundation Transition
open Foundation.Interleaving
open Foundation.Text (joinWords strip)
open Conversation (questionClaim)

/-- The runs that `claim_user_question` selects. -/
def RunStatus.mayHoldQuestion (s : RunStatus) : Bool :=
  s = .awaitingUser || s = .running

def continuesQuestion (questionId : String) (run : AgentRun) : Bool :=
  (run.checkpoint.phase = some "question_claimed" ||
    run.checkpoint.phase = some "question_resumed") && asksQuestion questionId run

namespace Conversation

/-- The query of `claim_user_question`. -/
def questionCandidates (c : Conversation) : List AgentRun :=
  c.runsByUpdate.filter (fun run => run.status.mayHoldQuestion)

/-- `get_claimed_user_question` -/
def getClaimedUserQuestion (c : Conversation) (questionId : String) : Option AgentRun :=
  (c.runsByUpdate.filter (fun run => run.status = .running)).find? (continuesQuestion questionId)

/-- The runs that a commit takes out of `awaiting_user`. -/
def departures (c c' : Conversation) : List Uuid :=
  (c.runs.rows.filter (fun run => run.status = .awaitingUser &&
    (c'.runs.find? run.id).any (fun run' => run'.status ≠ .awaitingUser))).map AgentRun.id

end Conversation

def workerPrompt (answer : String) : String := joinWords (strip answer)

def resumedCheckpoint (answer : String) (checkpoint : Checkpoint) : Checkpoint :=
  { checkpoint with
    status := some "running"
    phase := some "question_resumed"
    pendingUserQuestion := checkpoint.pendingUserQuestion.map (fun pending =>
      { pending with answer := some (workerPrompt answer) }) }

/-- A later write of the worker: progress without a question, a pause with a question of its own,
or the end of the run. -/
inductive WorkerWrite (questionId : String) where
  | progress (status : RunStatus) (checkpoint : Checkpoint) (lastError : Option String)
      (works : status ≠ .awaitingUser) (quiet : checkpoint.pendingUserQuestion = none)
  | park (pending : PendingUserQuestion) (clientRequestId : Option String)
      (fresh : pending.questionId ≠ questionId)
  | finish (status : RunStatus) (error : Option String) (ended : status ≠ .awaitingUser)

namespace WorkerWrite

variable {questionId : String}

def apply (now : Time) (fits : Bool) (runId : Uuid) (c : Conversation) :
    WorkerWrite questionId → Conversation
  | progress status checkpoint lastError _ _ =>
    c.updateCheckpoint now runId (some status) (some checkpoint) lastError fits
  | park pending clientRequestId _ =>
    c.updateCheckpoint now runId (some .awaitingUser)
      (some
        { status := some "awaiting_user"
          phase := some "question"
          clientRequestId := clientRequestId
          pendingApproval := none
          pendingUserQuestion := some pending })
      none fits
  | finish status error _ => c.finishRun now runId status error

def parks : WorkerWrite questionId → Bool
  | park .. => true
  | progress .. | finish .. => false

end WorkerWrite

/-- The time of a step, and what the session and the worker make of it. -/
structure QuestionTick (questionId : String) where
  now : Time
  (rollsBack fits : Bool)
  write : WorkerWrite questionId

/-- How far a call has come. A call that committed its claim goes on as the worker that it has
started. -/
inductive QuestionCall where
  | requested (answer : String)
  | locking (answer : String) (todo held : List Uuid) (rows : List AgentRun)
  | claimed (answer : String) (found : AgentRun) (held : List Uuid)
  | inProgress (held : List Uuid)
  | notFound (held : List Uuid)
  | returnedInProgress
  | returnedNotFound
  | rolledBack
  | committed (answer : String) (runId : Uuid)
  | resuming (answer : String) (runId : Uuid) (checkpoint : Checkpoint)
  | resumeLocked (answer : String) (runId : Uuid) (checkpoint : Checkpoint)
  | working (answer : String) (runId : Uuid)
  | workLocked (answer : String) (runId : Uuid)
  | parked (answer : String) (runId : Uuid)

namespace QuestionCall

def locked : QuestionCall → List Uuid
  | locking _ _ held _ | claimed _ _ held | inProgress held | notFound held => held
  | resumeLocked _ runId _ | workLocked _ runId => [runId]
  | requested _ | returnedInProgress | returnedNotFound | rolledBack | committed .. | resuming ..
  | working .. | parked .. => []

def claim : QuestionCall → Option (String × Uuid)
  | committed answer runId | resuming answer runId _ | resumeLocked answer runId _
  | working answer runId | workLocked answer runId | parked answer runId => some (answer, runId)
  | requested _ | locking .. | claimed .. | inProgress _ | notFound _ | returnedInProgress
  | returnedNotFound | rolledBack => none

end QuestionCall

def sharesLock (p q : QuestionCall) : Bool :=
  p.locked.any (fun id => q.locked.contains id)

/-- The rows, and the runs that have left `awaiting_user` so far. -/
structure Questioned where
  conversation : Conversation
  departed : List Uuid

def Questioned.commit (s : Questioned) (c' : Conversation) : Questioned where
  conversation := c'
  departed := s.departed ++ s.conversation.departures c'

/-- The next step of a call, up to the next lock, read or commit. -/
def questionNext (questionId : String) (tick : QuestionTick questionId) (s : Questioned) :
    QuestionCall → Questioned × QuestionCall
  | .requested answer =>
    (s, .locking answer (s.conversation.questionCandidates.map AgentRun.id) [] [])
  | .locking answer (id :: todo) held rows =>
    if tick.rollsBack then (s, .rolledBack)
    else
      -- a row that was waited for is read again, and dropped when it no longer matches
      let row := (s.conversation.runs.find? id).filter (fun run => run.status.mayHoldQuestion)
      (s, .locking answer todo (held ++ [id]) (rows ++ row.toList))
  | .locking answer [] held rows =>
    if tick.rollsBack then (s, .rolledBack)
    else
      match questionClaim questionId rows with
      | some (found, true) => (s, .claimed answer found held)
      | some (_, false) => (s, .inProgress held)
      | none => (s, .notFound held)
  | .claimed answer found _ =>
    if tick.rollsBack then (s, .rolledBack)
    else
      (s.commit (s.conversation.modifyRun found.id (answeredRun tick.now answer) (fun _ => rfl)),
        .committed answer found.id)
  | .inProgress _ => (s, .returnedInProgress)
  | .notFound _ => (s, .returnedNotFound)
  | .committed answer runId =>
    if workerPrompt answer = "" then (s, .working answer runId)
    else
      match s.conversation.getClaimedUserQuestion questionId with
      | some run => (s, .resuming answer run.id run.checkpoint)
      | none => (s, .committed answer runId)
  | .resuming answer runId checkpoint => (s, .resumeLocked answer runId checkpoint)
  | .resumeLocked answer runId checkpoint =>
    (s.commit (s.conversation.updateCheckpoint tick.now runId (some .running)
        (some (resumedCheckpoint answer checkpoint)) none tick.fits),
      .working answer runId)
  | .working answer runId => (s, .workLocked answer runId)
  | .workLocked answer runId =>
    (s.commit (tick.write.apply tick.now tick.fits runId s.conversation),
      if tick.write.parks && tick.fits then .parked answer runId else .working answer runId)
  | .parked answer runId => (s, .parked answer runId)
  | .returnedInProgress => (s, .returnedInProgress)
  | .returnedNotFound => (s, .returnedNotFound)
  | .rolledBack => (s, .rolledBack)

def questionTurn (questionId : String) :
    CallSystem Questioned QuestionCall → Nat × QuestionTick questionId →
      CallSystem Questioned QuestionCall :=
  advance sharesLock (questionNext questionId)

def questionStart (c : Conversation) (answers : List String) :
    CallSystem Questioned QuestionCall :=
  ⟨⟨c, []⟩, answers.map .requested⟩

end AverQel.DeepSpace
