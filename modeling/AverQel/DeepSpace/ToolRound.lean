/- digest: The tail of a tool round that asks its user: frames, checkpoint writes, and the answers. -/
import AverQel.DeepSpace.ApprovalRace

namespace AverQel.DeepSpace

open Foundation.Interleaving
open Foundation.Text (nonempty)
open Conversation (alreadyResolved questionClaim)

inductive Ask where
  | approval (id : String)
  | question (id : String)
  deriving DecidableEq, Repr

namespace Ask

def id : Ask → String
  | approval id | question id => id

def status : Ask → RunStatus
  | approval _ => .awaitingApproval
  | question _ => .awaitingUser

/-- The checkpoint of a run that waits. -/
def checkpoint (clientRequestId : Option String) : Ask → Checkpoint
  | approval id =>
    { Checkpoint.empty with
      status := some "awaiting_approval"
      phase := some "approval"
      pendingApproval := some ⟨id, some "pending", none⟩ }
  | question id =>
    { Checkpoint.empty with
      status := some "awaiting_user"
      phase := some "question"
      clientRequestId := nonempty clientRequestId
      pendingUserQuestion := some ⟨id, none, none⟩ }

def asks : Ask → AgentRun → Bool
  | approval id, run => asksFor id run
  | question id, run => asksQuestion id run

/-- The checkpoint carries the request without a decision or an answer. -/
def pendingIn : Ask → AgentRun → Bool
  | approval id, run =>
    run.checkpoint.pendingApproval.any (fun pending =>
      pending.approvalId = id && !alreadyResolved pending)
  | question id, run =>
    run.checkpoint.pendingUserQuestion.any (fun pending =>
      pending.questionId = id && pending.answer.isNone)

def waitsIn (ask : Ask) (run : AgentRun) : Bool :=
  ask.pendingIn run || (ask.asks run && run.status = ask.status)

end Ask

/-- `get_run_for_user_question` -/
def Conversation.getRunForUserQuestion (c : Conversation) (questionId : String) :
    Option AgentRun :=
  ((c.runsByUpdate.filter (fun run => run.status = .awaitingUser)).take 25).find?
    (asksQuestion questionId)

def Conversation.runFor (c : Conversation) : Ask → Option AgentRun
  | .approval id => c.getRunForApproval id
  | .question id => c.getRunForUserQuestion id

def FoundPending (ask : Ask) (runId : Uuid) (c : Conversation) : Prop :=
  ∃ run, c.runFor ask = some run ∧ run.id = runId ∧ ask.pendingIn run = true

/-- The cancellation of the run was requested: `is_cancel_requested`. -/
def isCancelRequested (runId : Uuid) (c : Conversation) : Bool :=
  (c.runs.find? runId).any AgentRun.cancelRequested

/-- Where the worker is. A round with an approval request goes through `request` to
`executingStep`, a round of results through `result` to `resultFrames`, once for each result; a
result of `ask_user` names its question. `prose` is a clarification in plain text. -/
inductive WorkerPoint where
  | request (id : String)
  | requestStep (id : String)
  | permissionFrame (id : String)
  | approvalFrame (id : String)
  | executing (id : String)
  | executingStep (id : String)
  | result (rest : List (Option String)) (last : Option String)
  | resultCheckpoint (question : Option String) (rest : List (Option String))
      (last : Option String)
  | resultFrames (question : Option String) (rest : List (Option String)) (last : Option String)
  | prose (id : String)
  | cancelCheck (ask : Ask)
  | park (ask : Ask)
  | ended
  deriving DecidableEq, Repr

/-- The rows and the clock, the point of the worker, and what has become of one request: its
frame was yielded, its decision or answer was accepted. -/
structure Asking where
  conversation : Conversation
  clock : Time
  worker : WorkerPoint
  (announced accepted : Bool)

structure ToolRound where
  ask : Ask
  runId : Uuid
  clientRequestId : Option String

/-- `update_checkpoint` as the worker calls it. -/
def Asking.write (round : ToolRound) (now : Time) (status : RunStatus) (checkpoint : Checkpoint)
    (next : WorkerPoint) (s : Asking) : Asking :=
  { s with
    conversation :=
      s.conversation.updateCheckpoint now round.runId (some status) (some checkpoint) none true
    clock := now
    worker := next }

def Asking.record (round : ToolRound) (now : Time) (next : WorkerPoint) (s : Asking) : Asking :=
  { s with
    conversation := s.conversation.recordStep now round.runId true
    clock := now
    worker := next }

def Asking.announce (round : ToolRound) (now : Time) (ask : Ask) (next : WorkerPoint) (s : Asking) :
    Asking :=
  { s with clock := now, worker := next, announced := s.announced || ask = round.ask }

def Asking.goOn (now : Time) (next : WorkerPoint) (s : Asking) : Asking :=
  { s with clock := now, worker := next }

/-- The next write or frame of the worker. -/
def workerNext (round : ToolRound) (elapsed : Nat) (s : Asking) : Asking :=
  let now := s.clock + elapsed + 1
  match s.worker with
  | .request id =>
    s.write round now .awaitingApproval ((Ask.approval id).checkpoint none) (.requestStep id)
  | .requestStep id => s.record round now (.permissionFrame id)
  | .permissionFrame id => s.announce round now (.approval id) (.approvalFrame id)
  | .approvalFrame id => s.goOn now (.executing id)
  | .executing id =>
    s.write round now .running { Checkpoint.empty with phase := some "executing" }
      (.executingStep id)
  | .executingStep id => s.record round now (.cancelCheck (.approval id))
  | .result [] (some last) => s.goOn now (.cancelCheck (.question last))
  | .result [] none => s.goOn now .ended
  | .result (question :: rest) last => s.record round now (.resultCheckpoint question rest last)
  | .resultCheckpoint question rest last =>
    s.write round now .running
      { Checkpoint.empty with status := some "running", phase := some "tool_result" }
      (.resultFrames question rest last)
  | .resultFrames none rest last => s.goOn now (.result rest last)
  | .resultFrames (some id) rest _ => s.announce round now (.question id) (.result rest (some id))
  | .prose id => s.announce round now (.question id) (.cancelCheck (.question id))
  | .cancelCheck ask =>
    s.goOn now (if isCancelRequested round.runId s.conversation then .ended else .park ask)
  | .park ask => s.write round now ask.status (ask.checkpoint round.clientRequestId) .ended
  | .ended => s.goOn now .ended

/-- A call of the user: `resolve_approval`, `claim_user_question` or `request_cancel`. -/
inductive UserCall where
  | resolving (call : ResolveCall)
  | answering (answer : String)
  | cancelling
  | replied
  deriving DecidableEq, Repr

/-- The answer is the one that `claim_user_question` accepts. -/
def Conversation.claimsQuestion (c : Conversation) (questionId : String) : Bool :=
  match questionClaim questionId
      (c.runsByUpdate.filter (fun run => run.status = .awaitingUser || run.status = .running)) with
  | some (_, claimed) => claimed
  | none => false

/-- The next step of a call that names the request. -/
def userNext (round : ToolRound) (elapsed : Nat) (s : Asking) : UserCall → Asking × UserCall
  | .resolving call =>
    let after := resolveNext round.ask.id elapsed ⟨s.conversation, s.clock⟩ call
    ({ s with
        conversation := after.1.conversation
        clock := after.1.clock
        accepted := s.accepted || call.isChecked },
      .resolving after.2)
  | .answering answer =>
    let now := s.clock + elapsed + 1
    ({ s with
        conversation := s.conversation.claimUserQuestion now round.ask.id answer
        clock := now
        accepted := s.accepted || s.conversation.claimsQuestion round.ask.id },
      .replied)
  | .cancelling =>
    let now := s.clock + elapsed + 1
    ({ s with conversation := s.conversation.requestCancelRuns now, clock := now }, .replied)
  | .replied => (s, .replied)

inductive RoundTurn where
  | worker (elapsed : Nat)
  | user (call elapsed : Nat)
  deriving DecidableEq, Repr

def roundTurn (round : ToolRound) (s : CallSystem Asking UserCall) : RoundTurn → CallSystem Asking UserCall
  | .worker elapsed => { s with shared := workerNext round elapsed s.shared }
  | .user call elapsed => advance (fun _ _ => false) (userNext round) s (call, elapsed)

/-- What the user does about a request. -/
inductive Reply where
  | decide (decision : Conversation.Decision)
  | answer (text : String)
  | cancel
  deriving DecidableEq, Repr

def Reply.call : Reply → UserCall
  | decide decision => .resolving (.requested decision)
  | answer text => .answering text
  | cancel => .cancelling

def roundStart (c : Conversation) (clock : Time) (worker : WorkerPoint) (replies : List Reply) :
    CallSystem Asking UserCall :=
  ⟨⟨c, clock, worker, false, false⟩, replies.map Reply.call⟩

def WorkerPoint.Begins : Ask → WorkerPoint → Prop
  | .approval id, request id' => id' = id
  | .question id, result questions none => some id ∈ questions
  | .question id, prose id' => id' = id
  | _, _ => False

/-- From its frame on, until the decision or answer is accepted or the run is cancelled, the run
is found and pending; once it is accepted, the run does not wait for it again. -/
structure Answerable (round : ToolRound) (s : CallSystem Asking UserCall) : Prop where
  found : s.shared.announced = true → s.shared.accepted = false →
    isCancelRequested round.runId s.shared.conversation = false →
    FoundPending round.ask round.runId s.shared.conversation
  kept : s.shared.accepted = true → ∀ run,
    s.shared.conversation.runs.find? round.runId = some run → round.ask.waitsIn run = false

/-- The execution checkpoint comes after a decision or a cancellation, a question is put only
when the run was cancelled, and an approval is parked only when it was not decided. -/
def WritesInTime (round : ToolRound) (s : CallSystem Asking UserCall) : RoundTurn → Prop
  | .user .. => True
  | .worker _ =>
    match s.shared.worker with
    | .executing _ =>
      s.shared.accepted = true ∨ isCancelRequested round.runId s.shared.conversation = true
    | .resultFrames (some id) _ _ | .prose id =>
      .question id = round.ask → isCancelRequested round.runId s.shared.conversation = true
    | .park (.approval _) => s.shared.accepted = false
    | _ => True

end AverQel.DeepSpace
