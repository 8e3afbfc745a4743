/- digest: Edits of a queued prompt, its claims and their hand-over, in sessions that keep rows. -/
import AverQel.DeepSpace.TurnMoves
import AverQel.Foundation.Interleaving

namespace AverQel.DeepSpace.Prompts

open Foundation Transition
open Foundation.Text (truncate)

/-- What happens to the prompt of one turn. -/
inductive QueueEvent where
  /-- The turn is stored with this prompt. -/
  | enqueued (prompt : String)
  /-- An edit of the prompt that its caller expects is accepted; `prompt` is what it stores. -/
  | edited (expected prompt : String)
  | claimed
  | released
  /-- The prompt is handed to a worker. -/
  | dispatched (prompt : String)
  deriving DecidableEq, Repr

/-- The prompt that was accepted last; the newest event comes first. -/
def acceptedPrompt : List QueueEvent → Option String
  | [] => none
  | .enqueued prompt :: _ => some prompt
  | .edited _ prompt :: _ => some prompt
  | .claimed :: earlier => acceptedPrompt earlier
  | .released :: earlier => acceptedPrompt earlier
  | .dispatched _ :: earlier => acceptedPrompt earlier

/-- The turn is claimed and not released since. -/
def isClaimed : List QueueEvent → Bool
  | [] => false
  | .claimed :: _ => true
  | .released :: _ => false
  | .enqueued _ :: earlier => isClaimed earlier
  | .edited _ _ :: earlier => isClaimed earlier
  | .dispatched _ :: earlier => isClaimed earlier

def Allowed (earlier : List QueueEvent) : QueueEvent → Prop
  | .edited expected _ => acceptedPrompt earlier = some expected ∧ isClaimed earlier = false
  | .dispatched prompt => acceptedPrompt earlier = some prompt
  | .enqueued _ => True
  | .claimed => True
  | .released => True

instance decidableAllowed (earlier : List QueueEvent) : ∀ event, Decidable (Allowed earlier event)
  | .edited .. | .dispatched .. => by dsimp only [Allowed]; infer_instance
  | .enqueued _ | .claimed | .released => .isTrue trivial

def RunsAsAccepted : List QueueEvent → Prop
  | [] => True
  | event :: earlier => Allowed earlier event ∧ RunsAsAccepted earlier

instance decidableRunsAsAccepted : ∀ events, Decidable (RunsAsAccepted events)
  | [] => .isTrue trivial
  | event :: earlier =>
    have := decidableRunsAsAccepted earlier
    inferInstanceAs (Decidable (Allowed earlier event ∧ RunsAsAccepted earlier))

/-- A call in its database session. A session that has loaded the row before goes on with its copy:
`with_for_update` locks the row and does not refresh it. -/
inductive PromptCall where
  | editing (copy : Option QueuedTurn) (expectedPrompt prompt : String)
  | dispatching (copy : Option QueuedTurn)
  /-- The claim is committed, and the worker has still to get it. -/
  | handing (copy : Option QueuedTurn) (claimed : QueuedTurn)
  /-- The hand-over has failed. -/
  | releasing (copy : Option QueuedTurn)
  | ended
  deriving DecidableEq

namespace PromptCall

def copy : PromptCall → Option QueuedTurn
  | editing copy _ _ => copy
  | dispatching copy => copy
  | handing copy _ => copy
  | releasing copy => copy
  | ended => none

def withCopy (copy : Option QueuedTurn) : PromptCall → PromptCall
  | editing _ expectedPrompt prompt => editing copy expectedPrompt prompt
  | dispatching _ => dispatching copy
  | handing _ claimed => handing copy claimed
  | releasing _ => releasing copy
  | ended => ended

def pending : PromptCall → Bool
  | handing _ _ => true
  | releasing _ => true
  | editing _ _ _ => false
  | dispatching _ => false
  | ended => false

end PromptCall

/-- One queued turn of a conversation, the calls that touch it, and what has happened to it. -/
structure PromptSystem where
  conversation : Conversation
  calls : List PromptCall
  /-- The newest event comes first. -/
  history : List QueueEvent

def flush (loaded written row : QueuedTurn) : QueuedTurn :=
  { row with
    prompt := if written.prompt = loaded.prompt then row.prompt else written.prompt
    status := if written.status = loaded.status then row.status else written.status
    startedAt := if written.startedAt = loaded.startedAt then row.startedAt else written.startedAt }

/-- The checks of `update_queued_prompt`. -/
def editable (turn : QueuedTurn) (expectedPrompt : String) (fits : Bool) : Bool :=
  turn.status = .queued && turn.regenerateMessageId.isNone && turn.prompt = expectedPrompt && fits

def claimTurn (now : Time) (turn : QueuedTurn) : QueuedTurn :=
  { turn with status := .running, startedAt := some now }

def requeueTurn (turn : QueuedTurn) : QueuedTurn :=
  { turn with status := .queued, startedAt := none }

def ownsOperation (requestId : String) (c : Conversation) : Operation → Bool
  | .updateQueuedPrompt id _ _ _ => id = requestId
  | .releaseClaim id => id = requestId
  | .claim => c.claimable.map QueuedTurn.clientRequestId = some requestId
  | _ => false

def observed : Option QueuedTurn → Option QueuedTurn → List QueueEvent
  | none, some turn => [.enqueued turn.prompt]
  | some before, some after =>
    if before.status ≠ .queued ∧ after.status = .queued then [.released] else []
  | _, none => []

inductive PromptMove where
  /-- A call loads the row into its session. -/
  | load (call : Nat)
  /-- The next step of a call; `fits` is the answer of the quota, `delivered` that of the broker. -/
  | go (call : Nat) (now : Time) (fits delivered : Bool)
  /-- Any other transaction on the conversation. -/
  | other (call : Call)

variable (requestId : String)

namespace PromptSystem

variable (s : PromptSystem)

def row : Option QueuedTurn := s.conversation.turns.find? requestId

def setCall (i : Nat) (call : PromptCall) : PromptSystem := { s with calls := s.calls.set i call }

def write (loaded written : QueuedTurn) (i : Nat) (call : PromptCall) (event : List QueueEvent) :
    PromptSystem where
  conversation := s.conversation.modifyTurn requestId (flush loaded written) fun _ => rfl
  calls := s.calls.set i call
  history := event ++ s.history

/-- `update_queued_prompt`, `claim_next` after its recovery, the hand-over of
`dispatch_deepspace_turn_queue` and `release_claim`, each in one transaction under the row locks. -/
def callStep (i : Nat) (now : Time) (fits delivered : Bool) : PromptCall → PromptSystem
  | .editing copy expectedPrompt prompt =>
    match s.row requestId with
    | none => s.setCall i .ended
    | some row =>
      let turn := copy.getD row
      if editable turn expectedPrompt fits then
        s.write requestId turn { turn with prompt := truncate 4000 prompt } i .ended
          [.edited expectedPrompt (truncate 4000 prompt)]
      else s.setCall i .ended
  | .dispatching copy =>
    match s.conversation.claimable with
    | none => s.setCall i .ended
    | some row =>
      if row.clientRequestId = requestId then
        let turn := copy.getD row
        s.write requestId turn (claimTurn now turn) i
          (.handing (copy.map fun _ => claimTurn now turn) (claimTurn now turn)) [.claimed]
      else { s.setCall i .ended with conversation := s.conversation.claim now }
  | .handing copy claimed =>
    if delivered then
      { s.setCall i .ended with history := .dispatched claimed.prompt :: s.history }
    else s.setCall i (.releasing copy)
  | .releasing copy =>
    match s.row requestId with
    | none => s.setCall i .ended
    | some row =>
      if row.status = .running then
        let turn := copy.getD row
        s.write requestId turn (requeueTurn turn) i .ended
          (observed (some row) (some (flush turn (requeueTurn turn) row)))
      else s.setCall i .ended
  | .ended => s

end PromptSystem

open PromptSystem

def promptStep (s : PromptSystem) : PromptMove → PromptSystem
  | .load i =>
    match s.calls[i]? with
    | none => s
    | some call =>
      match s.row requestId with
      | none => s
      | some row => s.setCall i (call.withCopy (some row))
  | .go i now fits delivered =>
    match s.calls[i]? with
    | none => s
    | some call => s.callStep requestId i now fits delivered call
  | .other call =>
    if ownsOperation requestId s.conversation call.operation then s
    else
      let after := step s.conversation call
      { s with
        conversation := after
        history := observed (s.row requestId) (after.turns.find? requestId) ++ s.history }

def startWith (edits : List (String × String)) (dispatchers : Nat) : PromptSystem :=
  ⟨.empty, edits.map (fun edit => .editing none edit.1 edit.2) ++
    List.replicate dispatchers (.dispatching none), []⟩

end AverQel.DeepSpace.Prompts
