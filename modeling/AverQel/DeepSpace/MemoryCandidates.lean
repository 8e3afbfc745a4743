/- digest: Facts taken from a prompt: their extraction, their consolidation and their review. -/
import Mathlib.Data.List.Infix
import Mathlib.Data.List.SplitOn
import AverQel.DeepSpace.Memories
import AverQel.Foundation.Transition

namespace AverQel.DeepSpace

open Foundation

section Extraction

/-- The groups that the patterns of `_candidates_from_prompt` find in a text. -/
structure PromptPatterns where
  explicit : String → Option String
  fact : String → Option (String × String)
  preference : String → Option (String × String)
  workflow : String → Option (String × String)
  decision : String → Option String
  commitment : String → Option String
  goal : String → Option String
  artifact : String → Option (String × String)

structure MemoryCandidate where
  (key value : String)
  explicit : Bool
  deriving DecidableEq, Repr

def blockedTerms : List String :=
  ["password", "api key", "access token", "refresh token", "secret key", "private key",
    "credential", "credit card", "social security", "medical", "diagnosis", "health condition"]

variable (lib : TextLibrary)

/-- `_is_sensitive_candidate` -/
def isSensitiveCandidate (value : String) : Bool :=
  ∃ term ∈ blockedTerms, term.toList <:+: (lib.lower value).toList

/-- The characters of `[a-z0-9]`. -/
def isSlugChar (c : Char) : Bool := c.isLower || c.isDigit

/-- `_slug` -/
def slug (value : String) : String :=
  let words := ((lib.lower value).toList.splitOnP fun c => !isSlugChar c).filter (· ≠ [])
  let joined := Text.truncate 80 ("_".intercalate ((words.take 8).map String.ofList))
  if joined = "" then "memory" else joined

/-- `_structured_candidate` -/
def structuredCandidate (key value : String) (explicit : Bool) : Option MemoryCandidate :=
  let normalizedValue := Text.joinWords value
  if normalizedValue.length < 8 ∨ 1000 < normalizedValue.length then none
  else if isSensitiveCandidate lib normalizedValue then none
  else some ⟨Text.truncate 120 key, normalizedValue, explicit⟩

variable (patterns : PromptPatterns)

/-- The structured forms, in the order in which they are tried; `none` is the error of a named file
without a workflow rule beside it. -/
def structuredForms (text : String) (explicit : Bool) : Option (List (Option MemoryCandidate)) :=
  let form (key value : String) := structuredCandidate lib key value explicit
  let facts := (patterns.fact text).map fun (subject, value) =>
    form ("fact_" ++ slug lib (Text.strip subject))
      ("My " ++ Text.strip subject ++ " is " ++ Text.strip value)
  let preferences := (patterns.preference text).map fun (predicate, value) =>
    form ("preference_" ++ slug lib value) ("I " ++ lib.lower predicate ++ " " ++ Text.strip value)
  let decisions := (patterns.decision text).map fun decision =>
    form ("decision_" ++ slug lib (Text.strip decision)) ("Decision: " ++ Text.strip decision)
  let commitments := (patterns.commitment text).map fun commitment =>
    form ("commitment_" ++ slug lib (Text.strip commitment))
      ("Commitment: " ++ Text.strip commitment)
  let goals := (patterns.goal text).map fun goal =>
    form ("goal_" ++ slug lib (Text.strip goal)) ("Project goal: " ++ Text.strip goal)
  let before := facts.toList ++ preferences.toList ++ decisions.toList ++ commitments.toList ++
    goals.toList
  match patterns.artifact text with
  | none => some before
  | some (name, value) =>
    (patterns.workflow text).map fun (context, rule) =>
      before ++
        [form ("artifact_" ++ slug lib (Text.strip name))
            ("Artifact " ++ Text.strip name ++ ": " ++ Text.strip value),
          form ("workflow_" ++ slug lib context)
            ("For " ++ Text.strip context ++ ", " ++ Text.strip rule)]

/-- `_candidates_from_prompt`: at most `MAX_AUTO_MEMORY_CANDIDATES`. -/
def candidatesFromPrompt (prompt : String) : Option (List MemoryCandidate) :=
  let normalized := Text.joinWords prompt
  if normalized.length < 8 ∨ 2000 < normalized.length then some []
  else
    let explicitMatch := patterns.explicit normalized
    let explicitText := (explicitMatch.map Text.strip).getD ""
    let text := if explicitText = "" then normalized else explicitText
    (structuredForms lib patterns text explicitMatch.isSome).map fun forms =>
      let candidates :=
        if explicitMatch.isSome ∧ forms = [] ∧ explicitText ≠ "" then
          [structuredCandidate lib ("fact_" ++ slug lib explicitText) explicitText true]
        else forms
      (candidates.filterMap id).take 3

end Extraction

section Consolidation

/-- `AgentMemoryPreferences`, as far as a consolidation reads them. -/
structure MemoryPreferences where
  (automaticCaptureEnabled reviewInferredMemories : Bool)
  deriving DecidableEq, Repr

/-- A finished turn of a conversation. -/
structure FinishedTurn where
  (tenantId userId : Uuid)
  (conversationId prompt : String)
  deriving DecidableEq

namespace MemoryCandidate

variable (candidate : MemoryCandidate) (preferences : MemoryPreferences) (turn : FinishedTurn)

def status : String :=
  if candidate.explicit ∨ preferences.reviewInferredMemories = false then "active" else "pending"

def toWrite : FactWrite where
  tenantId := turn.tenantId
  userId := turn.userId
  key := candidate.key
  value := candidate.value
  scope := "user"
  source := some (if candidate.explicit then "explicit_memory_request"
    else "conversation_consolidation")
  conversationId := some turn.conversationId
  status := candidate.status preferences
  expiresAt := none

/-- `existing` in `consolidate_turn`. -/
def existing (memories : Memories) : Option AgentMemory :=
  maxBy AgentMemory.updatedAt (memories.rows.filter fun memory =>
    memory.tenantId = turn.tenantId ∧ memory.userId = turn.userId ∧ memory.scope = .user ∧
      memory.key = candidate.key ∧ memory.status ≠ .archived)

/-- An explicit fact archives the different value that it finds under its key. -/
def archiveExisting (now : Time) (memories : Memories) : Memories :=
  match candidate.existing turn memories with
  | none => memories
  | some existing =>
    if Text.strip existing.value ≠ Text.strip candidate.value ∧ candidate.explicit ∧
        candidate.status preferences = "active" then
      memories.modify existing.id (fun row => { row with status := .archived, updatedAt := now })
        fun _ => rfl
    else memories

end MemoryCandidate

structure StoredCandidate where
  memoryId : Uuid
  (status key : String)
  explicit : Bool
  deriving DecidableEq, Repr

structure Consolidation where
  memories : Memories
  results : List StoredCandidate
  failure : Option StoreFailure

/-- One round of the loop of `consolidate_turn`. Each of its two parts commits. -/
def Consolidation.next (lib : TextLibrary) (preferences : MemoryPreferences) (turn : FinishedTurn)
    (state : Consolidation) (round : StoreAnswers × MemoryCandidate) : Consolidation :=
  if state.failure.isSome then state
  else
    let memories := round.2.archiveExisting preferences turn round.1.now state.memories
    match storeFact lib memories round.1 (round.2.toWrite preferences turn) with
    | .error failure => { state with memories := memories, failure := some failure }
    | .ok (after, id) =>
      { state with
        memories := after
        results := state.results ++ [⟨id,
          if round.2.status preferences = "active" then "saved" else "pending", round.2.key,
          round.2.explicit⟩] }

/-- What `consolidate_turn` returns. -/
inductive TurnResult where
  | blockedSensitive
  | nothing
  | stored (results : List StoredCandidate)
  | failed (failure : StoreFailure)
  | attributeError
  deriving DecidableEq, Repr

variable (lib : TextLibrary) (patterns : PromptPatterns) (preferences : MemoryPreferences)
  (turn : FinishedTurn)

def handledCandidates : List MemoryCandidate :=
  if isSensitiveCandidate lib turn.prompt then []
  else
    let candidates := (candidatesFromPrompt lib patterns turn.prompt).getD []
    if preferences.automaticCaptureEnabled then candidates
    else candidates.filter MemoryCandidate.explicit

def consolidationRounds (answers : Nat → StoreAnswers) : List (StoreAnswers × MemoryCandidate) :=
  (handledCandidates lib patterns preferences turn).zipIdx.map fun (candidate, i) =>
    (answers i, candidate)

/-- `consolidate_turn`, after the preferences have been read. -/
def consolidateTurn (answers : Nat → StoreAnswers) (memories : Memories) : Memories × TurnResult :=
  if isSensitiveCandidate lib turn.prompt then (memories, .blockedSensitive)
  else if candidatesFromPrompt lib patterns turn.prompt = none then (memories, .attributeError)
  else
    let final := Transition.run (Consolidation.next lib preferences turn) ⟨memories, [], none⟩
      (consolidationRounds lib patterns preferences turn answers)
    match final.failure with
    | some failure => (final.memories, .failed failure)
    | none => (final.memories, if final.results = [] then .nothing else .stored final.results)

end Consolidation

/-- A call about one candidate. -/
structure CandidateCall where
  now : Time
  (tenantId userId memoryId : Uuid)
  deriving DecidableEq

def CandidateCall.selects (call : CandidateCall) (memory : AgentMemory) : Bool :=
  memory.id = call.memoryId ∧ memory.tenantId = call.tenantId ∧ memory.userId = call.userId ∧
    memory.status = .pending

def CandidateCall.approved (call : CandidateCall) (memory : AgentMemory) : AgentMemory :=
  if call.selects memory then
    { memory with
      status := .active, source := some "user_approved_consolidation", updatedAt := call.now }
  else memory

theorem CandidateCall.id_approved (call : CandidateCall) (memory : AgentMemory) :
    (call.approved memory).id = memory.id := by
  unfold approved
  split <;> rfl

variable (memories : Memories) (call : CandidateCall)

/-- `approve_memory_candidate` -/
def approveMemoryCandidate : Memories × Option AgentMemory :=
  (memories.mapRows call.approved call.id_approved,
    (memories.rows.find? call.selects).map call.approved)

/-- `reject_memory_candidate` -/
def rejectMemoryCandidate : Memories × Bool :=
  (memories.filter fun memory => !call.selects memory, memories.rows.any call.selects)

end AverQel.DeepSpace
