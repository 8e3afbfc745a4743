/- digest: The memory table of DeepSpace: a fact is stored by one of two branches and read back. -/
import Mathlib.Data.Prod.Lex
import AverQel.Base
import AverQel.Foundation.Fallible
import AverQel.Foundation.Table
import AverQel.Foundation.Text

namespace AverQel.DeepSpace

open Foundation

inductive MemoryStatus where
  | active
  | pending
  | archived
  deriving DecidableEq, Repr

inductive MemoryScope where
  | session
  | user
  | global
  deriving DecidableEq, Repr

/-- `str.lower` and `hashlib.sha256(...).hexdigest()`. -/
structure TextLibrary where
  lower : String → String
  sha256 : String → String

def TextLibrary.plain : TextLibrary where
  lower text := String.ofList (text.toList.map Char.toLower)
  sha256 text := text

namespace MemoryScope

def text : MemoryScope → String
  | session => "session"
  | user => "user"
  | global => "global"

/-- `_normalize_scope` -/
def normalize (lib : TextLibrary) (scope : String) : MemoryScope :=
  let normalized := lib.lower (Text.strip (if scope = "" then "user" else scope))
  if normalized ∈ ["global", "shared"] then global
  else if normalized ∈ ["session", "temporary"] then session
  else user

/-- `_scope_priority_value` -/
def priority : MemoryScope → Nat
  | session => 0
  | user => 1
  | global => 2

end MemoryScope

/-- Seven days, `SESSION_MEMORY_RETENTION_DAYS`. -/
def sessionMemoryRetention : Time := 7 * 24 * 3600 * 1000000

/-- `AgentMemory`: "Persistent DeepSpace memory retained for the productivity workspace." -/
structure AgentMemory where
  (id tenantId userId : Uuid)
  (key value : String)
  contentHash : Option String
  status : MemoryStatus
  (source conversationId : Option String)
  expiresAt : Option Time
  accessCount : Nat
  lastAccessedAt : Option Time
  scope : MemoryScope
  (createdAt updatedAt : Time)
  deriving DecidableEq

abbrev Memories := Table AgentMemory AgentMemory.id

/-- The arguments of `store_fact`. -/
structure FactWrite where
  (tenantId userId : Uuid)
  (key value scope : String)
  (source conversationId : Option String)
  status : String
  expiresAt : Option Time
  deriving DecidableEq

/-- What the rest of the service answers while a fact is stored. -/
structure StoreAnswers where
  now : Time
  newId : Uuid
  /-- The id that the storage of a connected client answers; such a fact is not stored here. -/
  clientStorage : Option Uuid
  (capacity embeds : Bool)
  deriving DecidableEq

inductive StoreFailure where
  | valueError (message : String)
  | quotaExceeded
  | embeddingFailed
  | duplicateId
  deriving DecidableEq, Repr

/-- `_content_hash` -/
def contentHash (lib : TextLibrary) (key value : String) (scope : MemoryScope) : String :=
  lib.sha256 ("\n".intercalate [lib.lower (Text.strip key), Text.strip value, lib.lower scope.text])

namespace FactWrite

variable (lib : TextLibrary) (write : FactWrite)

def normalizedKey : String := Text.strip write.key

def normalizedValue : String := Text.strip write.value

def normalizedScope : MemoryScope := .normalize lib write.scope

def normalizedStatus : MemoryStatus := if write.status = "pending" then .pending else .active

def hash : String :=
  contentHash lib write.normalizedKey write.normalizedValue (write.normalizedScope lib)

def fromUser : Bool :=
  write.source ∈ [some "manual_memory", some "deepspace_memory_tool", some "user_edit"]

def expiry (now : Time) : Option Time :=
  if write.normalizedScope lib = .session ∧ write.expiresAt = none then
    some (now + sessionMemoryRetention)
  else write.expiresAt

/-- `duplicate_stmt`: rows of any status, and of any user when the fact is global. -/
def matchesHash (memory : AgentMemory) : Bool :=
  memory.tenantId = write.tenantId ∧
    (if write.normalizedScope lib = .global then memory.scope = .global
      else memory.userId = write.userId) ∧
    memory.contentHash = some (write.hash lib)

def conflictsWith (memory : AgentMemory) : Bool :=
  memory.tenantId = write.tenantId ∧ memory.userId = write.userId ∧ memory.scope = .user ∧
    memory.status = .active ∧ memory.key = write.normalizedKey

def supersedes : Bool :=
  write.normalizedStatus = .active ∧ write.normalizedScope lib = .user ∧ write.fromUser

/-- What the duplicate branch writes into the row that it has found. -/
def reinforced (now : Time) (memory : AgentMemory) : AgentMemory :=
  { memory with
    key := write.normalizedKey
    value := write.normalizedValue
    contentHash := some (write.hash lib)
    status := write.normalizedStatus
    source := (Text.nonempty write.source).or memory.source
    conversationId := (Text.nonempty write.conversationId).or memory.conversationId
    expiresAt := (write.expiry lib now).or memory.expiresAt
    scope := write.normalizedScope lib
    updatedAt := now }

def superseded (now : Time) (memory : AgentMemory) : AgentMemory :=
  if write.supersedes lib ∧ write.conflictsWith memory then
    { memory with status := .archived, updatedAt := now }
  else memory

/-- The row that the other branch inserts. -/
def inserted (answers : StoreAnswers) : AgentMemory where
  id := answers.newId
  tenantId := write.tenantId
  userId := write.userId
  key := write.normalizedKey
  value := write.normalizedValue
  contentHash := some (write.hash lib)
  status := write.normalizedStatus
  source := (Text.nonempty write.source).map fun text => Text.truncate 120 (Text.strip text)
  conversationId :=
    (Text.nonempty write.conversationId).map fun text => Text.truncate 120 (Text.strip text)
  expiresAt := write.expiry lib answers.now
  accessCount := 0
  lastAccessedAt := none
  scope := write.normalizedScope lib
  createdAt := answers.now
  updatedAt := answers.now

theorem id_superseded (now : Time) (memory : AgentMemory) :
    (write.superseded lib now memory).id = memory.id := by
  unfold superseded
  split <;> rfl

end FactWrite

variable (lib : TextLibrary) (memories : Memories) (answers : StoreAnswers) (write : FactWrite)

/-- `existing` in `store_fact`. -/
def duplicateOf : Option AgentMemory := memories.rows.find? (write.matchesHash lib)

def reinforce (memory : AgentMemory) : Memories :=
  memories.modify memory.id (write.reinforced lib answers.now) fun _ => rfl

def supersede : Memories :=
  memories.mapRows (write.superseded lib answers.now) (write.id_superseded lib answers.now)

/-- `store_fact`: a call that fails is rolled back. -/
def storeFact : Except StoreFailure (Memories × Uuid) := do
  match answers.clientStorage with
  | some id => return (memories, id)
  | none =>
    ensure (write.normalizedKey ≠ "") (StoreFailure.valueError "key is required")
    ensure (write.normalizedValue ≠ "") (StoreFailure.valueError "value is required")
    match duplicateOf lib memories write with
    | some existing =>
      ensure (answers.capacity = true) StoreFailure.quotaExceeded
      return (reinforce lib memories answers write existing, existing.id)
    | none =>
      ensure (answers.embeds = true) StoreFailure.embeddingFailed
      ensure (answers.capacity = true) StoreFailure.quotaExceeded
      match (supersede lib memories answers write).insert? (write.inserted lib answers) with
      | none => .error .duplicateId
      | some after => return (after, answers.newId)

def reachesTable : Bool :=
  answers.clientStorage = none ∧ write.normalizedKey ≠ "" ∧ write.normalizedValue ≠ "" ∧
    answers.capacity

def updatedRow : Option AgentMemory :=
  if reachesTable answers write then duplicateOf lib memories write else none

variable {lib : TextLibrary} {memories after : Memories} {answers : StoreAnswers}
  {write : FactWrite} {id : Uuid}

theorem storeFact_cases (stored : storeFact lib memories answers write = .ok (after, id)) :
    (answers.clientStorage = some id ∧ after = memories) ∨
    (answers.clientStorage = none ∧ ∃ existing, updatedRow lib memories answers write = some existing ∧
      id = existing.id ∧ after = reinforce lib memories answers write existing) ∨
    (answers.clientStorage = none ∧ updatedRow lib memories answers write = none ∧
      duplicateOf lib memories write = none ∧ id = answers.newId ∧
      (supersede lib memories answers write).insert? (write.inserted lib answers) = some after) := by
  unfold storeFact at stored
  cases client : answers.clientStorage with
  | some =>
    rw [client] at stored
    cases stored
    exact Or.inl ⟨rfl, rfl⟩
  | none =>
    rw [client] at stored
    obtain ⟨_, keyed, stored⟩ := bind_eq_ok_iff.mp stored
    obtain ⟨_, valued, stored⟩ := bind_eq_ok_iff.mp stored
    have hasKey := ensure_eq_ok_iff.mp keyed
    have hasValue := ensure_eq_ok_iff.mp valued
    cases found : duplicateOf lib memories write with
    | some existing =>
      rw [found] at stored
      obtain ⟨_, fits, stored⟩ := bind_eq_ok_iff.mp stored
      have capacity := ensure_eq_ok_iff.mp fits
      cases stored
      have reaches : reachesTable answers write = true := by
        simp [reachesTable, client, hasKey, hasValue, capacity]
      exact Or.inr (Or.inl ⟨rfl, existing, by rw [updatedRow, if_pos reaches, found], rfl, rfl⟩)
    | none =>
      rw [found] at stored
      obtain ⟨_, _, stored⟩ := bind_eq_ok_iff.mp stored
      obtain ⟨_, _, stored⟩ := bind_eq_ok_iff.mp stored
      split at stored
      · cases stored
      · rename_i rows inserted
        cases stored
        refine Or.inr (Or.inr ⟨rfl, ?_, rfl, rfl, inserted⟩)
        unfold updatedRow
        rw [found]
        split <;> rfl

theorem storeFact_of_updatedRow {existing : AgentMemory}
    (updated : updatedRow lib memories answers write = some existing) :
    storeFact lib memories answers write =
      .ok (reinforce lib memories answers write existing, existing.id) := by
  obtain ⟨reaches, found⟩ := Option.ite_none_right_eq_some.mp updated
  simp only [reachesTable, decide_eq_true_eq] at reaches
  obtain ⟨client, hasKey, hasValue, capacity⟩ := reaches
  simp [storeFact, client, hasKey, hasValue, capacity, found, ensure]
  rfl

theorem clientStorage_of_updatedRow {existing : AgentMemory}
    (updated : updatedRow lib memories answers write = some existing) :
    answers.clientStorage = none := by
  have reaches := (Option.ite_none_right_eq_some.mp updated).1
  simp only [reachesTable, decide_eq_true_eq] at reaches
  exact reaches.1

theorem mem_of_updatedRow {existing : AgentMemory}
    (updated : updatedRow lib memories answers write = some existing) :
    existing ∈ memories.rows ∧ write.matchesHash lib existing = true := by
  have found := (Option.ite_none_right_eq_some.mp updated).2
  exact ⟨List.mem_of_find?_eq_some found, List.find?_some found⟩

theorem mem_reinforce {existing b : AgentMemory} :
    b ∈ (reinforce lib memories answers write existing).rows ↔
      ∃ a ∈ memories.rows,
        (if a.id = existing.id then write.reinforced lib answers.now a else a) = b := by
  have kept : ∀ a : AgentMemory, (write.reinforced lib answers.now a).id = a.id := fun _ => rfl
  have members : b ∈ (memories.modify existing.id (write.reinforced lib answers.now) kept).rows ↔
      ∃ a ∈ memories.rows,
        (if a.id = existing.id then write.reinforced lib answers.now a else a) = b :=
    Table.mem_modify
  exact members

theorem mem_supersede {b : AgentMemory} :
    b ∈ (supersede lib memories answers write).rows ↔
      ∃ a ∈ memories.rows, write.superseded lib answers.now a = b := by
  have members : b ∈ (memories.mapRows (write.superseded lib answers.now)
      (write.id_superseded lib answers.now)).rows ↔
      ∃ a ∈ memories.rows, write.superseded lib answers.now a = b :=
    Table.mem_mapRows
  exact members

/-- `_accessible_memory_clause` -/
def AgentMemory.accessible (userId : Uuid) (conversationId : Option String)
    (memory : AgentMemory) : Bool :=
  (memory.userId = userId ∧ (memory.scope = .user ∨ memory.scope = .session) ∧
    ∀ id ∈ conversationId, memory.scope ≠ .session ∨ memory.conversationId = some id) ∨
  memory.scope = .global

/-- `_active_memory_clause` -/
def AgentMemory.live (now : Time) (memory : AgentMemory) : Bool :=
  memory.status = .active ∧ ∀ end_ ∈ memory.expiresAt, now < end_

variable (memories : Memories) (now : Time) (tenantId userId : Uuid) (key conversationId : Option String)

/-- The row that `retrieve_fact` reads: "Return the latest fact stored under the provided key." -/
def latestFact : Option AgentMemory :=
  let normalizedKey := Text.strip (key.getD "")
  if normalizedKey = "" then none
  else
    minBy (fun memory => toLex (memory.scope.priority, toLex (-memory.updatedAt, -memory.createdAt)))
      (memories.rows.filter fun memory => memory.tenantId = tenantId ∧
        memory.accessible userId conversationId ∧ memory.live now ∧ memory.key = normalizedKey)

/-- `retrieve_fact`; the count of the access touches the row. -/
def retrieveFact : Memories × Option String :=
  match latestFact memories now tenantId userId key conversationId with
  | none => (memories, none)
  | some memory =>
    (memories.modify memory.id (fun row =>
        { row with accessCount := memory.accessCount + 1, lastAccessedAt := some now, updatedAt := now })
      (fun _ => rfl), some memory.value)

end AverQel.DeepSpace
