/- digest: Deleting conversations and Library files, and what happens to their stored objects. -/
import AverQel.Library.AgentFiles

namespace AverQel.Library

open Foundation AverQel.System

/-- `DeepSpaceMediaArtifact`: "A tenant-scoped media result owned by one DeepSpace conversation." -/
structure MediaArtifact where
  (id tenantId userId conversationId : Uuid)
  storageKey : ObjectKey

/-- `StorageCleanupJob`: "Durable, idempotent cleanup work for objects whose owner was deleted." -/
structure StorageCleanupJob where
  (tenantId ownerUserId : Uuid)
  objectKey : ObjectKey
  (status lastError : String)

structure DeletionState (Bytes : Type) where
  lib : LibraryState Bytes
  media : Table MediaArtifact MediaArtifact.id
  jobs : List StorageCleanupJob

/-- Why a publication is rolled back after its object was stored: `finalize_upload` could not flush
its rows, the worker found the upload cancelled or completed, the name was taken at the commit of
the endpoint, or anything else went wrong. -/
inductive RollbackCause where
  | flushFailed | cancelled | completed | nameTaken | failed

/-- Everything but an unforeseen error is followed by a `delete_object`. -/
def RollbackCause.withdraws : RollbackCause → Bool
  | .failed => false
  | _ => true

namespace DeletionState

variable {Bytes : Type} (outcome : Nat → DeleteOutcome) (state : DeletionState Bytes)

/-- The rows without those that `ON DELETE CASCADE` removes with some conversations. -/
def withoutConversations (removed : Conversation → Bool) : DeletionState Bytes :=
  let ids := (state.lib.conversations.filter removed).map Conversation.id
  let files := (state.lib.files.rows.filter fun file => file.conversationId ∈ ids).map WorkspaceFile.id
  { state with
    lib := { state.lib with
      conversations := state.lib.conversations.filter fun c => ¬ removed c
      folders := state.lib.folders.filter fun folder => folder.conversationId ∉ ids
      files := state.lib.files.filter fun file => file.conversationId ∉ ids
      versions := state.lib.versions.filter fun v => v.conversationId ∉ ids ∧ v.fileId ∉ files }
    media := state.media.filter fun artifact => artifact.conversationId ∉ ids }

def withoutFile (fileId : Uuid) : DeletionState Bytes :=
  { state with lib := { state.lib with
      files := state.lib.files.filter fun file => file.id ≠ fileId
      versions := state.lib.versions.filter fun v => v.fileId ≠ fileId } }

def withObjects (objects : ObjectStore Bytes) : DeletionState Bytes :=
  { state with lib := { state.lib with objects := objects } }

variable (tenantId userId : Uuid)

/-- `media_blobs`, `file_blobs` and `version_blobs` -/
def artifactKeys (conversationIds : List Uuid) : List ObjectKey :=
  (state.media.rows.filter fun row => row.tenantId = tenantId ∧ row.userId = userId ∧
      row.conversationId ∈ conversationIds).map MediaArtifact.storageKey ++
    (state.lib.files.rows.filter fun row => row.tenantId = tenantId ∧ row.userId = userId ∧
      row.conversationId ∈ conversationIds).filterMap WorkspaceFile.storageKey ++
    (state.lib.versions.rows.filter fun row => row.tenantId = tenantId ∧ row.userId = userId ∧
      row.conversationId ∈ conversationIds).filterMap WorkspaceFileVersion.storageKey

def cleanupKey (outcome : DeleteOutcome) (key : ObjectKey) : DeletionState Bytes :=
  match deleteObject state.lib.objects key false outcome with
  | (objects, none) => state.withObjects objects
  | (objects, some error) =>
    { state.withObjects objects with
      jobs := state.jobs ++ [⟨tenantId, userId, key, "pending", String.ofList (error.toList.take 1000)⟩] }

/-- The loop, from its call number `n` on. -/
def cleanupKeys : Nat → List ObjectKey → DeletionState Bytes → DeletionState Bytes
  | _, [], state => state
  | n, key :: keys, state =>
    cleanupKeys (n + 1) keys (state.cleanupKey tenantId userId (outcome n) key)

/-- `_cleanup_conversation_artifacts`, on the rows and objects of the state. -/
def cleanupConversationArtifacts (conversationIds : List Uuid) : DeletionState Bytes :=
  if conversationIds = [] then state
  else cleanupKeys outcome tenantId userId 0 (state.artifactKeys tenantId userId conversationIds) state

def selects (conversationIds : List Uuid) (kind : String) (c : Conversation) : Bool :=
  c.tenantId = tenantId ∧ c.id ∈ conversationIds ∧ c.userId = userId ∧ c.kind = kind

def deleteConversations (conversationIds : List Uuid) (kind : String) : DeletionState Bytes × Nat :=
  let cleaned := state.cleanupConversationArtifacts outcome tenantId userId conversationIds
  (cleaned.withoutConversations (selects tenantId userId conversationIds kind),
    cleaned.lib.conversations.countP (selects tenantId userId conversationIds kind))

def deleteConversation (conversationId : Uuid) (kind : String) : DeletionState Bytes × Bool :=
  let deleted := state.deleteConversations outcome tenantId userId [conversationId] kind
  (deleted.1, deleted.2 ≠ 0)

def bulkDeleteConversations (conversationIds : List Uuid) (kind : String) :
    DeletionState Bytes × Nat :=
  if conversationIds = [] then (state, 0)
  else state.deleteConversations outcome tenantId userId conversationIds kind

variable (request : LibraryRequest)

/-- The checks of the endpoint `delete_workspace_file`. -/
def checkDeleteFile (fileId : Uuid) : Except ApiError WorkspaceFile := do
  state.lib.requireConversation request
  state.lib.ownedFile request fileId

/-- The endpoint `delete_workspace_file`; an error of the store other than a refusal ends it. -/
def deleteWorkspaceFile (fileId : Uuid) : Attempt (DeletionState Bytes) Unit :=
  match state.checkDeleteFile request fileId with
  | .error error => .error (state, some error)
  | .ok file =>
    match file.storageKey with
    | none => .ok (state.withoutFile file.id, ())
    | some key =>
      match deleteObject state.lib.objects key false (outcome 0) with
      | (objects, none) => .ok ((state.withObjects objects).withoutFile file.id, ())
      | (objects, some _) => .error (state.withObjects objects, none)

/-- The checks of the tool `delete_workspace_file`. -/
def checkToolDelete (parseUuid : String → Option Uuid) (fileId : String) :
    Except ToolError WorkspaceFile := do
  state.lib.assertConversation request
  let parsed ← (parseUuid fileId).elim (.error (.value "Library file_id is invalid.")) Except.ok
  ((state.lib.files.find? parsed).filter (fun file => file.tenantId = request.tenantId ∧
    file.userId = request.userId ∧ file.conversationId = request.conversationId)).elim
      (.error (.value "DeepSpace Library file not found.")) Except.ok

/-- The tool `delete_workspace_file` of the agent, which returns the name of the file: "Delete one
authorized Library file; recursive/path deletes are impossible." -/
def toolDeleteWorkspaceFile (parseUuid : String → Option Uuid) (fileId : String) :
    Except ToolError (DeletionState Bytes × String) :=
  match state.checkToolDelete request parseUuid fileId with
  | .error error => .error error
  | .ok file => .ok (state.withoutFile file.id, file.name)

/-- Roll a publication back: the session forgets the file and its version, and the object is
deleted. -/
def rollBackPublication (fileId : Uuid) (cause : RollbackCause) : DeletionState Bytes :=
  match state.lib.files.find? fileId with
  | none => state
  | some record =>
    match record.storageKey with
    | none => state.withoutFile fileId
    | some key =>
      if cause.withdraws then
        (state.withObjects (deleteObject state.lib.objects key false (outcome 0)).1).withoutFile fileId
      else state.withoutFile fileId

end DeletionState

/-- The deletions; the state of a rolled back publication is the one that its session sees. -/
inductive DeletionCall where
  | conversation (tenantId userId conversationId : Uuid) (kind : String)
  | conversations (tenantId userId : Uuid) (conversationIds : List Uuid) (kind : String)
  | file (request : LibraryRequest) (fileId : Uuid)
  | toolFile (request : LibraryRequest) (fileId : String)
  | publication (fileId : Uuid) (cause : RollbackCause)

/-- The state after a deletion; `outcome n` is the answer to its call number `n` of the store. -/
def DeletionState.delete {Bytes : Type} (parseUuid : String → Option Uuid)
    (outcome : Nat → DeleteOutcome) (state : DeletionState Bytes) : DeletionCall → DeletionState Bytes
  | .conversation tenantId userId conversationId kind =>
    (state.deleteConversation outcome tenantId userId conversationId kind).1
  | .conversations tenantId userId conversationIds kind =>
    (state.bulkDeleteConversations outcome tenantId userId conversationIds kind).1
  | .file request fileId => (state.deleteWorkspaceFile outcome request fileId).state
  | .toolFile request fileId =>
    match state.toolDeleteWorkspaceFile request parseUuid fileId with
    | .error _ => state
    | .ok (deleted, _) => deleted
  | .publication fileId cause => state.rollBackPublication outcome fileId cause

end AverQel.Library
