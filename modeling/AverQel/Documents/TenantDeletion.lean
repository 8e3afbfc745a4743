/- digest: The deletion of a workspace: its request, its approval, and the workers that purge it. -/
import AverQel.Base
import Mathlib.Data.Fintype.Basic

namespace AverQel.Documents.Deletion

inductive Status where
  | awaitingApproval
  | queued
  | processing
  | completed
  | failed
  | cancelled
  deriving DecidableEq

inductive ApprovalMode where
  | twoAdmin
  | singleAdminDelayed
  deriving DecidableEq

/-- The columns of `data_deletions` that decide about a purge. -/
structure DataDeletion where
  requestedByUserId : Uuid
  status : Status
  approvalMode : ApprovalMode
  selfApprovalNotBefore : Option Time
  approvedByUserId : Option Uuid
  approvedAt : Option Time
  deriving DecidableEq

/-- The audit events of a deletion, with their actors and details. -/
inductive AuditEvent where
  | requested (actor : Uuid) (selfApprovalNotBefore : Time)
  | approved (actor : Uuid)
  | selfApproved (actor : Uuid) (createdAt : Time)
  | cancelled (actor : Uuid)
  | queueFailed (actor : Uuid)
  | executionBlocked
  | completed
  | failed
  deriving DecidableEq

def notFound : ApiError :=
  ⟨"DATA_DELETION_NOT_FOUND", "Deletion request was not found for tenant.", 404⟩
def requesterOnly (message : String) : ApiError := ⟨"DELETION_REQUESTER_ONLY", message, 403⟩
def notAwaiting (message : String) : ApiError :=
  ⟨"DATA_DELETION_NOT_AWAITING_APPROVAL", message, 409⟩

def requestDeletion (delay : Time) (userId : Uuid) (now : Time) : DataDeletion × AuditEvent :=
  (⟨userId, .awaitingApproval, .twoAdmin, some (now + delay), none, none⟩,
    .requested userId (now + delay))

def approveDeletion (row : Option DataDeletion) (userId : Uuid) (now : Time) :
    Except ApiError (DataDeletion × AuditEvent) :=
  match row with
  | none => .error notFound
  | some row =>
    if row.requestedByUserId = userId then
      .error ⟨"SECOND_APPROVER_REQUIRED",
        "A different authorized administrator must approve this workspace deletion.", 403⟩
    else if row.status ≠ .awaitingApproval then
      .error (notAwaiting "This deletion request is no longer awaiting approval.")
    else
      .ok ({ row with
        status := .queued
        approvalMode := .twoAdmin
        approvedByUserId := some userId
        approvedAt := some now }, .approved userId)

def selfApproveDeletion (row : Option DataDeletion) (userId : Uuid) (now : Time) :
    Except ApiError (DataDeletion × AuditEvent) :=
  match row with
  | none => .error notFound
  | some row =>
    if row.requestedByUserId ≠ userId then
      .error (requesterOnly
        "Only the original administrator can use delayed single-owner approval.")
    else if row.status ≠ .awaitingApproval then
      .error (notAwaiting "This deletion request is no longer awaiting approval.")
    else if row.selfApprovalNotBefore.all fun time => decide (now < time) then
      .error ⟨"DELETION_SELF_APPROVAL_DELAY_ACTIVE",
        "This deletion can be approved by its requester after the configured safety delay.", 409⟩
    else
      .ok ({ row with
        status := .queued
        approvalMode := .singleAdminDelayed
        approvedByUserId := some userId
        approvedAt := some now }, .selfApproved userId now)

def cancelDeletion (row : Option DataDeletion) (userId : Uuid) :
    Except ApiError (DataDeletion × AuditEvent) :=
  match row with
  | none => .error notFound
  | some row =>
    if row.requestedByUserId ≠ userId then
      .error (requesterOnly "Only the administrator who requested deletion can cancel it.")
    else if row.status ≠ .awaitingApproval then
      .error (notAwaiting
        "Only a deletion that is still awaiting approval can be cancelled.")
    else .ok ({ row with status := .cancelled }, .cancelled userId)

namespace DataDeletion

variable (row : DataDeletion)

def secondAdminApprovalValid : Bool :=
  row.approvalMode = .twoAdmin ∧
    row.approvedByUserId.any fun userId => userId ≠ row.requestedByUserId

def delayedSelfApprovalValid (now : Time) : Bool :=
  row.approvalMode = .singleAdminDelayed ∧ row.approvedByUserId = some row.requestedByUserId ∧
    row.approvedAt.any fun approvedAt => row.selfApprovalNotBefore.any fun time =>
      time ≤ approvedAt ∧ time ≤ now

def approvalValid (now : Time) : Bool :=
  row.secondAdminApprovalValid || row.delayedSelfApprovalValid now

end DataDeletion

/-- The tables whose rows a purge counts and deletes. -/
inductive TenantTable where
  | messageVersions
  | messages
  | conversations
  | collectionDocuments
  | collectionPermissions
  | documentCollections
  | comments
  | pinnedFindings
  | queryCitations
  | queries
  | chunkEmbeddings
  | documentChunks
  | ingestionJobs
  | queryDatasetIndexes
  | documents
  | idempotencyKeys
  deriving DecidableEq

instance : Fintype TenantTable where
  elems := {.messageVersions, .messages, .conversations, .collectionDocuments,
    .collectionPermissions, .documentCollections, .comments, .pinnedFindings, .queryCitations,
    .queries, .chunkEmbeddings, .documentChunks, .ingestionJobs, .queryDatasetIndexes, .documents,
    .idempotencyKeys}
  complete table := by cases table <;> decide

/-- The tables whose rows go with the rows of another one. -/
def TenantTable.cascade : TenantTable → List TenantTable
  | .conversations => [.messages, .messageVersions]
  | .documentCollections => [.collectionDocuments, .collectionPermissions]
  | .queries => [.queryCitations, .pinnedFindings]
  | .documentChunks => [.chunkEmbeddings, .queryCitations]
  | .documents => [.collectionDocuments, .documentChunks, .chunkEmbeddings, .ingestionJobs,
      .queryDatasetIndexes, .queryCitations]
  | _ => []

abbrev TenantData := TenantTable → Nat

inductive Statement where
  | applyTenantScope
  | fetchStorageObjects
  | fetchGroundedDatasetObjects
  | deleteObjects
  | count (table : TenantTable)
  | delete (table : TenantTable)

def Statement.execute (data : TenantData) : Statement → TenantData
  | .delete table => fun other => if other = table ∨ other ∈ table.cascade then 0 else data other
  | _ => data

/-- `_purge_tenant_data` -/
def purgeTenantData : List Statement :=
  [.applyTenantScope, .fetchStorageObjects, .fetchGroundedDatasetObjects, .deleteObjects,
    .count .messageVersions, .count .messages, .count .conversations, .count .collectionDocuments,
    .count .collectionPermissions, .count .documentCollections, .count .comments,
    .count .pinnedFindings,
    .delete .queryCitations, .delete .queries, .delete .pinnedFindings, .delete .comments,
    .delete .chunkEmbeddings, .delete .documentChunks, .delete .ingestionJobs,
    .delete .queryDatasetIndexes, .delete .documents, .delete .idempotencyKeys,
    .delete .conversations, .delete .documentCollections]

def purged (data : TenantData) (statements : Nat) : TenantData :=
  (purgeTenantData.take statements).foldl Statement.execute data

/-- How far a `process_deletion` has come: before its first query, before the commit of what it
has decided on the row that it read, in its purge, or in its failure handler. -/
inductive Worker where
  | arriving
  | blocking (row : DataDeletion)
  | marking
  | purging (statements : Nat)
  | failing (statements : Nat)
  | returned
  | raised
  deriving DecidableEq

/-- How far a `mark_enqueue_failed` has come. -/
inductive Marker where
  | arriving (actor : Uuid)
  | marking (actor : Uuid) (loaded : Status)
  | ended
  deriving DecidableEq

inductive Event where
  | goes
  | fails (aborts : Bool)
  deriving DecidableEq

/-- The one request of a tenant, with all that works on it. -/
structure Service where
  now : Time
  row : Option DataDeletion
  audit : List AuditEvent
  data : TenantData
  markers : List Marker
  workers : List Worker

inductive Turn where
  | tick (later : Nat)
  | request (userId : Uuid)
  | approve (userId : Uuid)
  | selfApprove (userId : Uuid)
  | cancel (userId : Uuid)
  | marker (i : Nat)
  | worker (i : Nat) (event : Event)
  deriving DecidableEq

namespace Service

variable (s : Service)

def locked (result : Except ApiError (DataDeletion × AuditEvent)) : Service :=
  match result with
  | .error _ => s
  | .ok (row, event) => { s with row := some row, audit := s.audit ++ [event] }

def writeStatus (status : Status) (events : List AuditEvent) : Service :=
  { s with
    row := s.row.map fun row => { row with status := status }
    audit := s.audit ++ events }

/-- `mark_enqueue_failed`. A status that it has loaded as failed is not written. -/
def markEnqueueFailed : Marker → Service × Marker
  | .arriving actor =>
    match s.row with
    | none => (s, .ended)
    | some row => (s, .marking actor row.status)
  | .marking actor loaded =>
    if loaded = .failed then ({ s with audit := s.audit ++ [.queueFailed actor] }, .ended)
    else (s.writeStatus .failed [.queueFailed actor], .ended)
  | .ended => (s, .ended)

/-- The decision of `process_deletion` on the row that it reads. -/
def takeUp : Worker :=
  match s.row with
  | none => .raised
  | some row =>
    if row.status ∈ [.completed, .processing, .awaitingApproval, .cancelled] then .returned
    else if row.status = .queued ∧ row.approvalValid s.now = false then .blocking row
    else .marking

/-- The commit of a request that was queued without a valid approval. -/
def block (loaded : DataDeletion) : Service :=
  { s with
    row := s.row.map fun row =>
      { row with
        status := .awaitingApproval
        approvedByUserId := if loaded.approvedByUserId.isSome then none else row.approvedByUserId
        approvedAt := if loaded.approvedAt.isSome then none else row.approvedAt }
    audit := s.audit ++ [.executionBlocked] }

/-- The next step of `process_deletion`. In an aborted transaction the failure handler fails too. -/
def processDeletion : Event → Worker → Service × Worker
  | .goes, .arriving => (s, s.takeUp)
  | .fails _, .arriving => (s, .raised)
  | .goes, .blocking loaded => (s.block loaded, .returned)
  | .fails _, .blocking _ => (s, .raised)
  | .goes, .marking => (s.writeStatus .processing [], .purging 0)
  | .fails _, .marking => (s, .raised)
  | .goes, .purging statements =>
    if statements < purgeTenantData.length then (s, .purging (statements + 1))
    else
      ({ s.writeStatus .completed [.completed] with data := purged s.data statements }, .returned)
  | .fails aborts, .purging statements => (s, if aborts then .raised else .failing statements)
  | .goes, .failing statements =>
    ({ s.writeStatus .failed [.failed] with data := purged s.data statements }, .raised)
  | .fails _, .failing _ => (s, .raised)
  | _, .returned => (s, .returned)
  | _, .raised => (s, .raised)

def step (delay : Time) (s : Service) : Turn → Service
  | .tick later => { s with now := s.now + later }
  | .request userId =>
    match s.row with
    | none => s.locked (.ok (requestDeletion delay userId s.now))
    | some _ => s
  | .approve userId => s.locked (approveDeletion s.row userId s.now)
  | .selfApprove userId => s.locked (selfApproveDeletion s.row userId s.now)
  | .cancel userId => s.locked (cancelDeletion s.row userId)
  | .marker i =>
    match s.markers[i]? with
    | none => s
    | some marker =>
      let moved := s.markEnqueueFailed marker
      { moved.1 with markers := s.markers.set i moved.2 }
  | .worker i event =>
    match s.workers[i]? with
    | none => s
    | some worker =>
      let moved := s.processDeletion event worker
      { moved.1 with workers := s.workers.set i moved.2 }

end Service

end AverQel.Documents.Deletion
