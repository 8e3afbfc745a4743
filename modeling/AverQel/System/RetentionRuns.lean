/- digest: The retention policy of a tenant, its scan runs, and the calls of one retention scan. -/
import AverQel.Auth.Roles
import AverQel.System.ArchiveAgreement

namespace AverQel.System

open Auth (Lower)
open Foundation

inductive RetentionRunStatus where
  | running
  | preview
  | complete
  deriving DecidableEq, Repr

inductive RetentionRunKind where
  | scan
  | preview
  | archive
  deriving DecidableEq, Repr

/-- `storage_retention_runs` -/
structure RetentionRun where
  (id tenantId : Uuid)
  policyVersion : Int
  retentionMode : String
  retentionDays : Int
  status : RetentionRunStatus
  operation : RetentionRunKind
  checkpointCursor : Option String
  leaseUntil : Option Time
  (candidateCount protectedCount : Nat)
  startedAt : Time
  completedAt : Option Time
  deriving DecidableEq, Repr

abbrev RetentionRuns := Table RetentionRun RetentionRun.id

def minute : Time := 60 * 1000000

namespace RetentionRun

variable (run : RetentionRun)

def scanning (tenantId : Uuid) : Bool :=
  run.tenantId = tenantId ∧ run.operation = .scan ∧ run.status = .running

def leased (now : Time) : Bool := run.leaseUntil.any (fun limit => now < limit)

/-- The scan run that a claim adds. -/
def newScan (runId tenantId : Uuid) (policy : RetentionPolicy) (leaseMinutes : Int) (now : Time) :
    RetentionRun where
  id := runId
  tenantId := tenantId
  policyVersion := policy.version
  retentionMode := policy.mode
  retentionDays := policy.days
  status := .running
  operation := .scan
  checkpointCursor := some "start"
  leaseUntil := some (now + max 1 leaseMinutes * minute)
  candidateCount := 0
  protectedCount := 0
  startedAt := now
  completedAt := none

def reclaimed (policy : RetentionPolicy) (leaseMinutes : Int) (now : Time) : RetentionRun :=
  { run with
    policyVersion := policy.version
    retentionMode := policy.mode
    retentionDays := policy.days
    leaseUntil := some (now + max 1 leaseMinutes * minute) }

def advanced (cursor : String) (now : Time) : RetentionRun :=
  { run with
    checkpointCursor := some (Text.truncate 255 cursor)
    leaseUntil := some (now + 15 * minute) }

def completed (candidateCount protectedCount : Nat) (now : Time) : RetentionRun :=
  { run with
    checkpointCursor := some "complete"
    candidateCount := candidateCount
    protectedCount := protectedCount
    status := .complete
    leaseUntil := none
    completedAt := some now }

end RetentionRun

namespace RetentionRuns

variable (runs : RetentionRuns)

def scanRun (tenantId : Uuid) (free : RetentionRun → Bool) : Option RetentionRun :=
  (descending RetentionRun.startedAt
    (runs.rows.filter fun run => run.scanning tenantId && free run)).head?

/-- What a claim writes once it has read `found`, with the run that it returns. -/
def claimScan (found : Option RetentionRun) (runId tenantId : Uuid) (policy : RetentionPolicy)
    (leaseMinutes : Int) (now : Time) : Option (RetentionRuns × RetentionRun) :=
  match found with
  | none =>
    let run := RetentionRun.newScan runId tenantId policy leaseMinutes now
    (runs.insert? run).map fun runs => (runs, run)
  | some run =>
    some (runs.modify run.id (fun row => row.reclaimed policy leaseMinutes now) (fun _ => rfl),
      run.reclaimed policy leaseMinutes now)

/-- `advance_scan_run` -/
def advanceScanRun (tenantId runId : Uuid) (cursor : String) (now : Time) :
    Except LifecycleError RetentionRuns :=
  match (runs.find? runId).filter (fun run => run.scanning tenantId) with
  | none => .error (.value "Retention scan lease is no longer owned.")
  | some run => .ok (runs.modify run.id (fun row => row.advanced cursor now) (fun _ => rfl))

/-- `complete_scan_run` -/
def completeScanRun (tenantId runId : Uuid) (candidateCount protectedCount : Nat) (now : Time) :
    RetentionRuns :=
  match (runs.find? runId).filter (fun run => run.tenantId = tenantId) with
  | none => runs
  | some run =>
    runs.modify run.id (fun row => row.completed candidateCount protectedCount now) (fun _ => rfl)

end RetentionRuns

structure RetentionStore where
  lifecycle : LifecycleStore
  runs : RetentionRuns

namespace LifecycleStore

def setPolicy (s : LifecycleStore) (lower : Lower) (tenantId : Uuid) (mode : String) :
    Except LifecycleError (LifecycleStore × RetentionPolicy) :=
  let normalized := lower (Text.strip mode)
  match retentionDaysByMode normalized with
  | none => .error (.value "Retention must be Off, 30, 60, or 90 days.")
  | some _ =>
    let version := (s.retention tenantId).elim 1 RetentionSetting.retentionPolicyVersion
    let after := { s with
      retention := Function.update s.retention tenantId (some ⟨normalized, max 1 version + 1⟩) }
    .ok (after, after.policy tenantId)

end LifecycleStore

namespace RetentionStore

variable (s : RetentionStore)

def setPolicy (lower : Lower) (tenantId : Uuid) (mode : String) :
    Except LifecycleError RetentionStore :=
  (s.lifecycle.setPolicy lower tenantId mode).map fun result => { s with lifecycle := result.1 }

/-- `claim_scan_run` -/
def claimScanRun (tenantId runId : Uuid) (leaseMinutes : Int) (now : Time) :
    Except LifecycleError (RetentionStore × Option RetentionRun) :=
  let found := s.runs.scanRun tenantId (fun _ => true)
  if found.any (fun run => run.leased now) then .ok (s, none)
  else
    match s.runs.claimScan found runId tenantId (s.lifecycle.policy tenantId) leaseMinutes now with
    | none => .error .database
    | some (runs, run) => .ok ({ s with runs := runs }, some run)

def advanceScanRun (tenantId runId : Uuid) (cursor : String) (now : Time) :
    Except LifecycleError RetentionStore :=
  (s.runs.advanceScanRun tenantId runId cursor now).map fun runs => { s with runs := runs }

def completeScanRun (tenantId runId : Uuid) (candidateCount protectedCount : Nat) (now : Time) :
    RetentionStore :=
  { s with runs := s.runs.completeScanRun tenantId runId candidateCount protectedCount now }

/-- The run that `preview` stores with the decisions it makes. -/
def previewRun (runId tenantId : Uuid) (policy : RetentionPolicy) (counts : RetentionPreview)
    (now : Time) : RetentionRun where
  id := runId
  tenantId := tenantId
  policyVersion := policy.version
  retentionMode := policy.mode
  retentionDays := policy.days
  status := .preview
  operation := .preview
  checkpointCursor := none
  leaseUntil := some (now + 15 * minute)
  candidateCount := counts.candidateCount
  protectedCount := counts.protectedCount
  startedAt := now
  completedAt := some now

def preview (conversations : ConversationIndex) (tenantId runId : Uuid) (now : Time) :
    Except LifecycleError (RetentionStore × RetentionPreview) :=
  match s.lifecycle.preview conversations tenantId runId now with
  | .error error => .error error
  | .ok (lifecycle, counts) =>
    if counts.runId.isNone then .ok (s, counts)
    else
      match s.runs.insert? (previewRun runId tenantId (s.lifecycle.policy tenantId) counts now) with
      | none => .error .database
      | some runs => .ok (⟨lifecycle, runs⟩, counts)

/-- The run of the archive stage of a scan, once it is complete. -/
def archiveRun (runId tenantId : Uuid) (policyVersion : Int) (counts : RetentionPreview)
    (archived : Nat) (now : Time) : RetentionRun where
  id := runId
  tenantId := tenantId
  policyVersion := policyVersion
  retentionMode := counts.mode
  retentionDays := counts.days
  status := .complete
  operation := .archive
  checkpointCursor := none
  leaseUntil := none
  candidateCount := archived
  protectedCount := 0
  startedAt := now
  completedAt := some now

/-- The archive stage of `storage_retention_scan`, after a preview that stored `previewRunId`. -/
def archiveStage (conversations : ConversationIndex) (tenantId runId previewRunId : Uuid)
    (counts : RetentionPreview) (now : Time) : Except LifecycleError RetentionStore :=
  let policyVersion := (s.runs.find? previewRunId).elim 1 RetentionRun.policyVersion
  match s.lifecycle.archiveEligibleItems conversations tenantId policyVersion runId 500 now with
  | .error error => .error error
  | .ok (lifecycle, archived) =>
    match s.runs.insert? (archiveRun runId tenantId policyVersion counts archived now) with
    | none => .error .database
    | some runs => .ok ⟨lifecycle, runs⟩

end RetentionStore

/-- What reconciliation sees of one row of a source table. -/
structure SourceRow where
  source : SourceKey
  sizeBytes : Int
  ownerUserId : Option Uuid
  dependencyGroupId : Option String
  updatedAt : Time
  deriving DecidableEq, Repr

/-- The activity that reconciliation records for a row. -/
def SourceRow.activity (row : SourceRow) : Activity where
  source := row.source
  activityKind := "reconciliation"
  sizeBytes := row.sizeBytes
  ownerUserId := row.ownerUserId
  dependencyGroupId := row.dependencyGroupId
  protectedUntil := none
  protectionReason := none
  moment := some row.updatedAt
  replaceSize := true

/-- The calls on the retention index; a scan is one call after the other of its own. -/
inductive RetentionOperation where
  | lifecycle (operation : LifecycleOperation)
  | reconcileTenant (rows : List (Uuid × SourceRow))
  | setPolicy (tenantId : Uuid) (mode : String)
  | claimScanRun (tenantId runId : Uuid) (leaseMinutes : Int)
  | advanceScanRun (tenantId runId : Uuid) (cursor : String)
  | preview (tenantId runId : Uuid)
  | archiveStage (tenantId runId previewRunId : Uuid) (counts : RetentionPreview)
  | completeScanRun (tenantId runId : Uuid) (candidateCount protectedCount : Nat)

structure RetentionCall where
  now : Time
  conversations : ConversationIndex
  operation : RetentionOperation

namespace RetentionStore

def reconcileRow (now : Time) (lifecycle : LifecycleStore) (row : Uuid × SourceRow) :
    Except LifecycleError LifecycleStore :=
  (lifecycle.recordActivity row.1 row.2.activity now).map Prod.fst

/-- `reconcile_tenant`, as far as it changes the index; the rows are recorded in one transaction. -/
def reconcileTenant (s : RetentionStore) (rows : List (Uuid × SourceRow)) (now : Time) :
    Except LifecycleError RetentionStore :=
  (rows.foldlM (reconcileRow now) s.lifecycle).map fun lifecycle =>
    { s with lifecycle := lifecycle }

def committed {ε α : Type} (s : RetentionStore) (state : α → RetentionStore) :
    Except ε α → RetentionStore
  | .ok result => state result
  | .error _ => s

def step (lower : Lower) (s : RetentionStore) (call : RetentionCall) : RetentionStore :=
  match call.operation with
  | .lifecycle operation =>
    { s with lifecycle := s.lifecycle.step ⟨call.now, call.conversations, operation⟩ }
  | .reconcileTenant rows => s.committed id (s.reconcileTenant rows call.now)
  | .setPolicy tenantId mode => s.committed id (s.setPolicy lower tenantId mode)
  | .claimScanRun tenantId runId leaseMinutes =>
    s.committed Prod.fst (s.claimScanRun tenantId runId leaseMinutes call.now)
  | .advanceScanRun tenantId runId cursor =>
    s.committed id (s.advanceScanRun tenantId runId cursor call.now)
  | .preview tenantId runId =>
    s.committed Prod.fst (s.preview call.conversations tenantId runId call.now)
  | .archiveStage tenantId runId previewRunId counts =>
    s.committed id
      (s.archiveStage call.conversations tenantId runId previewRunId counts call.now)
  | .completeScanRun tenantId runId candidateCount protectedCount =>
    s.completeScanRun tenantId runId candidateCount protectedCount call.now

end RetentionStore

end AverQel.System
