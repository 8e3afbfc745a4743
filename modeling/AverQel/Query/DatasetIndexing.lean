/- digest: The table index of one document: requests, stale leases, and workers by commit points. -/
import AverQel.Base
import Mathlib.Data.List.Basic

namespace AverQel.Query

abbrev Bytes := List UInt8

structure IndexFailure where
  (code message : String)
deriving DecidableEq, Repr

structure DatasetBuildResult where
  rowCount : Nat
  columns : List (String × String)
  parquetPayload : Bytes
deriving DecidableEq, Repr

/-- The digest of a payload, `build_parquet_derivative`, which parses it, and the bucket and key
where `put_bytes` stores the result: they depend neither on the worker nor on the content. -/
structure IndexEnvironment where
  sha256 : Bytes → String
  build : Bytes → Except IndexFailure DatasetBuildResult
  derivativePlace : String × String

inductive IndexStatus where
  | queued
  | processing
  | ready
  | failed
deriving DecidableEq, Repr

/-- The row of the document in `query_dataset_indexes`. -/
structure QueryDatasetIndex where
  sourceSha256 : String
  status : IndexStatus
  stage : String
  progress : Nat
  (rowCount columnCount : Option Nat)
  columns : List (String × String)
  derivative : Option (String × String)
  (errorCode errorMessage : Option String)
  updatedAt : Time
deriving DecidableEq, Repr

/-- What indexing reads of the document; `storage` is its bucket and object key. -/
structure SourceDocument where
  sha256Hash : String
  sizeBytes : Nat
  storage : Option (String × String)
  (quarantined scanPassed isDeleted : Bool)
deriving DecidableEq, Repr

/-- `_PROCESSING_STALE_SECONDS` -/
def processingStale : Time := 600 * 1000000

def maxGroundedDatasetBytes : Nat := 25 * 1024 * 1024

namespace QueryDatasetIndex

variable (row : QueryDatasetIndex)

def isStale (now : Time) : Bool := processingStale ≤ now - row.updatedAt

def queuedAgain : QueryDatasetIndex :=
  { row with status := .queued, stage := "queued", progress := 0, errorCode := none,
             errorMessage := none }

def fail (failure : IndexFailure) : QueryDatasetIndex :=
  { row with status := .failed, stage := "failed", progress := 0, errorCode := some failure.code,
             errorMessage := some failure.message }

def stopped : QueryDatasetIndex :=
  row.fail ⟨"DATASET_INDEX_FAILED",
    "Table indexing stopped before it finished. Retry to rebuild it from the saved file."⟩

def first (sha256 : String) (now : Time) : QueryDatasetIndex :=
  ⟨sha256, .queued, "queued", 0, none, none, [], none, none, none, now⟩

def resetTo (sha256 : String) : QueryDatasetIndex :=
  { row.queuedAgain with
    sourceSha256 := sha256, rowCount := none, columnCount := none, columns := [],
    derivative := none }

/-- The assignments of `request_index` to the row that it has read. -/
def requested (sha256 : String) (retry : Bool) (now : Time) : QueryDatasetIndex :=
  if row.sourceSha256 ≠ sha256 then row.resetTo sha256
  else if row.status = .processing ∧ row.isStale now then row.queuedAgain
  else if row.status = .failed ∧ retry then row.queuedAgain
  else row

def loading : QueryDatasetIndex :=
  { row with status := .processing, stage := "loading_source", progress := max row.progress 5,
             errorCode := none, errorMessage := none }

def building : QueryDatasetIndex := { row with progress := 20, stage := "building_index" }

def saving : QueryDatasetIndex := { row with progress := 80, stage := "saving_index" }

def finished (place : String × String) (built : DatasetBuildResult) : QueryDatasetIndex :=
  { row with
    rowCount := some built.rowCount, columnCount := some built.columns.length,
    columns := built.columns, derivative := some place, progress := 100,
    status := .ready, stage := "ready", errorCode := none, errorMessage := none }

def abandoned (failure : IndexFailure) : QueryDatasetIndex :=
  { row.fail ⟨failure.code, String.ofList (failure.message.toList.take 512)⟩ with
    derivative := none, rowCount := none, columnCount := none, columns := [] }

end QueryDatasetIndex

/-- The column is in the `UPDATE` when the session's copy has changed it. -/
def changed {α : Type} [DecidableEq α] (copy new current : α) : α :=
  if new = copy then current else new

/-- A commit that takes the session's copy of a row to `new` while the database holds `current`. -/
def flush (copy new current : QueryDatasetIndex) (now : Time) : QueryDatasetIndex :=
  if new = copy then current
  else
    { sourceSha256 := changed copy.sourceSha256 new.sourceSha256 current.sourceSha256
      status := changed copy.status new.status current.status
      stage := changed copy.stage new.stage current.stage
      progress := changed copy.progress new.progress current.progress
      rowCount := changed copy.rowCount new.rowCount current.rowCount
      columnCount := changed copy.columnCount new.columnCount current.columnCount
      columns := changed copy.columns new.columns current.columns
      derivative := changed copy.derivative new.derivative current.derivative
      errorCode := changed copy.errorCode new.errorCode current.errorCode
      errorMessage := changed copy.errorMessage new.errorMessage current.errorMessage
      updatedAt := now }

/-- A `request_index` that holds the lock of the document row: the index row it has read, if there
was one, and the row it is about to commit. -/
structure IndexRequest where
  copy : Option QueryDatasetIndex
  new : QueryDatasetIndex

/-- Where an `index_document` is. Its copies of the row and of the document are those of its
session, which keeps them when it commits. -/
inductive IndexWorker where
  | started
  | loading (copy : QueryDatasetIndex) (document : SourceDocument)
  | loaded (copy : QueryDatasetIndex) (payload : Bytes)
  | building (copy : QueryDatasetIndex) (payload : Bytes)
  | saving (copy : QueryDatasetIndex) (payload : Bytes) (built : DatasetBuildResult)
  | stored (copy : QueryDatasetIndex) (payload : Bytes) (built : DatasetBuildResult)
  /-- An exception is caught; `stored` tells whether the derivative has been put. -/
  | failing (failure : IndexFailure) (stored : Bool)
  | marking (copy : QueryDatasetIndex) (failure : IndexFailure) (stored : Bool)
  | cleaning
  | done

/-- The index row, the document, the storage and the calls in progress. `hashes` are the hashes
that the document has had, and `sources` the stored source files. -/
structure IndexSystem where
  row : Option QueryDatasetIndex
  document : SourceDocument
  hashes : List String
  sources : String × String → Option Bytes
  derivative : Option Bytes
  request : Option IndexRequest
  workers : List IndexWorker

inductive IndexAction where
  /-- The document gets a new content; its row is free only while no request has locked it. -/
  | changeDocument (payload : Bytes) (place : String × String) (quarantined scanPassed : Bool)
  | deleteDocument
  /-- `request_index` up to its commit. `sha256` is the hash in the session's copy of the document,
  which may be older than the lock; `deletes` tells whether the storage deletes the object. -/
  | requestRead (sha256 : String) (retry deletes : Bool) (now : Time)
  | requestCommit (now : Time)
  | requestRollback
  | failStaleProcessing (now : Time)
  | startWorker
  /-- The next step of a worker, which may raise. -/
  | work (worker : Nat) (raised : Option IndexFailure) (now : Time)

namespace IndexSystem

variable (env : IndexEnvironment) (s : IndexSystem)

def initial (document : SourceDocument) (sources : String × String → Option Bytes) :
    IndexSystem where
  row := none
  document := document
  hashes := [document.sha256Hash]
  sources := sources
  derivative := none
  request := none
  workers := []

def changeDocument (payload : Bytes) (place : String × String) (quarantined scanPassed : Bool) :
    IndexSystem :=
  if s.request.isSome then s
  else
    { s with
      document := ⟨env.sha256 payload, payload.length, some place, quarantined, scanPassed, false⟩
      hashes := env.sha256 payload :: s.hashes
      sources := fun other => if other = place then some payload else s.sources other }

def requestRead (sha256 : String) (retry deletes : Bool) (now : Time) : IndexSystem :=
  if s.request.isSome ∨ s.document.isDeleted ∨ sha256 ∉ s.hashes then s
  else
    match s.row with
    | none => { s with request := some ⟨none, .first sha256 now⟩ }
    | some row =>
      { s with
        request := some ⟨some row, row.requested sha256 retry now⟩
        derivative :=
          if row.sourceSha256 ≠ sha256 ∧ row.derivative.isSome ∧ deletes then none
          else s.derivative }

def requestCommit (now : Time) : IndexSystem :=
  match s.request with
  | none => s
  | some request =>
    { s with
      request := none
      row :=
        match request.copy with
        | none => some (s.row.getD request.new)
        | some copy => s.row.map fun current => flush copy request.new current now }

/-- `fail_stale_processing`, which locks the row. -/
def failStaleProcessing (now : Time) : IndexSystem :=
  { s with
    row := s.row.map fun row =>
      if row.status = .processing ∧ row.isStale now then flush row row.stopped row now else row }

/-- The first transaction of `index_document`, which locks the row: its assignments to the row, and
where the worker goes. -/
def begin (row : QueryDatasetIndex) (document : SourceDocument) (now : Time) :
    QueryDatasetIndex × IndexWorker :=
  if document.isDeleted ∨ row.status = .ready then (row, .done)
  else if row.status = .processing ∧ !row.isStale now then (row, .done)
  else if document.quarantined ∨ !document.scanPassed then
    (row.fail ⟨"DOCUMENT_NOT_SAFE",
      "Documents Hub did not approve this file for table indexing."⟩, .done)
  else if row.sourceSha256 ≠ document.sha256Hash then
    (row.fail ⟨"DATASET_SOURCE_CHANGED",
      "The source file changed. Request indexing again to refresh its table index."⟩, .done)
  else (row.loading, .loading row.loading document)

/-- The payload that a worker loads, by its copy of the document. -/
def load (document : SourceDocument) : Except IndexFailure Bytes :=
  if maxGroundedDatasetBytes < document.sizeBytes then
    .error ⟨"DATASET_FILE_TOO_LARGE",
      "Grounded Query table indexing supports files up to 25 MiB."⟩
  else
    match document.storage with
    | none => .error ⟨"STORAGE_MISSING", "The original file is unavailable."⟩
    | some place =>
      match s.sources place with
      | none => .error ⟨"DATASET_INDEX_FAILED",
          "Table indexing failed. Retry it from Grounded Query."⟩
      | some payload => .ok payload

def commit (copy new : QueryDatasetIndex) (now : Time) : Option QueryDatasetIndex :=
  s.row.map fun current => flush copy new current now

def setWorker (w : Nat) (next : IndexWorker) : IndexSystem :=
  { s with workers := s.workers.set w next }

/-- One step of a worker inside its `try` block. -/
def proceed (w : Nat) (now : Time) : IndexWorker → IndexSystem
  | .loading copy document =>
    match s.load document with
    | .error failure => s.setWorker w (.failing failure false)
    | .ok payload => s.setWorker w (.loaded copy payload)
  | .loaded copy payload =>
    { s.setWorker w (.building copy.building payload) with row := s.commit copy copy.building now }
  | .building copy payload =>
    match env.build payload with
    | .error failure => s.setWorker w (.failing failure false)
    | .ok built =>
      { s.setWorker w (.saving copy.saving payload built) with
        row := s.commit copy copy.saving now }
  | .saving copy payload built =>
    { s.setWorker w (.stored copy payload built) with derivative := some built.parquetPayload }
  | .stored copy _ built =>
    { s.setWorker w .done with row := s.commit copy (copy.finished env.derivativePlace built) now }
  | _ => s

/-- One step of a worker. -/
def work (w : Nat) (raised : Option IndexFailure) (now : Time) : IndexSystem :=
  match s.workers[w]? with
  | none => s
  | some .started =>
    match s.row with
    | none => s.setWorker w .done
    | some row =>
      { s.setWorker w (begin row s.document now).2 with
        row := some (flush row (begin row s.document now).1 row now) }
  | some (.failing failure stored) =>
    match s.row with
    | none => s.setWorker w (if stored then .cleaning else .done)
    | some row => s.setWorker w (.marking row failure stored)
  | some (.marking copy failure stored) =>
    match raised with
    | some _ => s.setWorker w .done
    | none =>
      { s.setWorker w (if stored then .cleaning else .done) with
        row := s.commit copy (copy.abandoned failure) now }
  | some .cleaning =>
    { s.setWorker w .done with derivative := if raised.isSome then s.derivative else none }
  | some .done => s
  | some worker =>
    match raised with
    | none => s.proceed env w now worker
    | some failure =>
      s.setWorker w (.failing failure (match worker with | .stored .. => true | _ => false))

def step : IndexAction → IndexSystem
  | .changeDocument payload place quarantined scanPassed =>
    s.changeDocument env payload place quarantined scanPassed
  | .deleteDocument =>
    if s.request.isSome then s else { s with document := { s.document with isDeleted := true } }
  | .requestRead sha256 retry deletes now => s.requestRead sha256 retry deletes now
  | .requestCommit now => s.requestCommit now
  | .requestRollback => { s with request := none }
  | .failStaleProcessing now => s.failStaleProcessing now
  | .startWorker => { s with workers := s.workers ++ [.started] }
  | .work w raised now => s.work env w raised now

/-- `derivative_profile`: the columns, the row count and the object, or the code of its error. -/
def derivativeProfile : Except String (List (String × String) × Option Nat × Bytes) :=
  match s.row with
  | none => .error "DATASET_NOT_READY"
  | some row =>
    if row.status ≠ .ready ∨ row.derivative = none then .error "DATASET_NOT_READY"
    else
      match s.derivative with
      | none => .error "STORAGE_UNAVAILABLE"
      | some payload =>
        if s.document.isDeleted ∨ s.document.quarantined ∨
            row.sourceSha256 ≠ s.document.sha256Hash then
          .error "DATASET_SOURCE_CHANGED"
        else .ok (row.columns, row.rowCount, payload)

end IndexSystem

variable (copy new current : QueryDatasetIndex) (now : Time)

theorem changed_self {α : Type} [DecidableEq α] (copy current : α) :
    changed copy copy current = current := if_pos rfl

theorem flush_sourceSha256 : (flush copy new current now).sourceSha256 =
    changed copy.sourceSha256 new.sourceSha256 current.sourceSha256 := by
  by_cases same : new = copy
  · rw [flush, if_pos same, same, changed_self]
  · rw [flush, if_neg same]

theorem flush_status : (flush copy new current now).status =
    changed copy.status new.status current.status := by
  by_cases same : new = copy
  · rw [flush, if_pos same, same, changed_self]
  · rw [flush, if_neg same]

theorem flush_rowCount : (flush copy new current now).rowCount =
    changed copy.rowCount new.rowCount current.rowCount := by
  by_cases same : new = copy
  · rw [flush, if_pos same, same, changed_self]
  · rw [flush, if_neg same]

theorem flush_columns : (flush copy new current now).columns =
    changed copy.columns new.columns current.columns := by
  by_cases same : new = copy
  · rw [flush, if_pos same, same, changed_self]
  · rw [flush, if_neg same]

end AverQel.Query
