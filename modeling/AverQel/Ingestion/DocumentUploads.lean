/- digest: The upload of a document: replay, deduplication, versions, object and rows. -/
import AverQel.Foundation.Interleaving
import AverQel.Foundation.Splitting
import AverQel.Foundation.Table
import AverQel.System.StorageService
import Mathlib.Data.Prod.Lex

namespace AverQel.Ingestion.Uploads

open Foundation Interleaving
open AverQel.System (ObjectKey ObjectStore objectKey)

abbrev Bytes := List UInt8

/-- The arguments of `upload_document`. -/
structure UploadRequest where
  (idempotencyKey filename contentType : String)
  payload : Bytes
  connectorId : Option Uuid
  deriving DecidableEq, Repr

/-- What the service is set up with: the digests of `hashlib`, and its settings. -/
structure UploadService where
  (tenantId userId : Uuid)
  /-- `_validate_upload` lets the request through. -/
  valid : UploadRequest → Bool
  /-- `hashlib.sha256(payload).hexdigest()` -/
  sha256 : Bytes → String
  /-- `compute_fingerprint`: the digest of the four members. -/
  computeFingerprint : String → String → String → Nat → String
  bucket : String
  ingestionMaxAttempts : Nat

def UploadService.fingerprint (service : UploadService) (r : UploadRequest) : String :=
  service.computeFingerprint (service.sha256 r.payload) r.filename r.contentType r.payload.length

/-- `Path(filename).name` -/
def pathName (filename : String) : String :=
  let parts := (Splitting.splitOn ['/'] filename.toList).filter fun part => part ≠ [] ∧ part ≠ ['.']
  String.ofList (parts.getLast?.getD [])

/-- `documents` -/
structure Document where
  (id uploadedByUserId : Uuid)
  (filename contentType : String)
  sizeBytes : Nat
  (sha256Hash storageBucket : String)
  storageObjectKey : ObjectKey
  status : String
  isDeleted : Bool
  parentDocumentId : Option Uuid
  version : Nat
  connectorId : Option Uuid
  deriving DecidableEq

/-- `ingestion_jobs` -/
structure IngestionJob where
  (id documentId : Uuid)
  status : String
  (attemptCount maxAttempts : Nat)
  createdAt : Time
  deriving DecidableEq

/-- `UploadResult`, and the body that is replayed. -/
structure UploadResult where
  documentId : Uuid
  status : String
  ingestionJobId : Uuid
  deriving DecidableEq, Repr

/-- `idempotency_keys` -/
structure IdempotencyKey where
  (idempotencyKey requestFingerprint resourceType : String)
  resourceId : Uuid
  statusCode : Nat
  responseBody : UploadResult
  deriving DecidableEq

/-- The committed rows of the tenant, and the object store. -/
structure UploadStore where
  documents : List Document
  jobs : List IngestionJob
  keys : List IdempotencyKey
  objects : ObjectStore Bytes

namespace UploadStore

def empty : UploadStore := ⟨[], [], [], fun _ => none⟩

variable (s : UploadStore)

/-- `IdempotencyKeysRepository.get` -/
def getKey (idempotencyKey : String) : Option IdempotencyKey :=
  s.keys.find? fun key => key.idempotencyKey = idempotencyKey

/-- The rows that `get_by_hash` reads. -/
def byHash (userId : Uuid) (sha256Hash : String) : List Document :=
  s.documents.filter fun d =>
    d.sha256Hash = sha256Hash ∧ d.isDeleted = false ∧ d.uploadedByUserId = userId

/-- `get_latest_by_filename` -/
def getLatestByFilename (userId : Uuid) (filename : String) : Option Document :=
  maxBy Document.version (s.documents.filter fun d =>
    d.filename = filename ∧ d.isDeleted = false ∧ d.uploadedByUserId = userId)

/-- `IngestionJobsRepository.get_by_document_id` -/
def jobOf (documentId : Uuid) : Option IngestionJob :=
  maxBy (fun job => toLex (job.createdAt, job.id))
    (s.jobs.filter fun job => job.documentId = documentId)

def clashes (document : Document) (job : IngestionJob) (key : IdempotencyKey) : Bool :=
  s.documents.any (fun d => d.id = document.id || d.storageObjectKey = document.storageObjectKey)
    || s.jobs.any (fun other => other.id = job.id)
    || (s.getKey key.idempotencyKey).isSome

/-- `db.commit` -/
def commit (document : Document) (job : IngestionJob) (key : IdempotencyKey) : UploadStore :=
  { s with
    documents := s.documents ++ [document]
    jobs := s.jobs ++ [job]
    keys := s.keys ++ [key] }

end UploadStore

inductive UploadError where
  | invalidUpload
  | idempotencyConflict
  /-- `scalar_one_or_none` finds several rows. -/
  | multipleResults
  | storageQuotaExceeded
  | malwareScanFailed
  | storageUnavailable
  | integrityError
  | ingestionQueueUnavailable
  /-- A statement, a lock or a connection fails. -/
  | databaseError
  deriving DecidableEq, Repr

/-- How far a call has come. From `locked` to `inserted` it holds the lock on the row of the tenant,
which `ensure_capacity` takes. -/
inductive UploadPoint where
  | arrived (r : UploadRequest)
  | replayMissed (r : UploadRequest)
  | hashMissed (r : UploadRequest)
  | locked (r : UploadRequest)
  | versioned (r : UploadRequest) (documentId : Uuid) (parentId : Option Uuid)
      (currentVersion : Nat)
  | stored (r : UploadRequest) (document : Document)
  | inserted (r : UploadRequest) (document : Document) (job : IngestionJob) (key : IdempotencyKey)
  | committed (r : UploadRequest) (result : UploadResult)
  /-- The call has returned; `created` is the document that it has committed. -/
  | returned (r : UploadRequest) (result : UploadResult) (created : Option Uuid)
  | failed (r : UploadRequest) (error : UploadError) (created : Option Uuid)
  deriving DecidableEq

namespace UploadPoint

def request : UploadPoint → UploadRequest
  | arrived r => r
  | replayMissed r => r
  | hashMissed r => r
  | locked r => r
  | versioned r _ _ _ => r
  | stored r _ => r
  | inserted r _ _ _ => r
  | committed r _ => r
  | returned r _ _ => r
  | failed r _ _ => r

def holdsLock : UploadPoint → Bool
  | locked _ => true
  | versioned _ _ _ _ => true
  | stored _ _ => true
  | inserted _ _ _ _ => true
  | arrived _ => false
  | replayMissed _ => false
  | hashMissed _ => false
  | committed _ _ => false
  | returned _ _ _ => false
  | failed _ _ _ => false

/-- The object that a call has stored for a document that is not committed. -/
def storing : UploadPoint → Option ObjectKey
  | stored _ document => some document.storageObjectKey
  | inserted _ document _ _ => some document.storageObjectKey
  | arrived _ => none
  | replayMissed _ => none
  | hashMissed _ => none
  | locked _ => none
  | versioned _ _ _ _ => none
  | committed _ _ => none
  | returned _ _ _ => none
  | failed _ _ _ => none

/-- The document that a call returns. -/
def result : UploadPoint → Option Uuid
  | returned _ result _ => some result.documentId
  | arrived _ => none
  | replayMissed _ => none
  | hashMissed _ => none
  | locked _ => none
  | versioned _ _ _ _ => none
  | stored _ _ => none
  | inserted _ _ _ _ => none
  | committed _ _ => none
  | failed _ _ _ => none

/-- The document that a call has committed. -/
def created : UploadPoint → Option Uuid
  | committed _ result => some result.documentId
  | returned _ _ created => created
  | failed _ _ created => created
  | arrived _ => none
  | replayMissed _ => none
  | hashMissed _ => none
  | locked _ => none
  | versioned _ _ _ _ => none
  | stored _ _ => none
  | inserted _ _ _ _ => none

end UploadPoint

/-- What a step draws: new ids, the time, and whether it fails. -/
structure UploadTurn where
  (documentId jobId : Uuid)
  now : Time
  fails : Option UploadError

variable (service : UploadService)

def newDocument (r : UploadRequest) (documentId : Uuid) (parentId : Option Uuid)
    (currentVersion : Nat) : Document where
  id := documentId
  uploadedByUserId := service.userId
  filename := pathName r.filename
  contentType := r.contentType
  sizeBytes := r.payload.length
  sha256Hash := service.sha256 r.payload
  storageBucket := service.bucket
  storageObjectKey := objectKey service.tenantId documentId (pathName r.filename)
  status := "queued"
  isDeleted := false
  parentDocumentId := parentId
  version := currentVersion
  connectorId := r.connectorId

def newJob (turn : UploadTurn) (document : Document) : IngestionJob :=
  ⟨turn.jobId, document.id, "queued", 0, service.ingestionMaxAttempts, turn.now⟩

def newKey (r : UploadRequest) (document : Document) (job : IngestionJob) : IdempotencyKey where
  idempotencyKey := r.idempotencyKey
  requestFingerprint := service.fingerprint r
  resourceType := "document_upload"
  resourceId := document.id
  statusCode := 200
  responseBody := ⟨document.id, "queued", job.id⟩

/-- `upload_document` from one step to the next. A failure before the commit rolls back. -/
def next (turn : UploadTurn) (s : UploadStore) : UploadPoint → UploadStore × UploadPoint
  | .arrived r =>
    match turn.fails with
    | some error => (s, .failed r error none)
    | none =>
      if service.valid r = false then (s, .failed r .invalidUpload none)
      else
        match s.getKey r.idempotencyKey with
        | none => (s, .replayMissed r)
        | some key =>
          if key.requestFingerprint ≠ service.fingerprint r then
            (s, .failed r .idempotencyConflict none)
          else (s, .returned r key.responseBody none)
  | .replayMissed r =>
    match turn.fails with
    | some error => (s, .failed r error none)
    | none =>
      match s.byHash service.userId (service.sha256 r.payload) with
      | [] => (s, .hashMissed r)
      | [existing] =>
        (s, .returned r
          ⟨existing.id, existing.status, ((s.jobOf existing.id).map IngestionJob.id).getD 0⟩ none)
      | _ :: _ :: _ => (s, .failed r .multipleResults none)
  | .hashMissed r =>
    match turn.fails with
    | some error => (s, .failed r error none)
    | none => (s, .locked r)
  | .locked r =>
    match turn.fails with
    | some error => (s, .failed r error none)
    | none =>
      match s.getLatestByFilename service.userId (pathName r.filename) with
      | none => (s, .versioned r turn.documentId none 1)
      | some latest => (s, .versioned r turn.documentId (some latest.id) (latest.version + 1))
  | .versioned r documentId parentId currentVersion =>
    match turn.fails with
    | some error => (s, .failed r error none)
    | none =>
      let document := newDocument service r documentId parentId currentVersion
      ({ s with objects := s.objects.put document.storageObjectKey r.payload }, .stored r document)
  | .stored r document =>
    let job := newJob service turn document
    let key := newKey service r document job
    match turn.fails with
    | some error => (s, .failed r error none)
    | none =>
      if s.clashes document job key then (s, .failed r .integrityError none)
      else (s, .inserted r document job key)
  | .inserted r document job key =>
    match turn.fails with
    | some error => (s, .failed r error none)
    | none => (s.commit document job key, .committed r key.responseBody)
  | .committed r result =>
    match turn.fails with
    | some error => (s, .failed r error (some result.documentId))
    | none => (s, .returned r result (some result.documentId))
  | .returned r result created => (s, .returned r result created)
  | .failed r error created => (s, .failed r error created)

abbrev UploadSystem := CallSystem UploadStore UploadPoint

def excludes (p q : UploadPoint) : Bool := p.holdsLock && q.holdsLock

def step (s : UploadSystem) (turn : Nat × UploadTurn) : UploadSystem :=
  advance excludes (next service) s turn

def startOf (requests : List UploadRequest) : UploadSystem :=
  ⟨.empty, requests.map UploadPoint.arrived⟩

end AverQel.Ingestion.Uploads
