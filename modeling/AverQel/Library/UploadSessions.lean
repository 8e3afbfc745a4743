/- digest: Upload sessions of the Library: their row, the chunk, complete and cancel endpoints, and
   the worker that publishes the file. -/
import Mathlib.Data.List.Dedup
import Mathlib.Data.List.Sort
import AverQel.Base
import AverQel.Foundation.Fallible
import AverQel.Foundation.Interleaving
import AverQel.Foundation.Slices

namespace AverQel.Library

open Foundation

inductive UploadStatus where
  | pending | uploading | queued | processing | completed | failed | cancelled
  deriving DecidableEq

/-- `DeepSpaceLibraryUpload`: "Durable, resumable upload session for one Library file." -/
structure LibraryUpload where
  filename : String
  renameOnConflict : Bool
  (expectedSize chunkSize totalChunks : Nat)
  receivedChunks : List Nat
  bytesReceived : Nat
  status : UploadStatus
  fileId : Option Uuid
  errorMessage : Option String

/-- `_LIBRARY_UPLOAD_CHUNK_SIZE` -/
def libraryUploadChunkSize : Nat := 2 * 1024 * 1024

/-- The row that `create_library_upload` adds for a request that it has admitted. -/
def newUpload (filename : String) (renameOnConflict : Bool) (sizeBytes : Nat) : LibraryUpload where
  filename := filename
  renameOnConflict := renameOnConflict
  expectedSize := sizeBytes
  chunkSize := libraryUploadChunkSize
  totalChunks := (sizeBytes + libraryUploadChunkSize - 1) / libraryUploadChunkSize
  receivedChunks := []
  bytesReceived := 0
  status := .pending
  fileId := none
  errorMessage := none

/-- A chunk PUT. The length header may be absent (`none`) or not a number (`some none`). -/
structure ChunkRequest where
  index : Int
  declaredLength : Option (Option Int)
  body : List UInt8

def invalidChunk (message : String) (status : Nat) : ApiError := ⟨"INVALID_CHUNK", message, status⟩

namespace LibraryUpload

/-- The UPDATE of a session: the columns that it has changed since it read the row. -/
def flush (read written row : LibraryUpload) : LibraryUpload :=
  { row with
    filename := if written.filename = read.filename then row.filename else written.filename
    receivedChunks :=
      if written.receivedChunks = read.receivedChunks then row.receivedChunks
      else written.receivedChunks
    bytesReceived :=
      if written.bytesReceived = read.bytesReceived then row.bytesReceived else written.bytesReceived
    status := if written.status = read.status then row.status else written.status
    fileId := if written.fileId = read.fileId then row.fileId else written.fileId
    errorMessage :=
      if written.errorMessage = read.errorMessage then row.errorMessage else written.errorMessage }

variable (upload : LibraryUpload)

def expectedLength (index : Nat) : Nat := Slices.size upload.chunkSize upload.expectedSize index

/-- What `upload_library_chunk` checks before it reads the body. -/
def admitChunk (request : ChunkRequest) : Except ApiError Nat :=
  if upload.status ∈ [UploadStatus.cancelled, .completed, .processing, .failed] then
    .error ⟨"UPLOAD_NOT_ACTIVE", "This upload is no longer accepting chunks.", 409⟩
  else if request.index < 0 ∨ (upload.totalChunks : Int) ≤ request.index then
    .error (invalidChunk "The upload chunk number is invalid." 422)
  else
    match request.declaredLength with
    | some none => .error (invalidChunk "The upload chunk length is invalid." 422)
    | some (some length) =>
      if (upload.chunkSize : Int) < length then
        .error (invalidChunk "The upload chunk is too large." 413)
      else .ok request.index.toNat
    | none => .ok request.index.toNat

def checkBody (index : Nat) (body : List UInt8) : Except ApiError Unit := do
  ensure (body.length ≤ upload.chunkSize) (invalidChunk "The upload chunk is too large." 413)
  ensure (body.length = upload.expectedLength index)
    (invalidChunk "The upload chunk size is invalid." 422)

/-- The chunk numbers of the row as a set, with the new one, sorted; and the bytes they stand for. -/
def recorded (index : Nat) : LibraryUpload :=
  let received := ((index :: upload.receivedChunks).dedup).insertionSort (· ≤ ·)
  { upload with
    receivedChunks := received
    bytesReceived := total upload.expectedLength received
    status := .uploading
    errorMessage := none }

/-- The answer of `complete_library_upload`, before it hands the session to the worker. -/
def admitComplete : Except ApiError Unit :=
  if upload.status = .completed then .ok ()
  else if upload.status = .cancelled then
    .error ⟨"UPLOAD_CANCELLED", "This upload was cancelled.", 409⟩
  else ensure (upload.receivedChunks.length = upload.totalChunks ∧
      upload.bytesReceived = upload.expectedSize)
    ⟨"UPLOAD_INCOMPLETE", "Some upload chunks are still missing.", 409⟩

def queued : LibraryUpload := { upload with status := .queued }

def unqueued : LibraryUpload :=
  { upload with
    status := .failed
    errorMessage := some "The Library upload worker could not be started." }

def withdrawn : LibraryUpload :=
  { upload with status := .cancelled, errorMessage := some "Upload cancelled by the user." }

def claimed : LibraryUpload := { upload with status := .processing, errorMessage := none }

def published (fileId : Uuid) (payload : List UInt8) : LibraryUpload :=
  { upload with
    fileId := some fileId
    bytesReceived := payload.length
    receivedChunks := List.range upload.totalChunks
    status := .completed }

def exhausted : LibraryUpload :=
  { upload with
    status := .failed
    errorMessage := some "The file could not be stored. Please retry the upload." }

end LibraryUpload

def assemble (chunks : Nat → Option (List UInt8)) (totalChunks : Nat) : Option (List UInt8) :=
  ((List.range totalChunks).mapM chunks).map List.flatten

/-- The point that a call has reached; `copy` is the row as the call has read it. -/
inductive UploadPoint where
  | chunkCalled (request : ChunkRequest)
  | receiving (copy : LibraryUpload) (index : Nat) (body : List UInt8)
  /-- The chunk is stored; the commit follows. -/
  | recording (copy : LibraryUpload) (index : Nat)
  | completeCalled
  | queueing (copy : LibraryUpload)
  | delaying (copy : LibraryUpload)
  | unqueueing (copy : LibraryUpload)
  | cancelCalled
  | cancelling (copy : LibraryUpload)
  | finalizeCalled
  | assembling (copy : LibraryUpload)
  | naming (copy : LibraryUpload) (payload : List UInt8)
  /-- From the first flush of `finalize_upload` on, the row is locked until the commit. -/
  | publishing (copy : LibraryUpload) (payload : List UInt8)
  | enqueueing
  | exhausting
  /-- The `finally` of the worker; `status` is the one in memory, `none` after a rollback. -/
  | cleaning (status : Option UploadStatus)
  | returned
  | raised (error : ApiError)

/-- What the surroundings contribute to a step. -/
structure UploadTurn where
  /-- The service that the step calls fails. -/
  fails : Bool
  /-- `self.request.retries < self.max_retries`; a retry is a call of its own. -/
  (retriesLeft conversationExists : Bool)
  /-- What `unique_library_filename` picks. -/
  filename : String
  fileId : Uuid
  /-- Chunks that the store does not delete; the error is swallowed. -/
  undeleted : List Nat

/-- The committed row, the stored chunks, the Library files of the session, and what has happened:
the chunks that were acknowledged, whether a worker was asked for, the files at the first committed
cancellation and the `file_id` of the first completion. -/
structure UploadHistory where
  row : LibraryUpload
  chunks : Nat → Option (List UInt8)
  files : List (Uuid × List UInt8)
  acknowledged : List Nat
  submitted : Bool
  cancelled : Option (List (Uuid × List UInt8))
  completed : Option (Option Uuid)

namespace UploadHistory

variable (h : UploadHistory)

def commit (read written : LibraryUpload) : UploadHistory :=
  { h with row := LibraryUpload.flush read written h.row }

def storeChunk (index : Nat) (body : List UInt8) : UploadHistory :=
  { h with chunks := Function.update h.chunks index (some body) }

def recordChunk (copy : LibraryUpload) (index : Nat) : UploadHistory :=
  { h.commit copy (copy.recorded index) with acknowledged := index :: h.acknowledged }

def cancel (copy : LibraryUpload) : UploadHistory :=
  { h.commit copy copy.withdrawn with cancelled := some (h.cancelled.getD h.files) }

def publish (fileId : Uuid) (payload : List UInt8) : UploadHistory :=
  { h with
    row := h.row.published fileId payload
    files := h.files ++ [(fileId, payload)]
    completed := some (h.completed.getD (some fileId)) }

/-- `delete_upload_chunks` -/
def deleteChunks (undeleted : List Nat) : UploadHistory :=
  { h with chunks := fun index =>
      if index < h.row.totalChunks ∧ index ∉ undeleted then none else h.chunks index }

def handled (turn : UploadTurn) : UploadPoint :=
  if turn.retriesLeft then .cleaning none else .exhausting

def claim : UploadHistory × UploadPoint :=
  match h.row.status with
  | .cancelled => (h, .cleaning (some .cancelled))
  | .completed => (h, .enqueueing)
  | _ => ({ h with row := h.row.claimed }, .assembling h.row.claimed)

def next (turn : UploadTurn) (h : UploadHistory) : UploadPoint → UploadHistory × UploadPoint
  | .chunkCalled request =>
    match h.row.admitChunk request with
    | .error error => (h, .raised error)
    | .ok index => (h, .receiving h.row index request.body)
  | .receiving copy index body =>
    match copy.checkBody index body with
    | .error error => (h, .raised error)
    | .ok _ =>
      if turn.fails then
        (h, .raised ⟨"STORAGE_UNAVAILABLE", "Unable to store the upload chunk.", 503⟩)
      else (h.storeChunk index body, .recording copy index)
  | .recording copy index => (h.recordChunk copy index, .returned)
  | .completeCalled =>
    match h.row.admitComplete with
    | .error error => (h, .raised error)
    | .ok _ => (h, if h.row.status = .completed then .returned else .queueing h.row)
  | .queueing copy => (h.commit copy copy.queued, .delaying copy.queued)
  | .delaying copy =>
    if turn.fails then (h, .unqueueing copy) else ({ h with submitted := true }, .returned)
  | .unqueueing copy => (h.commit copy copy.unqueued, .raised
      ⟨"UPLOAD_QUEUE_UNAVAILABLE", "The Library upload worker could not be started.", 503⟩)
  | .cancelCalled =>
    (h, if h.row.status ∈ [UploadStatus.completed, .cancelled] then .returned
      else .cancelling h.row)
  | .cancelling copy => (h.cancel copy, .cleaning (some .cancelled))
  | .finalizeCalled =>
    if h.submitted = false then (h, .finalizeCalled)
    else if turn.fails then (h, handled turn)
    else h.claim
  | .assembling copy =>
    match assemble h.chunks copy.totalChunks with
    | none => (h, handled turn)
    | some payload =>
      if turn.fails then (h, handled turn)
      else (h, if copy.renameOnConflict then .naming copy payload else .publishing copy payload)
  | .naming copy payload =>
    if turn.fails then (h, handled turn)
    else if turn.conversationExists = false then (h, .cleaning none)
    else
      let named := { copy with filename := turn.filename }
      (h.commit copy named, .publishing named payload)
  | .publishing copy payload =>
    if turn.fails ∨ payload.length ≠ copy.expectedSize then (h, handled turn)
    else if h.row.status = .cancelled ∨ h.row.status = .completed then (h, .cleaning none)
    else (h.publish turn.fileId payload, .enqueueing)
  | .enqueueing => (h, if turn.fails then handled turn else .cleaning (some .completed))
  | .exhausting =>
    if turn.fails then (h, .cleaning none)
    else if h.row.status = .cancelled ∨ h.row.status = .completed then
      (h, .cleaning (some h.row.status))
    else ({ h with row := h.row.exhausted }, .cleaning (some .failed))
  | .cleaning status =>
    if status.getD h.row.status ∈ [UploadStatus.completed, .failed, .cancelled] then
      (h.deleteChunks turn.undeleted, .returned)
    else (h, .returned)
  | .returned => (h, .returned)
  | .raised error => (h, .raised error)

end UploadHistory

/-- The calls on one upload session. -/
inductive UploadCall where
  | chunk (request : ChunkRequest)
  | complete
  | cancel
  | finalize

def UploadCall.point : UploadCall → UploadPoint
  | chunk request => .chunkCalled request
  | complete => .completeCalled
  | cancel => .cancelCalled
  | finalize => .finalizeCalled

abbrev UploadSystem := Interleaving.CallSystem UploadHistory UploadPoint

namespace UploadSystem

def start (upload : LibraryUpload) (calls : List UploadCall) : UploadSystem :=
  ⟨⟨upload, fun _ => none, [], [], false, none, none⟩, calls.map UploadCall.point⟩

def step (s : UploadSystem) (turn : Nat × UploadTurn) : UploadSystem :=
  Interleaving.advance (fun _ _ => false) UploadHistory.next s turn

theorem step_of_some {s : UploadSystem} {turn : Nat × UploadTurn} {p : UploadPoint}
    (here : s.calls[turn.1]? = some p) : s.step turn =
      ⟨(UploadHistory.next turn.2 s.shared p).1,
        s.calls.set turn.1 (UploadHistory.next turn.2 s.shared p).2⟩ :=
  Interleaving.advance_of_free _ _ here (Interleaving.blocked_of_lockFree s turn.1 _)

def quietTurn : UploadTurn := ⟨false, true, true, "note.md", 7, []⟩

end UploadSystem

end AverQel.Library
