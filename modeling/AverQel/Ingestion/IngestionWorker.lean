/- digest: The worker of an ingestion job, commit by commit, and what ends it. -/
import Mathlib.Data.List.Sort
import AverQel.Foundation.Fallible
import AverQel.Ingestion.IngestionRows

namespace AverQel.Ingestion

open Foundation

structure Settings where
  embeddingBatchSize : Nat

def Settings.batchSize (settings : Settings) : Nat := max settings.embeddingBatchSize 1

theorem Settings.batchSize_pos (settings : Settings) : 0 < settings.batchSize := by
  unfold batchSize
  omega

structure Extraction (F : Type) where
  coverageScore : F
  hasText : Bool
  /-- `"download_only_fallback" in extraction.warnings` -/
  downloadOnly : Bool

/-- A part of the chunked text, with the id that is drawn for its row. -/
structure Part where
  rowId : Uuid
  chunkIndex : Nat
  content : String
  deriving DecidableEq

structure Work (V F : Type) where
  extraction : Extraction F
  parts : List Part
  embed : List String → List V

/-- `sanitize_document_text` -/
def sanitizeDocumentText (value : String) : String :=
  String.ofList (value.toList.filter fun c =>
    c = '\n' ∨ c = '\r' ∨ c = '\t' ∨ ¬ (c.toNat < 32 ∨ c.toNat = 127))

/-- `chunk_rows`: the parts that have text left. -/
def chunkRows (parts : List Part) : List Chunk :=
  parts.filterMap fun part =>
    let safe := Text.strip (sanitizeDocumentText part.content)
    if safe = "" then none else some ⟨part.rowId, part.chunkIndex, safe⟩

def toTable (rows : List Chunk) : Option (Table Chunk Chunk.id) :=
  if keyed : (rows.map Chunk.id).Nodup then
    if (rows.map Chunk.chunkIndex).Nodup then some ⟨rows, keyed⟩ else none
  else none

theorem rows_of_toTable {rows : List Chunk} {table : Table Chunk Chunk.id}
    (stored : toTable rows = some table) : table.rows = rows := by
  unfold toTable at stored
  split at stored
  · split at stored
    · cases stored
      rfl
    · cases stored
  · cases stored

/-- The exceptions that the worker tells apart. -/
inductive Failure where
  | storage (code message : String) (retryable : Bool)
  | api (error : ApiError)
  | unexpected
  deriving DecidableEq

def noValidChunks : Failure :=
  .api ⟨"NO_VALID_CHUNKS", "Document did not produce valid chunks.", 422⟩

/-- Code, message and retryability, as the handlers of the two paths have them. -/
def Failure.describe (resuming : Bool) : Failure → String × String × Bool
  | .api error =>
    (error.code, error.message, error.code ∈ ["EMBEDDING_PROVIDER_UNAVAILABLE",
      "EMBEDDING_CIRCUIT_OPEN", "PROVIDER_CIRCUIT_OPEN", "STORAGE_UNAVAILABLE"] ∨
        500 ≤ error.statusCode)
  | .storage code message retryable =>
    if resuming then
      ("INGESTION_RESUME_FAILED", "Embedding checkpoint recovery failed.", true)
    else (code, message, retryable)
  | .unexpected =>
    if resuming then
      ("INGESTION_RESUME_FAILED", "Embedding checkpoint recovery failed.", true)
    else ("INGESTION_UNEXPECTED_ERROR", "Unhandled ingestion failure.", true)

structure Session (F : Type) where
  document : Document F
  job : IngestionJob
  deriving DecidableEq

/-- The batches of vectors that are left, and the counters of the loop. -/
structure EmbeddingLoop where
  rows : List Chunk
  (batchIndex totalBatches embeddedCount : Nat)
  deriving DecidableEq

/-- What the worker does up to its next commit. -/
inductive Next where
  | download
  | parse
  | chunk
  | storeParts (progressed : Nat)
  | checkpoint (rows : List Chunk)
  | startEmbedding (rows : List Chunk) (embeddedCount : Nat)
  | embed (loop : EmbeddingLoop)
  | writeCursor (loop : EmbeddingLoop)
  | writeProgress (loop : EmbeddingLoop)
  | finish
  | readCheckpoint
  | resumeBatch (total : Nat) (remaining : List Chunk)
  | resumeProgress (total : Nat) (remaining : List Chunk)
  | resumeFinish (total : Nat)
  | leave (resuming : Bool)
  deriving DecidableEq

def Next.resuming : Next → Bool
  | .readCheckpoint | .resumeBatch _ _ | .resumeProgress _ _ | .resumeFinish _ => true
  | .leave resuming => resuming
  | _ => false

/-- Where one execution of the job is. -/
inductive Point (F : Type) where
  | delivered
  | working (session : Session F) (next : Next)
  | ended
  deriving DecidableEq

variable {V F : Type} [DecidableEq F]

def Session.commit (session : Session F) (records : Records V F) (document : Document F)
    (job : IngestionJob) (next : Next) : Records V F × Point F :=
  ({ records with
      document := Document.flush session.document document records.document
      job := IngestionJob.flush session.job job records.job },
    .working ⟨document, job⟩ next)

theorem Session.commit_of_current {session : Session F} {records : Records V F}
    {document : Document F} {job : IngestionJob} {next : Next}
    (current : session = ⟨records.document, records.job⟩)
    (same : job.maxAttempts = records.job.maxAttempts) :
    session.commit records document job next =
      ({ records with document := document, job := job }, .working ⟨document, job⟩ next) := by
  simp [Session.commit, current, IngestionJob.flush_self same]

def Document.at (document : Document F) (status : Stage) (progress : Nat) : Document F :=
  { document with status := status, processingProgress := min progress 100 }

/-- `_scaled_progress` over a range of the bar. -/
def scaledProgress (arithmetic : YieldArithmetic F) (first last current total : Nat) : Nat :=
  let bounded := min current total
  if total = 0 ∨ bounded = 0 then first
  else min last (first + arithmetic.part bounded total (max (last - first) 1))

/-- `score or 1.0` -/
def YieldArithmetic.coverage (arithmetic : YieldArithmetic F) (score : Option F) : F :=
  match score with
  | none => arithmetic.one
  | some value => if value = arithmetic.zero then arithmetic.one else value

/-- The final columns: the yield, the quarantine of a low one, and the stage. -/
def Document.completed (arithmetic : YieldArithmetic F) (document : Document F)
    (embedded total : Nat) (coverage : F) : Document F :=
  let information := arithmetic.informationYield embedded total coverage
  { document with
    informationYield := some information
    quarantined := document.quarantined || arithmetic.low information
    processingProgress := 100
    status := .indexed }

variable (settings : Settings) (arithmetic : YieldArithmetic F) (work : Work V F)

/-- The first transaction of `process_ingestion_job`. -/
def start (records : Records V F) : Records V F × Point F :=
  let document := records.document
  let job := records.job
  if document.status = .indexed then ({ records with job := job.setStatus .indexed none }, .ended)
  else
    let attempted := { job with attemptCount := job.attemptCount + 1 }
    if job.checkpointStage = some .embedding then
      Session.commit ⟨document, job⟩ records document attempted .readCheckpoint
    else
      Session.commit ⟨document, job⟩ records (document.at .downloading 5)
        (attempted.setStatus .downloading none) .download

/-- Embed one batch and insert its vectors. -/
def storeBatch (records : Records V F) (batch : List Chunk) :
    Except Failure (Records V F × Nat) :=
  match Records.embedBatch batch (work.embed (batch.map Chunk.content)) with
  | none => .error .unexpected
  | some embeddings =>
    match records.insertChunkEmbeddings embeddings with
    | none => .error .unexpected
    | some result => .ok result

def resumeStep (records : Records V F) (session : Session F) (job : IngestionJob) (total : Nat)
    (remaining : List Chunk) : Except Failure (Records V F × Point F) := do
  let (after, _) ← storeBatch work records (remaining.take settings.batchSize)
  return session.commit after session.document job
    (.resumeProgress total (remaining.drop settings.batchSize))

/-- The work up to the next commit, and the commit. -/
def attempt (records : Records V F) (session : Session F) :
    Next → Except Failure (Records V F × Point F)
  | .download =>
    .ok (session.commit records (session.document.at .parsing 10)
      (session.job.setStatus .parsing none) .parse)
  | .parse =>
    let extracted :=
      { session.document with
        extractionCoverageScore := some work.extraction.coverageScore }
    if work.extraction.hasText then
      .ok (session.commit records (extracted.at .parsing 25) session.job .chunk)
    else if work.extraction.downloadOnly then
      .ok (session.commit records
        { extracted.at .indexed 100 with informationYield := some arithmetic.zero }
        (session.job.setStatus .indexed none) (.leave false))
    else
      .error (.api ⟨"DOCUMENT_EMPTY_AFTER_PARSE", "Document does not contain parseable text.", 422⟩)
  | .chunk =>
    .ok (session.commit records (session.document.at .chunking 30)
      (session.job.setStatus .chunking none) (.storeParts 0))
  | .storeParts progressed =>
    let rows := chunkRows work.parts
    if rows = [] then .error noValidChunks
    else if progressed < rows.length then
      .ok (session.commit records
        (session.document.at .chunking
          (scaledProgress arithmetic 30 60 (progressed + 1) work.parts.length))
        session.job (.storeParts (progressed + 1)))
    else
      match toTable rows with
      | none => .error .unexpected
      | some table =>
        .ok (session.commit (records.replaceDocumentChunks table)
          (session.document.at .chunking 60) session.job (.checkpoint rows))
  | .checkpoint rows =>
    .ok (session.commit records session.document
      ((session.job.setStatus .embedding none).setCheckpoint .embedding records.embeddedCount)
      (.startEmbedding rows records.embeddedCount))
  | .startEmbedding rows embeddedCount =>
    .ok (session.commit records (session.document.at .embedding 60) session.job
      (.embed ⟨rows, 1, max ((rows.length + settings.batchSize - 1) / settings.batchSize) 1,
        embeddedCount⟩))
  | .embed loop => do
    let (after, inserted) ← storeBatch work records (loop.rows.take settings.batchSize)
    return session.commit after session.document session.job
      (.writeCursor { loop with
        rows := loop.rows.drop settings.batchSize
        embeddedCount := loop.embeddedCount + inserted })
  | .writeCursor loop =>
    .ok (session.commit records session.document
      (session.job.setCheckpoint .embedding loop.embeddedCount) (.writeProgress loop))
  | .writeProgress loop =>
    .ok (session.commit records
      (session.document.at .embedding
        (scaledProgress arithmetic 60 95 loop.batchIndex loop.totalBatches))
      session.job
      (if loop.rows = [] then .finish else .embed { loop with batchIndex := loop.batchIndex + 1 }))
  | .finish =>
    .ok (session.commit records
      (session.document.completed arithmetic records.embeddedCount (max work.parts.length 1)
        (arithmetic.coverage (some work.extraction.coverageScore)))
      (session.job.setStatus .indexed none) (.leave false))
  | .readCheckpoint =>
    let chunks := records.chunks.rows.insertionSort fun a b => a.chunkIndex ≤ b.chunkIndex
    let missing := chunks.filter fun chunk => ¬ records.embedded chunk
    if missing = [] then
      .ok (session.commit records (session.document.at .indexed 100)
        (session.job.setStatus .indexed none) (.leave true))
    else
      resumeStep settings work records session (session.job.setStatus .embedding none)
        chunks.length missing
  | .resumeBatch total remaining =>
    resumeStep settings work records session session.job total remaining
  | .resumeProgress total remaining =>
    .ok (session.commit records
      (session.document.at .embedding
        (scaledProgress arithmetic 60 95 records.embeddedCount total))
      (session.job.setCheckpoint .embedding records.embeddedCount)
      (if remaining = [] then .resumeFinish total else .resumeBatch total remaining))
  | .resumeFinish total =>
    .ok (session.commit records
      (session.document.completed arithmetic records.embeddedCount (max total 1)
        (arithmetic.coverage session.document.extractionCoverageScore))
      ((session.job.setStatus .indexed none).setCheckpoint .indexed records.embeddedCount)
      (.leave true))
  | .leave _ => .ok (records, .ended)

/-- `_handle_failure`: after a rollback both rows are read again and written whatever they say. -/
def handleFailure (records : Records V F) (resuming : Bool) (failure : Failure) : Records V F :=
  let (code, message, retryable) := failure.describe resuming
  let status :=
    if retryable ∧ ¬ records.job.attemptCount < records.job.maxAttempts then Stage.deadLettered
    else .failed
  { records with
    document := { records.document with status := status }
    job := records.job.setStatus status (some (code, message)) }

/-- One transaction of an execution. -/
def advanceWorker (records : Records V F) : Point F → Records V F × Point F
  | .delivered => start records
  | .working session next =>
    match attempt settings arithmetic work records session next with
    | .ok result => result
    | .error failure => (handleFailure records next.resuming failure, .ended)
  | .ended => (records, .ended)

def failWorker (records : Records V F) (failure : Failure) : Point F → Records V F × Point F
  | .working _ next => (handleFailure records next.resuming failure, .ended)
  | .delivered => (records, .ended)
  | .ended => (records, .ended)

variable {work} {records : Records V F}

omit [DecidableEq F] in
theorem storeBatch_spec {after : Records V F} {batch : List Chunk} {count : Nat}
    (stored : storeBatch work records batch = .ok (after, count)) :
    after.document = records.document ∧ after.job = records.job ∧
      after.chunks = records.chunks ∧
      ∀ chunk, after.embedded chunk ↔ records.embedded chunk ∨ chunk.id ∈ batch.map Chunk.id := by
  unfold storeBatch at stored
  split at stored
  · cases stored
  · rename_i embeddings embedded
    split at stored
    · cases stored
    · rename_i result inserted
      cases stored
      obtain ⟨document, job, chunks, known⟩ := Records.insertChunkEmbeddings_spec inserted
      rw [Records.chunkIds_of_embedBatch embedded] at known
      exact ⟨document, job, chunks, fun chunk => known chunk.id⟩

omit [DecidableEq F] in
theorem storeBatch_of_missing (onePerText : ∀ texts, (work.embed texts).length = texts.length)
    {left : List Chunk} (perm : left.Perm records.missing) (size : Nat) :
    ∃ after count, storeBatch work records (left.take size) = .ok (after, count) ∧
      after.document = records.document ∧ after.job = records.job ∧
      after.chunks = records.chunks ∧ (left.drop size).Perm after.missing := by
  have nodup : left.Nodup := perm.nodup_iff.mpr Records.nodup_missing
  have stored : left.take size ⊆ records.chunks.rows := fun chunk taken =>
    (Records.mem_missing.mp (perm.mem_iff.mp (List.mem_of_mem_take taken))).1
  have distinct : ((left.take size).map Chunk.id).Nodup := by
    apply List.Nodup.map_on _ (nodup.sublist (List.take_sublist size left))
    intro a first b second same
    exact records.chunks.eq_of_key_eq (stored first) (stored second) same
  obtain ⟨embeddings, embedded⟩ : ∃ embeddings, Records.embedBatch (left.take size)
      (work.embed ((left.take size).map Chunk.content)) = some embeddings := by
    have lengths := onePerText ((left.take size).map Chunk.content)
    rw [List.length_map] at lengths
    exact ⟨_, if_pos lengths.symm⟩
  have ids := Records.chunkIds_of_embedBatch embedded
  have known : ∀ embedding ∈ embeddings, (records.chunks.find? embedding.chunkId).isSome := by
    intro embedding member
    have listed := List.mem_map_of_mem (f := ChunkEmbedding.chunkId) member
    rw [ids] at listed
    obtain ⟨chunk, taken, same⟩ := List.mem_map.mp listed
    rw [Table.find?_eq_some_iff.mpr ⟨stored taken, same⟩]
    rfl
  obtain ⟨after, count, inserted⟩ := Records.insertChunkEmbeddings_of_known known (ids ▸ distinct)
  obtain ⟨document, job, chunks, found⟩ := Records.insertChunkEmbeddings_spec inserted
  rw [ids] at found
  refine ⟨after, count, ?_, document, job, chunks, ?_⟩
  · unfold storeBatch
    rw [embedded]
    simp only [inserted]
  · rw [Records.missing_of_inserted chunks stored found]
    have kept : left.filter (fun chunk => chunk ∉ left.take size) = left.drop size := by
      conv_lhs => arg 2; rw [← List.take_append_drop size left]
      have apart := List.disjoint_take_drop nodup (Nat.le_refl size)
      rw [List.filter_append, List.filter_eq_nil_iff.mpr (by simp), List.nil_append,
        List.filter_eq_self]
      intro chunk later
      simpa using fun early => apart early later
    exact kept ▸ perm.filter _

/-- The writes of `resume_document_from_checkpoint`, or its refusal. -/
def resumeDocumentFromCheckpoint {V F : Type} (arithmetic : YieldArithmetic F) (stale : Bool)
    (records : Records V F) : Except ApiError (Records V F) := do
  let total := records.chunks.rows.length
  let embedded := records.embeddedCount
  ensure (¬ (total = 0 ∨ total ≤ embedded))
    (⟨"INGESTION_RECOVERY_UNAVAILABLE",
      "There is no incomplete embedding checkpoint to resume.", 409⟩ : ApiError)
  ensure (¬ (records.job.status ∈ [Stage.queued, .downloading, .parsing, .chunking, .embedding] ∧
      stale = false))
    ⟨"INGESTION_JOB_ACTIVE", "Ingestion is still active; resume becomes available if the worker " ++
      "stops making progress.", 409⟩
  return { records with
    document :=
      { records.document with
        status := .embedding
        processingProgress := max records.document.processingProgress
          (scaledProgress arithmetic 60 95 embedded total) }
    job :=
      { (records.job.setStatus .queued none).setCheckpoint .embedding embedded with
        resumeCount := records.job.resumeCount + 1 } }

def percent : YieldArithmetic Nat where
  informationYield embedded total coverage := embedded * coverage * 100 / total
  low information := information < 50
  zero := 0
  one := 1
  part current total span := current * span / total

def uploaded : Records Unit Nat where
  document := ⟨.queued, 0, none, false, none⟩
  job := ⟨.queued, 0, 3, none, none, none, none, 0, 0⟩
  chunks := .empty
  embeddings := .empty
  linked := fun _ member => absurd member List.not_mem_nil

end AverQel.Ingestion
