/- digest: The rows of one document under ingestion: document, job, chunks and their vectors. -/
import AverQel.Base
import AverQel.Foundation.Table
import AverQel.Foundation.Text

namespace AverQel.Ingestion

open Foundation

inductive Stage where
  | queued | downloading | parsing | chunking | embedding | indexed | failed | deadLettered
  | needsReingestion
  deriving DecidableEq, Repr

/-- The floating-point numbers of the ingestion. -/
structure YieldArithmetic (F : Type) where
  /-- `round((embedded / total) * coverage * 100, 2)` -/
  informationYield : Nat → Nat → F → F
  /-- `information_yield < 50.0` -/
  low : F → Bool
  (zero one : F)
  /-- `round((current / total) * span)` -/
  part : Nat → Nat → Nat → Nat

/-- The columns of `Document` that an ingestion writes. -/
structure Document (F : Type) where
  status : Stage
  processingProgress : Nat
  informationYield : Option F
  quarantined : Bool
  extractionCoverageScore : Option F
  deriving DecidableEq

/-- The columns of `IngestionJob`, without its times. -/
structure IngestionJob where
  status : Stage
  (attemptCount maxAttempts : Nat)
  (lastErrorCode lastErrorMessage deadLetterReason : Option String)
  checkpointStage : Option Stage
  (checkpointCursor resumeCount : Nat)
  deriving DecidableEq

structure Chunk where
  id : Uuid
  chunkIndex : Nat
  content : String
  deriving DecidableEq

structure ChunkEmbedding (V : Type) where
  chunkId : Uuid
  embedding : V

namespace Document

variable {F : Type} [DecidableEq F]

/-- The UPDATE of a document: the columns that differ from what was loaded. -/
def flush (loaded written row : Document F) : Document F where
  status := if written.status = loaded.status then row.status else written.status
  processingProgress :=
    if written.processingProgress = loaded.processingProgress then row.processingProgress
    else written.processingProgress
  informationYield :=
    if written.informationYield = loaded.informationYield then row.informationYield
    else written.informationYield
  quarantined :=
    if written.quarantined = loaded.quarantined then row.quarantined else written.quarantined
  extractionCoverageScore :=
    if written.extractionCoverageScore = loaded.extractionCoverageScore then
      row.extractionCoverageScore
    else written.extractionCoverageScore

@[simp] theorem flush_self (row written : Document F) : flush row written row = written := by
  cases written
  simp only [flush, mk.injEq]
  refine ⟨?_, ?_, ?_, ?_, ?_⟩ <;> split <;> simp_all

@[simp] theorem flush_loaded (loaded row : Document F) : flush loaded loaded row = row := by
  simp [flush]

theorem status_flush_ne {loaded written row : Document F} {stage : Stage}
    (row_ne : row.status ≠ stage) (written_ne : written.status ≠ stage) :
    (flush loaded written row).status ≠ stage := by
  unfold flush
  simp only
  split
  · exact row_ne
  · exact written_ne

end Document

namespace IngestionJob

/-- The UPDATE of a job. -/
def flush (loaded written row : IngestionJob) : IngestionJob where
  status := if written.status = loaded.status then row.status else written.status
  attemptCount :=
    if written.attemptCount = loaded.attemptCount then row.attemptCount else written.attemptCount
  maxAttempts := row.maxAttempts
  lastErrorCode :=
    if written.lastErrorCode = loaded.lastErrorCode then row.lastErrorCode
    else written.lastErrorCode
  lastErrorMessage :=
    if written.lastErrorMessage = loaded.lastErrorMessage then row.lastErrorMessage
    else written.lastErrorMessage
  deadLetterReason :=
    if written.deadLetterReason = loaded.deadLetterReason then row.deadLetterReason
    else written.deadLetterReason
  checkpointStage :=
    if written.checkpointStage = loaded.checkpointStage then row.checkpointStage
    else written.checkpointStage
  checkpointCursor :=
    if written.checkpointCursor = loaded.checkpointCursor then row.checkpointCursor
    else written.checkpointCursor
  resumeCount :=
    if written.resumeCount = loaded.resumeCount then row.resumeCount else written.resumeCount

theorem flush_self {row written : IngestionJob} (same : written.maxAttempts = row.maxAttempts) :
    flush row written row = written := by
  cases written
  simp only [flush, mk.injEq]
  refine ⟨?_, ?_, ?_, ?_, ?_, ?_, ?_, ?_, ?_⟩ <;> (try split) <;> simp_all

/-- `set_status` of the jobs repository. -/
def setStatus (job : IngestionJob) (status : Stage)
    (error : Option (String × String)) : IngestionJob :=
  { job with
    status := status
    lastErrorCode := error.map Prod.fst
    lastErrorMessage := error.map Prod.snd
    deadLetterReason :=
      if status = .deadLettered then some ((error.map Prod.fst).getD "unknown_failure")
      else job.deadLetterReason }

/-- `set_checkpoint` -/
def setCheckpoint (job : IngestionJob) (stage : Stage) (cursor : Nat) : IngestionJob :=
  { job with checkpointStage := some stage, checkpointCursor := cursor }

end IngestionJob

/-- The rows of one document and of its job. Every vector belongs to a chunk, and a chunk has at
most one. -/
structure Records (V F : Type) where
  document : Document F
  job : IngestionJob
  chunks : Table Chunk Chunk.id
  embeddings : Table (ChunkEmbedding V) ChunkEmbedding.chunkId
  linked : ∀ embedding ∈ embeddings.rows, (chunks.find? embedding.chunkId).isSome

namespace Records

variable {V F : Type} (records : Records V F)

def embedded (chunk : Chunk) : Prop := (records.embeddings.find? chunk.id).isSome

instance (chunk : Chunk) : Decidable (records.embedded chunk) := by
  delta embedded
  infer_instance

/-- `get_embedded_chunk_ids`, counted. -/
def embeddedCount : Nat := records.embeddings.rows.length

def missing : List Chunk := records.chunks.rows.filter fun chunk => ¬ records.embedded chunk

def FullyEmbedded : Prop :=
  ∀ chunk ∈ records.chunks.rows,
    records.embeddings.rows.countP (fun embedding => embedding.chunkId = chunk.id) = 1

instance : Decidable records.FullyEmbedded := by
  delta FullyEmbedded
  infer_instance

/-- `replace_document_chunks`; the vectors of the old chunks go with them. -/
def replaceDocumentChunks (rows : Table Chunk Chunk.id) : Records V F :=
  { records with
    chunks := rows
    embeddings := .empty
    linked := fun _ member => absurd member List.not_mem_nil }

/-- One INSERT of a vector; `none` is a violated constraint. -/
def insertEmbedding (embedding : ChunkEmbedding V) : Option (Records V F) :=
  if known : (records.chunks.find? embedding.chunkId).isSome then
    match inserted : records.embeddings.insert? embedding with
    | none => none
    | some embeddings =>
      some { records with
        embeddings := embeddings
        linked := by
          intro other member
          rcases (Table.mem_of_insert? inserted).mp member with old | rfl
          · exact records.linked other old
          · exact known }
  else none

/-- `insert_chunk_embeddings`: "Insert only missing vectors; safe to call again after a worker
crash." Beside the rows it returns how many it has inserted. -/
def insertChunkEmbeddings (embeddings : List (ChunkEmbedding V)) : Option (Records V F × Nat) :=
  let pending := embeddings.filter fun embedding =>
    (records.embeddings.find? embedding.chunkId).isNone
  (pending.foldlM insertEmbedding records).map fun after => (after, pending.length)

/-- The vectors of a batch; `none` when there is not one for each text. -/
def embedBatch (batch : List Chunk) (vectors : List V) : Option (List (ChunkEmbedding V)) :=
  if batch.length = vectors.length then
    some (List.zipWith (fun chunk vector => ⟨chunk.id, vector⟩) batch vectors)
  else none

variable {records} {after : Records V F}

theorem insertEmbedding_spec {embedding : ChunkEmbedding V}
    (inserted : records.insertEmbedding embedding = some after) :
    after.document = records.document ∧ after.job = records.job ∧ after.chunks = records.chunks ∧
      ∀ id, (after.embeddings.find? id).isSome ↔
        (records.embeddings.find? id).isSome ∨ id = embedding.chunkId := by
  unfold insertEmbedding at inserted
  split at inserted
  · split at inserted
    · cases inserted
    · rename_i embeddings added
      cases inserted
      refine ⟨rfl, rfl, rfl, fun id => ?_⟩
      rw [Table.find?_of_insert? added]
      by_cases here : id = embedding.chunkId <;> simp [here]
  · cases inserted

theorem insertEmbedding_of_fresh {embedding : ChunkEmbedding V}
    (known : (records.chunks.find? embedding.chunkId).isSome)
    (fresh : (records.embeddings.find? embedding.chunkId).isSome = false) :
    ∃ after, records.insertEmbedding embedding = some after := by
  have absent : embedding.chunkId ∉ records.embeddings.rows.map ChunkEmbedding.chunkId := by
    intro taken
    obtain ⟨other, member, same⟩ := List.mem_map.mp taken
    rw [Table.find?_eq_some_iff.mpr ⟨member, same⟩] at fresh
    cases fresh
  obtain ⟨embeddings, added, _⟩ := Table.insert?_of_fresh absent
  unfold insertEmbedding
  rw [dif_pos known]
  split
  · rename_i refused
    rw [added] at refused
    cases refused
  · exact ⟨_, rfl⟩

variable {embeddings : List (ChunkEmbedding V)}

theorem foldlM_insertEmbedding_spec
    (inserted : embeddings.foldlM insertEmbedding records = some after) :
    after.document = records.document ∧ after.job = records.job ∧ after.chunks = records.chunks ∧
      ∀ id, (after.embeddings.find? id).isSome ↔
        (records.embeddings.find? id).isSome ∨ id ∈ embeddings.map ChunkEmbedding.chunkId := by
  induction embeddings generalizing records with
  | nil =>
    obtain rfl : records = after := by simpa using inserted
    simp
  | cons embedding rest ih =>
    rw [List.foldlM_cons] at inserted
    obtain ⟨middle, first, later⟩ := Option.bind_eq_some_iff.mp inserted
    obtain ⟨document, job, chunks, known⟩ := insertEmbedding_spec first
    obtain ⟨document', job', chunks', known'⟩ := ih later
    refine ⟨document'.trans document, job'.trans job, chunks'.trans chunks, fun id => ?_⟩
    rw [known', known, List.map_cons, List.mem_cons, or_assoc]

theorem foldlM_insertEmbedding_of_fresh
    (known : ∀ embedding ∈ embeddings, (records.chunks.find? embedding.chunkId).isSome)
    (fresh : ∀ embedding ∈ embeddings, (records.embeddings.find? embedding.chunkId).isSome = false)
    (distinct : (embeddings.map ChunkEmbedding.chunkId).Nodup) :
    ∃ after, embeddings.foldlM insertEmbedding records = some after := by
  induction embeddings generalizing records with
  | nil => exact ⟨records, rfl⟩
  | cons embedding rest ih =>
    obtain ⟨apart, distinct⟩ := List.nodup_cons.mp distinct
    obtain ⟨middle, first⟩ := insertEmbedding_of_fresh (known embedding List.mem_cons_self)
      (fresh embedding List.mem_cons_self)
    obtain ⟨_, _, chunks, found⟩ := insertEmbedding_spec first
    have known' : ∀ other ∈ rest, (middle.chunks.find? other.chunkId).isSome :=
      fun other member => chunks ▸ known other (List.mem_cons_of_mem _ member)
    have fresh' : ∀ other ∈ rest, (middle.embeddings.find? other.chunkId).isSome = false := by
      intro other member
      have old := fresh other (List.mem_cons_of_mem _ member)
      have differs : other.chunkId ≠ embedding.chunkId := fun same =>
        apart (same ▸ List.mem_map_of_mem member)
      have unknown := (found other.chunkId).not.mpr (by simp [old, differs])
      simpa using unknown
    obtain ⟨after, done⟩ := ih known' fresh' distinct
    refine ⟨after, ?_⟩
    rw [List.foldlM_cons, first]
    exact done

theorem insertChunkEmbeddings_spec {count : Nat}
    (inserted : records.insertChunkEmbeddings embeddings = some (after, count)) :
    after.document = records.document ∧ after.job = records.job ∧ after.chunks = records.chunks ∧
      ∀ id, (after.embeddings.find? id).isSome ↔
        (records.embeddings.find? id).isSome ∨ id ∈ embeddings.map ChunkEmbedding.chunkId := by
  obtain ⟨result, folded, shape⟩ := Option.map_eq_some_iff.mp inserted
  cases shape
  obtain ⟨document, job, chunks, known⟩ := foldlM_insertEmbedding_spec folded
  refine ⟨document, job, chunks, fun id => (known id).trans ?_⟩
  by_cases old : (records.embeddings.find? id).isSome = true
  · simp [old]
  · simp only [old, false_or, List.mem_map, List.mem_filter, Bool.false_eq_true]
    constructor
    · rintro ⟨embedding, ⟨member, _⟩, same⟩
      exact ⟨embedding, member, same⟩
    · rintro ⟨embedding, member, rfl⟩
      exact ⟨embedding, ⟨member, by simpa using old⟩, rfl⟩

theorem insertChunkEmbeddings_of_known
    (known : ∀ embedding ∈ embeddings, (records.chunks.find? embedding.chunkId).isSome)
    (distinct : (embeddings.map ChunkEmbedding.chunkId).Nodup) :
    ∃ after count, records.insertChunkEmbeddings embeddings = some (after, count) := by
  have part : (embeddings.filter fun embedding =>
      (records.embeddings.find? embedding.chunkId).isNone).Sublist embeddings :=
    List.filter_sublist
  have fresh : ∀ embedding ∈ embeddings.filter (fun embedding =>
      (records.embeddings.find? embedding.chunkId).isNone),
      (records.embeddings.find? embedding.chunkId).isSome = false := by
    intro embedding member
    simpa using (List.mem_filter.mp member).2
  obtain ⟨after, folded⟩ := foldlM_insertEmbedding_of_fresh
    (fun embedding member => known embedding (part.subset member)) fresh
    (distinct.sublist (part.map _))
  exact ⟨after, _, Option.map_eq_some_iff.mpr ⟨after, folded, rfl⟩⟩

theorem chunkIds_of_embedBatch {batch : List Chunk} {vectors : List V}
    (embedded : embedBatch batch vectors = some embeddings) :
    embeddings.map ChunkEmbedding.chunkId = batch.map Chunk.id := by
  unfold embedBatch at embedded
  split at embedded
  · rename_i same
    cases embedded
    induction batch generalizing vectors with
    | nil => simp
    | cons chunk rest ih =>
      cases vectors with
      | nil => cases same
      | cons vector others =>
        have shorter : rest.length = others.length := by simpa using same
        simp [ih shorter]
  · cases embedded

theorem fullyEmbedded_iff : records.FullyEmbedded ↔
    ∀ chunk ∈ records.chunks.rows, records.embedded chunk := by
  apply forall₂_congr
  intro chunk _
  constructor
  · intro once
    have positive : 0 < records.embeddings.rows.countP
        (fun embedding => decide (embedding.chunkId = chunk.id)) := by omega
    obtain ⟨embedding, member, same⟩ := List.countP_pos_iff.mp positive
    have found := Table.find?_eq_some_iff.mpr ⟨member, of_decide_eq_true same⟩
    unfold embedded
    rw [found]
    rfl
  · intro found
    obtain ⟨embedding, here⟩ := Option.isSome_iff_exists.mp found
    obtain ⟨member, same⟩ := Table.find?_eq_some_iff.mp here
    rw [← same]
    exact records.embeddings.countP_key member

theorem missing_eq_nil_iff : records.missing = [] ↔ records.FullyEmbedded := by
  rw [fullyEmbedded_iff]
  simp [missing]

theorem missing_of_inserted {batch : List Chunk} (chunks : after.chunks = records.chunks)
    (stored : batch ⊆ records.chunks.rows)
    (known : ∀ id, (after.embeddings.find? id).isSome ↔
      (records.embeddings.find? id).isSome ∨ id ∈ batch.map Chunk.id) :
    after.missing = records.missing.filter fun chunk => chunk ∉ batch := by
  unfold missing
  rw [List.filter_filter, chunks]
  apply List.filter_congr
  intro chunk member
  have listed : chunk.id ∈ batch.map Chunk.id ↔ chunk ∈ batch := by
    constructor
    · intro found
      obtain ⟨other, inside, same⟩ := List.mem_map.mp found
      exact records.chunks.eq_of_key_eq (stored inside) member same ▸ inside
    · exact List.mem_map_of_mem
  have now := known chunk.id
  rw [listed] at now
  simp only [embedded, now]
  by_cases inside : chunk ∈ batch <;> simp [inside]

theorem mem_missing {chunk : Chunk} :
    chunk ∈ records.missing ↔ chunk ∈ records.chunks.rows ∧ ¬ records.embedded chunk := by
  simp [missing]

theorem nodup_missing : records.missing.Nodup :=
  (List.Nodup.of_map _ records.chunks.keys_nodup).filter _

theorem embeddedCount_of_fullyEmbedded (full : records.FullyEmbedded) :
    records.embeddedCount = records.chunks.rows.length := by
  have same : (records.embeddings.rows.map ChunkEmbedding.chunkId).Perm
      (records.chunks.rows.map Chunk.id) := by
    refine (List.perm_ext_iff_of_nodup records.embeddings.keys_nodup records.chunks.keys_nodup).mpr
      fun id => ?_
    constructor
    · intro listed
      obtain ⟨embedding, member, rfl⟩ := List.mem_map.mp listed
      obtain ⟨chunk, found⟩ := Option.isSome_iff_exists.mp (records.linked embedding member)
      obtain ⟨known, same⟩ := Table.find?_eq_some_iff.mp found
      exact same ▸ List.mem_map_of_mem known
    · intro listed
      obtain ⟨chunk, member, rfl⟩ := List.mem_map.mp listed
      obtain ⟨embedding, found⟩ :=
        Option.isSome_iff_exists.mp (fullyEmbedded_iff.mp full chunk member)
      obtain ⟨known, same⟩ := Table.find?_eq_some_iff.mp found
      exact same ▸ List.mem_map_of_mem known
  have lengths := same.length_eq
  rwa [List.length_map, List.length_map] at lengths

end Records

end AverQel.Ingestion
