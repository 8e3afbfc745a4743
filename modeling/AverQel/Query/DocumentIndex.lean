/- digest: The tables behind retrieval, the documents open to a user, and the global searches. -/
import AverQel.Base
import AverQel.Foundation.Ranking
import AverQel.Query.QueryText
import Mathlib.Data.Prod.Lex

namespace AverQel.Query

open Foundation

structure Document where
  (id tenantId uploadedByUserId : Uuid)
  filename : String
  (quarantined isDeleted : Bool)
  extractionCoverageScore : Option ℚ
  createdAt : Time

abbrev TsVector := List String

/-- The keys of `chunk_metadata` that retrieval reads; `pageNumber` may be present and null. -/
structure ChunkMetadata where
  (mode header1 header2 : Option String)
  pageNumber : Option (Option Int)
  deriving DecidableEq

structure DocumentChunk where
  (id tenantId documentId : Uuid)
  chunkIndex : Int
  content : String
  chunkMetadata : ChunkMetadata
  qualityScore : Option ℚ
  searchVector : Option TsVector
  deriving DecidableEq

structure ChunkEmbedding where
  (tenantId documentId chunkId : Uuid)
  embedding : List ℚ

structure CollectionDocument where
  (collectionId documentId : Uuid)

structure CollectionPermission where
  (collectionId userId : Uuid)
  role : String

structure DocumentShare where
  (documentId userId : Uuid)

/-- Nothing is assumed about how the rows refer to each other. -/
structure DocumentIndex where
  documents : List Document
  chunks : List DocumentChunk
  embeddings : List ChunkEmbedding
  collectionDocuments : List CollectionDocument
  collectionPermissions : List CollectionPermission
  documentShares : List DocumentShare

structure RetrievedChunkRow where
  (documentId chunkId : Uuid)
  (filename content : String)
  similarityScore : ℚ
  sourceType : String
  chunkIndex : Int
  sectionHeader : Option String
  pageNumber : Option Int
  qualityScore : Option ℚ

/-- What the searches leave to the database and its extensions. -/
structure SearchBackend where
  l2Distance : List ℚ → List ℚ → ℚ
  /-- `search_vector @@ websearch_to_tsquery('english', query)` -/
  tsMatches : TsVector → String → Bool
  /-- `ts_rank_cd` -/
  tsRank : TsVector → String → ℚ
  /-- `content ILIKE '%term%'` -/
  ilike : String → String → Bool

/-- The optional restrictions of a search besides the documents. -/
structure SearchFilters where
  (createdAtFrom createdAtTo : Option Time)
  sourceTypes : Option (List String)
  minExtractionCoverage : Option ℚ
  maxExtractionCoverage : Option ℚ

/-- `if document_ids: statement.where(document_id.in_(document_ids))` -/
def inScope (documentIds : List Uuid) (documentId : Uuid) : Bool :=
  documentIds.isEmpty || documentIds.contains documentId

/-- A comparison with a nullable column: a missing value never passes. -/
def SearchFilters.admits (filters : SearchFilters) (document : Document)
    (chunk : DocumentChunk) : Bool :=
  filters.createdAtFrom.all (fun t => t ≤ document.createdAt) &&
  filters.createdAtTo.all (fun t => document.createdAt ≤ t) &&
  filters.sourceTypes.all (fun types =>
    types.isEmpty || chunk.chunkMetadata.mode.any (fun mode => types.contains mode)) &&
  filters.minExtractionCoverage.all (fun low =>
    document.extractionCoverageScore.any (fun score => low ≤ score)) &&
  filters.maxExtractionCoverage.all (fun high =>
    document.extractionCoverageScore.any (fun score => score ≤ high))

namespace DocumentChunk

variable (chunk : DocumentChunk)

/-- `row.source_type or "text"` -/
def sourceType : String := Text.orDefault chunk.chunkMetadata.mode "text"

/-- `header_1 or header_2` -/
def sectionHeader : Option String :=
  if Text.nonempty chunk.chunkMetadata.header1 = none then chunk.chunkMetadata.header2
  else chunk.chunkMetadata.header1

/-- `metadata.get("page_number", (row.chunk_index // 4) + 1)` -/
def page : Option Int := chunk.chunkMetadata.pageNumber.getD (some (chunk.chunkIndex / 4 + 1))

/-- The row that a search returns for a chunk found under a document. -/
def toRow (documentId : Uuid) (filename : String) (score : ℚ) : RetrievedChunkRow where
  documentId := documentId
  chunkId := chunk.id
  filename := filename
  content := chunk.content
  similarityScore := score
  sourceType := chunk.sourceType
  chunkIndex := chunk.chunkIndex
  sectionHeader := chunk.sectionHeader
  pageNumber := chunk.page
  qualityScore := chunk.qualityScore

end DocumentChunk

def Document.searchable (document : Document) : Bool :=
  !document.isDeleted && !document.quarantined

namespace DocumentIndex

variable (index : DocumentIndex)

/-- `get_accessible_document_ids_global`. The shared branch does not look at deletion. -/
def getAccessibleDocumentIdsGlobal (userId : Uuid) : List Uuid :=
  let uploaded := (index.documents.filter (fun document =>
    document.uploadedByUserId = userId ∧ document.searchable)).map Document.id
  let collected := index.collectionDocuments.flatMap (fun entry =>
    (index.documents.filter (fun document =>
      document.id = entry.documentId ∧ document.searchable ∧
        index.collectionPermissions.any (fun permission =>
          permission.collectionId = entry.collectionId ∧ permission.userId = userId ∧
            permission.role ∈ ["member", "owner", "shared"]))).map (fun _ => entry.documentId))
  let shared := (index.documentShares.filter (fun share =>
    share.userId = userId ∧ index.documents.any (fun document =>
      document.id = share.documentId ∧ !document.quarantined))).map DocumentShare.documentId
  (uploaded ++ collected ++ shared).eraseDups

variable (backend : SearchBackend)

/-- `search_top_k_global`: the join and the scope go by the document of the embedding row. -/
def searchTopKGlobal (queryEmbedding : List ℚ) (topK : Nat) (documentIds : List Uuid)
    (filters : SearchFilters) : List RetrievedChunkRow :=
  let joined := index.embeddings.flatMap (fun embedding =>
    (index.chunks.filter (fun chunk => chunk.id = embedding.chunkId)).flatMap (fun chunk =>
      (index.documents.filter (fun document =>
        document.id = embedding.documentId ∧ document.searchable ∧
          inScope documentIds embedding.documentId ∧ filters.admits document chunk)).map
        (fun document => (embedding, chunk, document))))
  let distance (row : ChunkEmbedding × DocumentChunk × Document) : ℚ :=
    backend.l2Distance row.1.embedding queryEmbedding
  ((ascending (fun row => toLex (distance row, row.2.1.chunkIndex)) joined).take topK).map
    (fun row => row.2.1.toRow row.1.documentId row.2.2.filename
      (roundTo 6 (1 / (1 + max (distance row) 0))))

/-- `search_bm25_global` -/
def searchBm25Global (query : String) (topK : Nat) (documentIds : List Uuid)
    (filters : SearchFilters) : List RetrievedChunkRow :=
  let joined := index.chunks.flatMap (fun chunk =>
    (index.documents.filter (fun document =>
      document.id = chunk.documentId ∧ document.searchable ∧
        chunk.searchVector.any (fun vector => backend.tsMatches vector query) ∧
        inScope documentIds chunk.documentId ∧ filters.admits document chunk)).map
      (fun document => (chunk, document)))
  let rank (row : DocumentChunk × Document) : ℚ :=
    row.1.searchVector.elim 0 (fun vector => backend.tsRank vector query)
  ((ascending (fun row => toLex (-rank row, row.1.chunkIndex)) joined).take topK).map
    (fun row => row.1.toRow row.1.documentId row.2.filename (rank row))

/-- `search_document_text_global`: no documents or a blank text find nothing. Quarantine is not
looked at here. -/
def searchDocumentTextGlobal (documentIds : List Uuid) (query : String) (limit : Nat) :
    List RetrievedChunkRow :=
  let normalizedQuery := Text.strip query
  if documentIds = [] ∨ normalizedQuery = "" then []
  else
    let joined := index.chunks.flatMap (fun chunk =>
      (index.documents.filter (fun document =>
        document.id = chunk.documentId ∧ !document.isDeleted ∧
          chunk.documentId ∈ documentIds ∧ backend.ilike chunk.content normalizedQuery)).map
        (fun document => (chunk, document)))
    ((ascending (fun row => toLex (row.1.documentId, row.1.chunkIndex)) joined).take limit).map
      (fun row => row.1.toRow row.1.documentId row.2.filename 1)

/-- `get_chunks_by_indices_global` -/
def getChunksByIndicesGlobal (documentIndices : List (Uuid × List Int)) : List DocumentChunk :=
  index.chunks.filter (fun chunk => documentIndices.any (fun wanted =>
    chunk.documentId = wanted.1 ∧ chunk.chunkIndex ∈ wanted.2))

end DocumentIndex

end AverQel.Query
