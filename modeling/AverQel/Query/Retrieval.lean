/- digest: The retrieval service: depth plan, fusion, reranking, clustering, and the whole query. -/
import AverQel.Query.DocumentIndex
import Mathlib.Algebra.Ring.Rat

namespace AverQel.Query

open Foundation

structure RetrievalSettings where
  rerankingEnabled : Bool
  rerankingProvider : String
  (rerankingTopKRetrieve rerankingTopKRerank rerankingTopKAnswer queryTopKMax : Nat)

/-- The rest of the service, as far as a retrieval asks it. -/
structure RetrievalEnvironment where
  settings : RetrievalSettings
  tables : CharTables
  backend : SearchBackend
  embedQuery : Uuid → String → List ℚ
  /-- Tenant, user, query, contents and `top_n` to indices with scores; `none` when no reranker is
  configured or when it raises. -/
  rerank : Uuid → Uuid → String → List String → Nat → Option (List (Int × ℚ))

/-- An answer row. Its text is kept as the chunks that it was merged from. -/
structure RetrievedChunk where
  (documentId chunkId : Uuid)
  filename : String
  mergedContent : List DocumentChunk
  similarityScore : ℚ
  sourceType : String
  sectionHeader : Option String
  pageNumber : Option Int
  deriving DecidableEq

def RetrievedChunk.content (result : RetrievedChunk) : String :=
  String.intercalate "\n\n" (result.mergedContent.map DocumentChunk.content)

inductive SearchMode where
  | semantic
  | keyword
  | hybrid
  deriving DecidableEq, Repr

structure RetrievalDepthPlan where
  (answerTopK rerankTopK retrieveTopK : Nat)

def rrfK : ℚ := 60
def hybridMultiplier : Nat := 2
def clusterGap : Int := 2
def neighborExpansion : Int := 1
def qualityBoostWeight : ℚ := 1 / 10

/-- Between `MIN_SCORE` and `MAX_SCORE`. -/
def clampScore (score : ℚ) : ℚ := max 0 (min score 1)

/-- `_apply_quality_boost`, and the ordering after it. -/
def boostByQuality (rows : List RetrievedChunkRow) : List RetrievedChunkRow :=
  descending RetrievedChunkRow.similarityScore (rows.map (fun row =>
    match row.qualityScore with
    | none => row
    | some quality =>
      { row with similarityScore := clampScore (row.similarityScore + quality * qualityBoostWeight) }))

/-- The sum of `1 / (RRF_K + rank)` over the places of a chunk in a ranking. -/
def reciprocalRanks (rows : List RetrievedChunkRow) (chunkId : Uuid) : ℚ :=
  (((rows.zipIdx 1).filter (fun placed => placed.1.chunkId = chunkId)).map
    (fun placed => 1 / (rrfK + placed.2))).sum

/-- `_rrf_combine`: the last vector row of a chunk stands for it, else its first keyword row. -/
def rrfCombine (vectorResults keywordResults : List RetrievedChunkRow) (topK : Nat) :
    List RetrievedChunkRow :=
  let score (chunkId : Uuid) : ℚ :=
    reciprocalRanks vectorResults chunkId + reciprocalRanks keywordResults chunkId
  let lookup (chunkId : Uuid) : Option RetrievedChunkRow :=
    (vectorResults.reverse ++ keywordResults).find? (fun row => row.chunkId = chunkId)
  let chunkIds := ((vectorResults ++ keywordResults).map RetrievedChunkRow.chunkId).eraseDups
  let maxRrf : ℚ := 1 / (rrfK + 1) * 2
  ((descending score chunkIds).take topK).filterMap (fun chunkId =>
    (lookup chunkId).map (fun row =>
      { row with similarityScore := roundTo 6 (score chunkId / maxRrf), qualityScore := none }))

variable (env : RetrievalEnvironment)

/-- The rows that the reranker scored: the last score of an index counts, at its first place. -/
def scoredRows (chunks : List RetrievedChunkRow) (results : List (Int × ℚ)) :
    List RetrievedChunkRow :=
  let valid := results.filter (fun item => 0 ≤ item.1 ∧ item.1 < (chunks.length : Int))
  let scored := (valid.map Prod.fst).eraseDups.filterMap (fun (i : Int) =>
    (chunks[i.toNat]?).bind (fun row =>
      (valid.reverse.find? (fun item => item.1 = i)).map (fun item =>
        { row with similarityScore := item.2 })))
  descending RetrievedChunkRow.similarityScore scored

/-- `rerank_chunks` -/
def rerankChunks (tenantId userId : Uuid) (query : String) (chunks : List RetrievedChunkRow)
    (topN : Nat) : List RetrievedChunkRow :=
  if env.settings.rerankingEnabled = false ∨ chunks = [] ∨ topN = 0 then chunks.take topN
  else if env.settings.rerankingProvider = "disabled" then chunks.take topN
  else
    match env.rerank tenantId userId query (chunks.map RetrievedChunkRow.content)
        (min topN chunks.length) with
    | none => chunks.take topN
    | some results =>
      let reranked := scoredRows chunks results
      let rest := chunks.filter (fun row =>
        row.chunkId ∉ reranked.map RetrievedChunkRow.chunkId)
      (if reranked.length < topN then reranked ++ rest else reranked).take topN

variable (index : DocumentIndex)

/-- `range(low, high + 1)` -/
def indexRange (low high : Int) : List Int :=
  (List.range (high + 1 - low).toNat).map (fun offset => low + offset)

def neighborIndices (hits : List RetrievedChunkRow) : List Int :=
  hits.flatMap (fun hit =>
    (indexRange (hit.chunkIndex - neighborExpansion) (hit.chunkIndex + neighborExpansion)).filter
      (fun i => 0 ≤ i))

/-- `chunk_map.get((doc_id, idx))`: the last chunk read at a position counts. -/
def chunkAt (chunks : List DocumentChunk) (documentId : Uuid) (i : Int) : Option DocumentChunk :=
  chunks.reverse.find? (fun chunk => chunk.documentId = documentId ∧ chunk.chunkIndex = i)

def bestHit (first : RetrievedChunkRow) (later : List RetrievedChunkRow) : RetrievedChunkRow :=
  later.foldl (fun best row =>
    if best.similarityScore < row.similarityScore then row else best) first

/-- The answer row of a cluster of neighbouring hits. -/
def mergeCluster (adjacent : List DocumentChunk) (documentId : Uuid) :
    List RetrievedChunkRow → Option RetrievedChunk
  | [] => none
  | first :: later =>
    let last := later.getLastD first
    let best := bestHit first later
    let positions := indexRange (first.chunkIndex - neighborExpansion)
      (last.chunkIndex + neighborExpansion)
    some
      { documentId := documentId
        chunkId := best.chunkId
        filename := best.filename
        mergedContent := positions.filterMap (fun i =>
          (chunkAt adjacent documentId i).filter (fun chunk => chunk.content ≠ ""))
        similarityScore := roundTo 6 (clampScore best.similarityScore)
        sourceType := best.sourceType
        sectionHeader := best.sectionHeader
        pageNumber := best.pageNumber }

/-- `_expand_and_cluster` -/
def expandAndCluster (baseResults : List RetrievedChunkRow) : List RetrievedChunk :=
  let documentIds := (baseResults.map RetrievedChunkRow.documentId).eraseDups
  let hits (documentId : Uuid) := baseResults.filter (fun row => row.documentId = documentId)
  let adjacent := index.getChunksByIndicesGlobal
    (documentIds.map (fun documentId => (documentId, neighborIndices (hits documentId))))
  descending RetrievedChunk.similarityScore (documentIds.flatMap (fun documentId =>
    let clusters := (ascending RetrievedChunkRow.chunkIndex (hits documentId)).splitBy
      (fun previous hit => hit.chunkIndex ≤ previous.chunkIndex + clusterGap)
    clusters.filterMap (mergeCluster adjacent documentId)))

namespace RetrievalEnvironment

/-- `_validate_search_mode`; `none` is the `ValueError`. -/
def validateSearchMode (searchMode : String) : Option SearchMode :=
  let normalized := String.ofList (env.tables.lower (Text.strip searchMode).toList)
  if normalized = "semantic" then some .semantic
  else if normalized = "keyword" then some .keyword
  else if normalized = "hybrid" then some .hybrid
  else none

/-- `_build_depth_plan` -/
def buildDepthPlan (query : String) (searchMode : SearchMode) (documentScopeCount : Nat) :
    RetrievalDepthPlan :=
  let maxLimit := env.settings.queryTopKMax
  let base : RetrievalDepthPlan :=
    match env.tables.classify query with
    | .comparison | .synthesis => ⟨10, 18, 25⟩
    | .summarization | .exploratory => ⟨8, 16, 24⟩
    | .verification => ⟨6, 12, 18⟩
    | .factual | .action => ⟨6, 12, 16⟩
  let forScope : RetrievalDepthPlan :=
    if documentScopeCount ≤ 1 then
      let answer := max 5 (base.answerTopK - 1)
      let rerank := max (answer + 3) (base.rerankTopK - 2)
      ⟨answer, rerank, max (rerank + 2) (base.retrieveTopK - 4)⟩
    else if 10 ≤ documentScopeCount then
      ⟨base.answerTopK, min maxLimit (base.rerankTopK + 2), min maxLimit (base.retrieveTopK + 1)⟩
    else base
  let forMode : RetrievalDepthPlan :=
    match searchMode with
    | .keyword =>
      let answer := max 5 (forScope.answerTopK - 1)
      let rerank := max (answer + 2) (forScope.rerankTopK - 2)
      ⟨answer, rerank, max (rerank + 2) (forScope.retrieveTopK - 2)⟩
    | .semantic =>
      ⟨forScope.answerTopK, min maxLimit (forScope.rerankTopK + 1),
        min maxLimit (forScope.retrieveTopK + 1)⟩
    | .hybrid => forScope
  let answer := min maxLimit (max env.settings.rerankingTopKAnswer forMode.answerTopK)
  let rerank := min maxLimit (max (max answer env.settings.rerankingTopKRerank) forMode.rerankTopK)
  ⟨answer, rerank,
    min maxLimit (max (max rerank env.settings.rerankingTopKRetrieve) forMode.retrieveTopK)⟩

/-- `_retrieve_structural_section_hits` -/
def retrieveStructuralSectionHits (documentIds : List Uuid) (query : String) (topK : Nat) :
    List RetrievedChunk :=
  let sectionTerms := env.tables.extractStructuralSectionTerms query
  if sectionTerms = [] ∨ documentIds = [] then []
  else
    let exactHits := firstBy RetrievedChunkRow.chunkId (sectionTerms.flatMap (fun term =>
      index.searchDocumentTextGlobal env.backend documentIds term (max topK 8)))
    expandAndCluster index
      ((ascending (fun row => toLex (row.documentId, row.chunkIndex)) exactHits).take
        (max topK sectionTerms.length))

/-- The part of `retrieve` after the accessible documents: `final_doc_ids` is known. -/
def retrieveWithin (tenantId userId : Uuid) (query : String) (finalDocIds : List Uuid)
    (filters : SearchFilters) (searchMode : SearchMode) : List RetrievedChunk :=
  let plan := env.buildDepthPlan query searchMode finalDocIds.length
  let structuralHits := env.retrieveStructuralSectionHits index finalDocIds query plan.answerTopK
  if structuralHits ≠ [] then structuralHits.take plan.answerTopK
  else
    let searchTopK :=
      if searchMode = .hybrid then plan.retrieveTopK * hybridMultiplier else plan.retrieveTopK
    let vectorResults := boostByQuality (index.searchTopKGlobal env.backend
      (env.embedQuery tenantId query) searchTopK finalDocIds filters)
    let keywordResults := boostByQuality (index.searchBm25Global env.backend query searchTopK
      finalDocIds filters)
    let candidates :=
      match searchMode with
      | .semantic => vectorResults
      | .keyword => keywordResults
      | .hybrid => rrfCombine vectorResults keywordResults plan.retrieveTopK
    expandAndCluster index
      (rerankChunks env tenantId userId query (candidates.take plan.rerankTopK) plan.answerTopK)

/-- `RetrievalService.retrieve`; `none` is the error for an unknown search mode. -/
def retrieve (tenantId userId : Uuid) (query : String) (documentIds : Option (List Uuid))
    (filters : SearchFilters) (searchMode : String) : Option (List RetrievedChunk) :=
  (env.validateSearchMode searchMode).map (fun mode =>
    let accessibleDocs := index.getAccessibleDocumentIdsGlobal userId
    match documentIds with
    | some ids =>
      let finalDocIds := ids.eraseDups.filter (fun id => accessibleDocs.contains id)
      if finalDocIds = [] ∧ ids ≠ [] then []
      else env.retrieveWithin index tenantId userId query finalDocIds filters mode
    | none =>
      if accessibleDocs = [] then []
      else env.retrieveWithin index tenantId userId query accessibleDocs filters mode)

end RetrievalEnvironment

end AverQel.Query
