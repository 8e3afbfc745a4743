/- digest: The filters of a retrieval and the chunks that its results cite, on every path. -/
import AverQel.Query.RetrievalScope

namespace AverQel.Query

open Foundation

/-- An index with the primary keys of its tables, whose embeddings are filed under the documents of
their chunks. -/
structure KeyedIndex extends DocumentIndex where
  chunk_ids : (chunks.map DocumentChunk.id).Nodup
  document_ids : (documents.map Document.id).Nodup
  linked : ∀ embedding ∈ embeddings, ∀ chunk ∈ chunks, chunk.id = embedding.chunkId →
    chunk.documentId = embedding.documentId

def Satisfies (index : DocumentIndex) (filters : SearchFilters) (chunkId : Uuid) : Prop :=
  ∀ chunk ∈ index.chunks, chunk.id = chunkId → ∀ document ∈ index.documents,
    document.id = chunk.documentId → filters.admits document chunk = true

instance (index : DocumentIndex) (filters : SearchFilters) (chunkId : Uuid) :
    Decidable (Satisfies index filters chunkId) := by
  delta Satisfies
  infer_instance

theorem satisfies_of_admits (index : KeyedIndex) {filters : SearchFilters} {chunk : DocumentChunk}
    {document : Document} (chunkKnown : chunk ∈ index.chunks)
    (documentKnown : document ∈ index.documents) (owner : document.id = chunk.documentId)
    (admits : filters.admits document chunk = true) :
    Satisfies index.toDocumentIndex filters chunk.id := by
  intro other otherKnown sameChunk document' known' owner'
  obtain rfl := List.inj_on_of_nodup_map index.chunk_ids otherKnown chunkKnown sameChunk
  obtain rfl := List.inj_on_of_nodup_map index.document_ids known' documentKnown
    (owner'.trans owner.symm)
  exact admits

variable (index : KeyedIndex) (backend : SearchBackend) (filters : SearchFilters)

def AllSatisfy (rows : List RetrievedChunkRow) : Prop :=
  ∀ row ∈ rows, Satisfies index.toDocumentIndex filters row.chunkId

variable {index filters}

variable {rows rows' : List RetrievedChunkRow}

theorem AllSatisfy.derived (satisfied : AllSatisfy index filters rows)
    (origin : Derived rows rows') :
    AllSatisfy index filters rows' := by
  intro row member
  obtain ⟨source, known, _, same⟩ := origin row member
  rw [same]
  exact satisfied source known

theorem AllSatisfy.append (left : AllSatisfy index filters rows)
    (right : AllSatisfy index filters rows') :
    AllSatisfy index filters (rows ++ rows') := by
  intro row member
  rcases List.mem_append.mp member with known | known
  · exact left row known
  · exact right row known

theorem allSatisfy_searchTopKGlobal (queryEmbedding : List ℚ) (topK : Nat)
    (documentIds : List Uuid) :
    AllSatisfy index filters
      (index.searchTopKGlobal backend queryEmbedding topK documentIds filters) := by
  intro row member
  obtain ⟨⟨embedding, chunk, document⟩, found, rfl⟩ := List.mem_map.mp member
  have joined := mem_ascending.mp (List.mem_of_mem_take found)
  simp only [List.mem_flatMap, List.mem_map, List.mem_filter, Prod.mk.injEq,
    decide_eq_true_eq] at joined
  obtain ⟨entry, stored, hit, ⟨chunkKnown, own⟩, _, ⟨documentKnown, owner, _, _, admits⟩, rfl,
    rfl, rfl⟩ := joined
  have linked := index.linked entry stored hit chunkKnown own
  exact satisfies_of_admits index chunkKnown documentKnown (owner.trans linked.symm) admits

theorem allSatisfy_searchBm25Global (query : String) (topK : Nat) (documentIds : List Uuid) :
    AllSatisfy index filters
      (index.searchBm25Global backend query topK documentIds filters) := by
  intro row member
  obtain ⟨⟨chunk, document⟩, found, rfl⟩ := List.mem_map.mp member
  have joined := mem_ascending.mp (List.mem_of_mem_take found)
  simp only [List.mem_flatMap, List.mem_map, List.mem_filter, Prod.mk.injEq,
    decide_eq_true_eq] at joined
  obtain ⟨_, chunkKnown, _, ⟨documentKnown, owner, _, _, _, admits⟩, rfl, rfl⟩ := joined
  exact satisfies_of_admits index chunkKnown documentKnown owner admits

def hitGroups (rows : List RetrievedChunkRow) : List (List RetrievedChunkRow) :=
  (rows.map RetrievedChunkRow.documentId).eraseDups.flatMap fun documentId =>
    (ascending RetrievedChunkRow.chunkIndex
      (rows.filter fun row => row.documentId = documentId)).splitBy
      fun previous hit => hit.chunkIndex ≤ previous.chunkIndex + clusterGap

def leads (rows : List RetrievedChunkRow) : List RetrievedChunkRow :=
  (hitGroups rows).filterMap List.head?

theorem mem_of_mem_group {rows group : List RetrievedChunkRow} (listed : group ∈ hitGroups rows)
    {row : RetrievedChunkRow} (member : row ∈ group) : row ∈ rows := by
  obtain ⟨documentId, _, split⟩ := List.mem_flatMap.mp listed
  have flat := List.mem_flatten.mpr ⟨group, split, member⟩
  rw [List.flatten_splitBy] at flat
  exact (List.mem_filter.mp (mem_ascending.mp flat)).1

theorem bestHit_mem (first : RetrievedChunkRow) (later : List RetrievedChunkRow) :
    bestHit first later = first ∨ bestHit first later ∈ later := by
  induction later generalizing first with
  | nil => exact Or.inl rfl
  | cons row later ih =>
    by_cases better : first.similarityScore < row.similarityScore
    · have step : bestHit first (row :: later) = bestHit row later := by simp [bestHit, better]
      rw [step]
      exact Or.inr (List.mem_cons.mpr (ih row))
    · have step : bestHit first (row :: later) = bestHit first later := by simp [bestHit, better]
      rw [step]
      exact (ih first).imp_right (List.mem_cons_of_mem row)

theorem bestHit_of_equal {first : RetrievedChunkRow} {later : List RetrievedChunkRow}
    (equal : ∀ row ∈ later, row.similarityScore = first.similarityScore) :
    bestHit first later = first := by
  induction later with
  | nil => rfl
  | cons row later ih =>
    have same := equal row List.mem_cons_self
    have rest := ih fun other member => equal other (List.mem_cons_of_mem row member)
    unfold bestHit at rest ⊢
    rw [List.foldl_cons, same, if_neg (lt_irrefl _)]
    exact rest

variable {adjacent : List DocumentChunk} {documentId : Uuid} {index : DocumentIndex}

variable {group : List RetrievedChunkRow}

theorem chunkId_of_mergeCluster {result : RetrievedChunk}
    (merged : mergeCluster adjacent documentId group = some result) :
    ∃ row ∈ group, result.chunkId = row.chunkId := by
  cases group with
  | nil => cases merged
  | cons first later =>
    cases merged
    rcases bestHit_mem first later with here | there
    · exact ⟨first, List.mem_cons_self, by rw [here]⟩
    · exact ⟨_, List.mem_cons_of_mem first there, rfl⟩

variable {rows : List RetrievedChunkRow}

theorem chunkId_of_expandAndCluster {result : RetrievedChunk}
    (member : result ∈ expandAndCluster index rows) :
    ∃ row ∈ rows, result.chunkId = row.chunkId := by
  obtain ⟨documentId, listed, clustered⟩ := List.mem_flatMap.mp (mem_descending.mp member)
  obtain ⟨group, split, merged⟩ := List.mem_filterMap.mp clustered
  obtain ⟨row, known, same⟩ := chunkId_of_mergeCluster merged
  exact ⟨row, mem_of_mem_group (List.mem_flatMap.mpr ⟨documentId, listed, split⟩) known, same⟩

theorem descending_of_equal {α : Type} {f : α → ℚ} {rows : List α} {score : ℚ}
    (equal : ∀ row ∈ rows, f row = score) : descending f rows = rows := by
  apply List.Pairwise.insertionSort_eq
  apply List.pairwise_of_forall_mem_list
  intro a ha b hb
  rw [equal a ha, equal b hb]

theorem mergeCluster_of_equal {score : ℚ} (equal : ∀ row ∈ group, row.similarityScore = score) :
    (mergeCluster adjacent documentId group).map RetrievedChunk.chunkId =
        group.head?.map RetrievedChunkRow.chunkId ∧
      ∀ result ∈ mergeCluster adjacent documentId group,
        result.similarityScore = roundTo 6 (clampScore score) := by
  cases group with
  | nil =>
    refine ⟨rfl, ?_⟩
    rintro result ⟨⟩
  | cons first later =>
    have head := equal first List.mem_cons_self
    have best : bestHit first later = first := bestHit_of_equal fun row member =>
      (equal row (List.mem_cons_of_mem first member)).trans head.symm
    constructor
    · show some (bestHit first later).chunkId = some first.chunkId
      rw [best]
    · rintro result ⟨⟩
      show roundTo 6 (clampScore (bestHit first later).similarityScore) = _
      rw [best, head]

theorem chunkIds_expandAndCluster {score : ℚ} (equal : ∀ row ∈ rows, row.similarityScore = score) :
    (expandAndCluster index rows).map RetrievedChunk.chunkId =
      (leads rows).map RetrievedChunkRow.chunkId := by
  unfold expandAndCluster
  extract_lets documentIds hits adjacent
  have groups : ∀ documentId ∈ documentIds, ∀ group ∈
      (ascending RetrievedChunkRow.chunkIndex (hits documentId)).splitBy
        (fun previous hit => hit.chunkIndex ≤ previous.chunkIndex + clusterGap),
      ∀ row ∈ group, row.similarityScore = score := by
    intro documentId listed group split row member
    exact equal row (mem_of_mem_group (List.mem_flatMap.mpr ⟨documentId, listed, split⟩) member)
  rw [descending_of_equal]
  · rw [leads, hitGroups, List.filterMap_flatMap, List.map_flatMap, List.map_flatMap]
    apply List.flatMap_congr
    intro documentId listed
    rw [List.map_filterMap, List.map_filterMap]
    apply List.filterMap_congr
    intro group split
    exact (mergeCluster_of_equal (groups documentId listed group split)).1
  · intro result member
    obtain ⟨documentId, listed, clustered⟩ := List.mem_flatMap.mp member
    obtain ⟨group, split, merged⟩ := List.mem_filterMap.mp clustered
    exact (mergeCluster_of_equal (groups documentId listed group split)).2 result merged

variable (env : RetrievalEnvironment) (index : DocumentIndex)

/-- The text search hits of the sections that the query names, in the order of the documents and
of the positions in them, as many as the answer and the sections ask for. -/
def sectionHits (documentIds : List Uuid) (query : String) (topK : Nat) :
    List RetrievedChunkRow :=
  let sectionTerms := env.tables.extractStructuralSectionTerms query
  let hits := firstBy RetrievedChunkRow.chunkId (sectionTerms.flatMap fun term =>
    index.searchDocumentTextGlobal env.backend documentIds term (max topK 8))
  (ascending (fun row => toLex (row.documentId, row.chunkIndex)) hits).take
    (max topK sectionTerms.length)

/-- The documents that a retrieval searches; `none` when it returns before. -/
def finalDocIds (userId : Uuid) (documentIds : Option (List Uuid)) : Option (List Uuid) :=
  let accessibleDocs := index.getAccessibleDocumentIdsGlobal userId
  match documentIds with
  | some ids =>
    let known := ids.eraseDups.filter fun id => accessibleDocs.contains id
    if known = [] ∧ ids ≠ [] then none else some known
  | none => if accessibleDocs = [] then none else some accessibleDocs

def SectionsSatisfy (userId : Uuid) (query : String) (documentIds : Option (List Uuid))
    (filters : SearchFilters) (mode : SearchMode) : Prop :=
  ∀ scope ∈ finalDocIds index userId documentIds,
    let topK := (env.buildDepthPlan query mode scope.length).answerTopK
    ∀ lead ∈ (leads (sectionHits env index scope query topK)).take topK,
      Satisfies index filters lead.chunkId

variable {env index}

theorem score_of_sectionHits {documentIds : List Uuid} {query : String} {topK : Nat} :
    ∀ row ∈ sectionHits env index documentIds query topK, row.similarityScore = 1 := by
  intro row member
  have kept := mem_of_mem_firstBy (mem_ascending.mp (List.mem_of_mem_take member))
  obtain ⟨term, _, found⟩ := List.mem_flatMap.mp kept
  unfold DocumentIndex.searchDocumentTextGlobal at found
  extract_lets normalizedQuery at found
  split at found
  · cases found
  · obtain ⟨_, _, rfl⟩ := List.mem_map.mp found
    rfl

theorem sectionHits_of_no_documents {query : String} {topK : Nat} :
    sectionHits env index [] query topK = [] := by
  have none_found : ∀ terms : List String, terms.flatMap (fun term =>
      index.searchDocumentTextGlobal env.backend [] term (max topK 8)) = [] := by
    intro terms
    simp [DocumentIndex.searchDocumentTextGlobal]
  simp [sectionHits, none_found, firstBy, ascending]

theorem retrieveStructuralSectionHits_eq (documentIds : List Uuid) (query : String) (topK : Nat) :
    env.retrieveStructuralSectionHits index documentIds query topK =
      expandAndCluster index (sectionHits env index documentIds query topK) := by
  have empty : expandAndCluster index [] = [] := rfl
  unfold RetrievalEnvironment.retrieveStructuralSectionHits
  extract_lets sectionTerms exactHits
  split
  · rename_i nothing
    rcases nothing with no_terms | no_documents
    · have no_sections : env.tables.extractStructuralSectionTerms query = [] := no_terms
      have none_found : sectionHits env index documentIds query topK = [] := by
        simp [sectionHits, no_sections, firstBy, ascending]
      rw [none_found, empty]
    · rw [no_documents, sectionHits_of_no_documents, empty]
  · rfl

theorem chunkIds_of_structural (documentIds : List Uuid) (query : String) (topK : Nat) :
    (env.retrieveStructuralSectionHits index documentIds query topK).map RetrievedChunk.chunkId =
      (leads (sectionHits env index documentIds query topK)).map RetrievedChunkRow.chunkId := by
  rw [retrieveStructuralSectionHits_eq]
  exact chunkIds_expandAndCluster score_of_sectionHits

theorem retrieve_eq (tenantId userId : Uuid) (query : String) (documentIds : Option (List Uuid))
    (filters : SearchFilters) (searchMode : String) :
    env.retrieve index tenantId userId query documentIds filters searchMode =
      (env.validateSearchMode searchMode).map fun mode =>
        match finalDocIds index userId documentIds with
        | none => []
        | some scope => env.retrieveWithin index tenantId userId query scope filters mode := by
  unfold RetrievalEnvironment.retrieve finalDocIds
  congr 1
  funext mode
  cases documentIds with
  | none | some =>
    dsimp only
    split <;> rfl

variable {env : RetrievalEnvironment} {index : KeyedIndex}

theorem satisfies_of_no_structural {tenantId userId : Uuid} {query : String} {scope : List Uuid}
    {filters : SearchFilters} {mode : SearchMode}
    (nothing : env.retrieveStructuralSectionHits index.toDocumentIndex scope query
      (env.buildDepthPlan query mode scope.length).answerTopK = []) :
    ∀ result ∈ env.retrieveWithin index.toDocumentIndex tenantId userId query scope filters mode,
      Satisfies index.toDocumentIndex filters result.chunkId := by
  intro result member
  unfold RetrievalEnvironment.retrieveWithin at member
  extract_lets plan structuralHits searchTopK vectorResults keywordResults candidates at member
  rw [if_neg (not_not_intro nothing)] at member
  have vector : AllSatisfy index filters vectorResults :=
    (allSatisfy_searchTopKGlobal env.backend _ _ _).derived derived_boostByQuality
  have keyword : AllSatisfy index filters keywordResults :=
    (allSatisfy_searchBm25Global env.backend _ _ _).derived derived_boostByQuality
  have candidate : AllSatisfy index filters candidates := by
    cases mode with
    | semantic => exact vector
    | keyword => exact keyword
    | hybrid => exact (vector.append keyword).derived (derived_rrfCombine keywordResults _)
  have ranked := (candidate.derived (.of_subset (List.take_subset plan.rerankTopK _))).derived
    (derived_rerankChunks env tenantId userId query plan.answerTopK)
  obtain ⟨row, known, same⟩ := chunkId_of_expandAndCluster member
  rw [same]
  exact ranked row known

theorem satisfies_retrieveWithin_iff {tenantId userId : Uuid} {query : String}
    {scope : List Uuid} {filters : SearchFilters} {mode : SearchMode} :
    (∀ result ∈ env.retrieveWithin index.toDocumentIndex tenantId userId query scope filters mode,
        Satisfies index.toDocumentIndex filters result.chunkId) ↔
      let topK := (env.buildDepthPlan query mode scope.length).answerTopK
      ∀ lead ∈ (leads (sectionHits env index.toDocumentIndex scope query topK)).take topK,
        Satisfies index.toDocumentIndex filters lead.chunkId := by
  extract_lets topK
  have cited : (env.retrieveStructuralSectionHits index.toDocumentIndex scope query topK).map
        RetrievedChunk.chunkId =
      (leads (sectionHits env index.toDocumentIndex scope query topK)).map
        RetrievedChunkRow.chunkId := chunkIds_of_structural scope query topK
  by_cases nothing : env.retrieveStructuralSectionHits index.toDocumentIndex scope query topK = []
  · have no_leads : leads (sectionHits env index.toDocumentIndex scope query topK) = [] := by
      rw [nothing] at cited
      exact List.map_eq_nil_iff.mp cited.symm
    rw [no_leads]
    exact iff_of_true (satisfies_of_no_structural nothing) (by simp)
  · have shortcut : env.retrieveWithin index.toDocumentIndex tenantId userId query scope filters
        mode =
        (env.retrieveStructuralSectionHits index.toDocumentIndex scope query topK).take topK :=
      if_pos nothing
    have taken := congrArg (List.take topK) cited
    rw [← List.map_take, ← List.map_take] at taken
    have ids : (∀ id ∈ ((env.retrieveStructuralSectionHits index.toDocumentIndex scope query
            topK).take topK).map RetrievedChunk.chunkId,
          Satisfies index.toDocumentIndex filters id) ↔
        ∀ id ∈ ((leads (sectionHits env index.toDocumentIndex scope query topK)).take topK).map
            RetrievedChunkRow.chunkId, Satisfies index.toDocumentIndex filters id := by
      rw [taken]
    rw [shortcut]
    simpa only [List.forall_mem_map] using ids

/-- The chunks that a retrieval cites pass the filters exactly when those do at which the hits of
the named sections begin. -/
theorem retrieve_satisfies_iff (env : RetrievalEnvironment) (index : KeyedIndex)
    (tenantId userId : Uuid) (query : String) (documentIds : Option (List Uuid))
    (filters : SearchFilters) (searchMode : String) :
    (∀ results, env.retrieve index.toDocumentIndex tenantId userId query documentIds filters
        searchMode = some results →
      ∀ result ∈ results, Satisfies index.toDocumentIndex filters result.chunkId) ↔
    ∀ mode ∈ env.validateSearchMode searchMode,
      SectionsSatisfy env index.toDocumentIndex userId query documentIds filters mode := by
  rw [retrieve_eq]
  cases env.validateSearchMode searchMode with
  | none => simp
  | some =>
    unfold SectionsSatisfy
    cases finalDocIds index.toDocumentIndex userId documentIds with
    | none => simp
    | some =>
      simp only [Option.map_some, Option.some.injEq, forall_eq', Option.mem_some_iff]
      exact satisfies_retrieveWithin_iff

def letterSearch : RetrievalEnvironment :=
  { plainEnvironment with
    backend :=
      { plainEnvironment.backend with
        ilike := fun content term =>
          (content.toList.map Char.toLower).tails.any term.toList.isPrefixOf } }

def sectionChunk : DocumentChunk where
  id := 70
  tenantId := 1
  documentId := 7
  chunkIndex := 0
  content := "Section 2: scope"
  chunkMetadata := ⟨some "text", none, none, none⟩
  qualityScore := none
  searchVector := none

/-- One document of user 1, created at time 5, with one chunk and no embedding yet. -/
def sectionIndex : KeyedIndex where
  documents := [⟨7, 1, 1, "handbook.txt", false, false, some 1, 5⟩]
  chunks := [sectionChunk]
  embeddings := []
  collectionDocuments := []
  collectionPermissions := []
  documentShares := []
  chunk_ids := by decide
  document_ids := by decide
  linked := by simp

/-- Asked for section 2 in documents from time 9 on, the service cites the document of time 5. -/
theorem retrieve_section_ignores_filters :
    ¬ ∀ (env : RetrievalEnvironment) (index : KeyedIndex) (tenantId userId : Uuid) (query : String)
      (documentIds : Option (List Uuid)) (filters : SearchFilters) (searchMode : String) results,
      env.retrieve index.toDocumentIndex tenantId userId query documentIds filters
        searchMode = some results →
      ∀ result ∈ results, Satisfies index.toDocumentIndex filters result.chunkId := by
  intro always
  have found : letterSearch.retrieve sectionIndex.toDocumentIndex 1 1 "What is in section 2?" none
      ⟨some 9, none, none, none, none⟩ "hybrid" =
        some [⟨7, 70, "handbook.txt", [sectionChunk], 1, "text", none, some 1⟩] := by
    decide +kernel
  have passed := always _ _ _ _ _ _ _ _ _ found _ List.mem_cons_self
  revert passed
  decide +kernel

end AverQel.Query
