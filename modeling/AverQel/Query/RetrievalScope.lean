/- digest: Which documents a retrieval reads: every branch stays in the scope unless the scope is
   the empty list. -/
import AverQel.Query.Retrieval
import Mathlib.Data.List.SplitBy

namespace AverQel.Query

open Foundation

variable {documentId : Uuid}

theorem inScope_of_nonempty {documentIds : List Uuid} (scope : documentIds ≠ [])
    (h : inScope documentIds documentId = true) :
    documentId ∈ documentIds := by
  simpa [inScope, scope] using h

def Within (documentIds : List Uuid) (rows : List RetrievedChunkRow) : Prop :=
  ∀ row ∈ rows, row.documentId ∈ documentIds

theorem Within.mono {documentIds : List Uuid} {rows rows' : List RetrievedChunkRow}
    (within : Within documentIds rows)
    (origin : ∀ row ∈ rows', ∃ source ∈ rows, row.documentId = source.documentId) :
    Within documentIds rows' := by
  intro row member
  obtain ⟨source, known, same⟩ := origin row member
  rw [same]
  exact within source known

theorem Within.take {documentIds : List Uuid} {rows : List RetrievedChunkRow}
    (within : Within documentIds rows) (n : Nat) : Within documentIds (rows.take n) :=
  fun row member => within row (List.mem_of_mem_take member)

variable (index : DocumentIndex) (backend : SearchBackend) {documentIds : List Uuid}

theorem within_searchTopKGlobal (scope : documentIds ≠ []) (queryEmbedding : List ℚ)
    (topK : Nat) (filters : SearchFilters) :
    Within documentIds
      (index.searchTopKGlobal backend queryEmbedding topK documentIds filters) := by
  intro row member
  obtain ⟨⟨embedding, chunk, document⟩, found, rfl⟩ := List.mem_map.mp member
  have joined := mem_ascending.mp (List.mem_of_mem_take found)
  simp only [List.mem_flatMap, List.mem_map, List.mem_filter, Prod.mk.injEq,
    decide_eq_true_eq] at joined
  obtain ⟨_, _, _, _, _, ⟨_, _, _, allowed, _⟩, rfl, rfl, rfl⟩ := joined
  exact inScope_of_nonempty scope allowed

theorem within_searchBm25Global (scope : documentIds ≠ []) (query : String) (topK : Nat)
    (filters : SearchFilters) :
    Within documentIds (index.searchBm25Global backend query topK documentIds filters) := by
  intro row member
  obtain ⟨⟨chunk, document⟩, found, rfl⟩ := List.mem_map.mp member
  have joined := mem_ascending.mp (List.mem_of_mem_take found)
  simp only [List.mem_flatMap, List.mem_map, List.mem_filter, Prod.mk.injEq,
    decide_eq_true_eq] at joined
  obtain ⟨_, _, _, ⟨_, _, _, _, allowed, _⟩, rfl, rfl⟩ := joined
  exact inScope_of_nonempty scope allowed

theorem within_searchDocumentTextGlobal (query : String) (limit : Nat) :
    Within documentIds (index.searchDocumentTextGlobal backend documentIds query limit) := by
  intro row member
  unfold DocumentIndex.searchDocumentTextGlobal at member
  extract_lets normalizedQuery at member
  split at member
  · cases member
  · rename_i joined _
    obtain ⟨⟨chunk, document⟩, found, rfl⟩ := List.mem_map.mp member
    have listed := mem_ascending.mp (List.mem_of_mem_take found)
    simp only [joined, List.mem_flatMap, List.mem_map, List.mem_filter, Prod.mk.injEq,
      decide_eq_true_eq] at listed
    obtain ⟨_, _, _, ⟨_, _, _, allowed, _⟩, rfl, rfl⟩ := listed
    exact allowed

def Derived (rows rows' : List RetrievedChunkRow) : Prop :=
  ∀ row ∈ rows', ∃ source ∈ rows,
    row.documentId = source.documentId ∧ row.chunkId = source.chunkId

theorem Derived.of_subset {rows rows' : List RetrievedChunkRow} (part : rows' ⊆ rows) :
    Derived rows rows' :=
  fun row member => ⟨row, part member, rfl, rfl⟩

theorem Within.derived {documentIds : List Uuid} {rows rows' : List RetrievedChunkRow}
    (within : Within documentIds rows) (origin : Derived rows rows') : Within documentIds rows' :=
  within.mono fun row member =>
    have ⟨source, known, same, _⟩ := origin row member
    ⟨source, known, same⟩

variable {rows : List RetrievedChunkRow}

theorem derived_boostByQuality : Derived rows (boostByQuality rows) := by
  intro row member
  obtain ⟨source, known, rfl⟩ := List.mem_map.mp (mem_descending.mp member)
  refine ⟨source, known, ?_⟩
  cases source.qualityScore <;> exact ⟨rfl, rfl⟩

theorem derived_rrfCombine (keywordRows : List RetrievedChunkRow) (topK : Nat) :
    Derived (rows ++ keywordRows) (rrfCombine rows keywordRows topK) := by
  intro row member
  obtain ⟨chunkId, _, fused⟩ := List.mem_filterMap.mp member
  obtain ⟨source, found, rfl⟩ := Option.map_eq_some_iff.mp fused
  refine ⟨source, ?_, rfl, rfl⟩
  rcases List.mem_append.mp (List.mem_of_find?_eq_some found) with known | known
  · exact List.mem_append_left _ (List.mem_reverse.mp known)
  · exact List.mem_append_right _ known

theorem derived_scoredRows (results : List (Int × ℚ)) : Derived rows (scoredRows rows results) := by
  intro row member
  obtain ⟨i, _, scored⟩ := List.mem_filterMap.mp (mem_descending.mp member)
  obtain ⟨source, found, scored⟩ := Option.bind_eq_some_iff.mp scored
  obtain ⟨item, _, rfl⟩ := Option.map_eq_some_iff.mp scored
  exact ⟨source, List.mem_of_getElem? found, rfl, rfl⟩

theorem derived_rerankChunks (env : RetrievalEnvironment) (tenantId userId : Uuid)
    (query : String) (topN : Nat) :
    Derived rows (rerankChunks env tenantId userId query rows topN) := by
  unfold Query.rerankChunks
  split
  · exact .of_subset (List.take_subset _ _)
  split
  · exact .of_subset (List.take_subset _ _)
  split
  · exact .of_subset (List.take_subset _ _)
  · rename_i results _
    have scored : Derived rows (scoredRows rows results) := derived_scoredRows results
    intro row member
    have member := List.mem_of_mem_take member
    split at member
    · rcases List.mem_append.mp member with known | rest
      · exact scored row known
      · exact ⟨row, (List.mem_filter.mp rest).1, rfl, rfl⟩
    · exact scored row member

theorem Within.append {documentIds : List Uuid} {keywordRows : List RetrievedChunkRow}
    (vector : Within documentIds rows) (keyword : Within documentIds keywordRows) :
    Within documentIds (rows ++ keywordRows) := by
  intro row member
  rcases List.mem_append.mp member with known | known
  · exact vector row known
  · exact keyword row known

theorem mem_chunkAt {chunks : List DocumentChunk} {i : Int} {chunk : DocumentChunk}
    (h : chunkAt chunks documentId i = some chunk) :
    chunk ∈ chunks ∧ chunk.documentId = documentId := by
  have found := List.find?_some h
  have member := List.mem_reverse.mp (List.mem_of_find?_eq_some h)
  have placed : chunk.documentId = documentId ∧ chunk.chunkIndex = i := by simpa using found
  exact ⟨member, placed.1⟩

theorem documentId_of_mergeCluster {adjacent : List DocumentChunk}
    {cluster : List RetrievedChunkRow} {result : RetrievedChunk}
    (h : mergeCluster adjacent documentId cluster = some result) {chunk : DocumentChunk}
    (part : chunk ∈ result.mergedContent) :
    chunk ∈ adjacent ∧ chunk.documentId = documentId := by
  cases cluster with
  | nil => cases h
  | cons =>
    cases h
    obtain ⟨i, _, kept⟩ := List.mem_filterMap.mp part
    exact mem_chunkAt (Option.filter_eq_some_iff.mp kept).1

theorem mergedContent_of_expandAndCluster {index : DocumentIndex} {documentIds : List Uuid}
    {rows : List RetrievedChunkRow} (within : Within documentIds rows) {result : RetrievedChunk}
    (member : result ∈ expandAndCluster index rows) {chunk : DocumentChunk}
    (part : chunk ∈ result.mergedContent) :
    chunk ∈ index.chunks ∧ chunk.documentId ∈ documentIds := by
  obtain ⟨documentId, listed, clustered⟩ := List.mem_flatMap.mp (mem_descending.mp member)
  obtain ⟨cluster, _, merged⟩ := List.mem_filterMap.mp clustered
  obtain ⟨read, rfl⟩ := documentId_of_mergeCluster merged part
  obtain ⟨row, known, same⟩ := List.mem_map.mp (List.mem_eraseDups.mp listed)
  refine ⟨(List.mem_filter.mp read).1, ?_⟩
  rw [← same]
  exact within row known

variable {env : RetrievalEnvironment} {index : DocumentIndex}

theorem mergedContent_of_structural {documentIds : List Uuid} {query : String} {topK : Nat}
    {result : RetrievedChunk}
    (member : result ∈ env.retrieveStructuralSectionHits index documentIds query topK)
    {chunk : DocumentChunk} (part : chunk ∈ result.mergedContent) :
    chunk ∈ index.chunks ∧ chunk.documentId ∈ documentIds := by
  unfold RetrievalEnvironment.retrieveStructuralSectionHits at member
  extract_lets sectionTerms at member
  split at member
  · cases member
  · refine mergedContent_of_expandAndCluster ?_ member part
    intro row taken
    have kept := mem_of_mem_firstBy (mem_ascending.mp (List.mem_of_mem_take taken))
    obtain ⟨term, _, found⟩ := List.mem_flatMap.mp kept
    exact within_searchDocumentTextGlobal index env.backend term _ row found

theorem mergedContent_of_retrieveWithin {tenantId userId : Uuid} {query : String}
    {documentIds : List Uuid} {filters : SearchFilters} {searchMode : SearchMode}
    (scope : documentIds ≠ []) {result : RetrievedChunk}
    (member : result ∈ env.retrieveWithin index tenantId userId query documentIds filters
      searchMode) {chunk : DocumentChunk} (part : chunk ∈ result.mergedContent) :
    chunk ∈ index.chunks ∧ chunk.documentId ∈ documentIds := by
  unfold RetrievalEnvironment.retrieveWithin at member
  extract_lets plan structuralHits searchTopK vectorResults keywordResults candidates at member
  have vector : Within documentIds vectorResults :=
    (within_searchTopKGlobal index env.backend scope _ _ _).derived derived_boostByQuality
  have keyword : Within documentIds keywordResults :=
    (within_searchBm25Global index env.backend scope _ _ _).derived derived_boostByQuality
  have candidate : Within documentIds candidates := by
    cases searchMode with
    | semantic => exact vector
    | keyword => exact keyword
    | hybrid => exact (vector.append keyword).derived (derived_rrfCombine keywordResults _)
  split at member
  · exact mergedContent_of_structural (List.mem_of_mem_take member) part
  · exact mergedContent_of_expandAndCluster
      ((candidate.take _).derived (derived_rerankChunks env tenantId userId query _)) member part

def Contained (index : DocumentIndex) (userId : Uuid) (documentIds : Option (List Uuid))
    (results : List RetrievedChunk) : Prop :=
  ∀ result ∈ results, ∀ chunk ∈ result.mergedContent,
    chunk.documentId ∈ index.getAccessibleDocumentIdsGlobal userId ∧
      ∀ ids, documentIds = some ids → chunk.documentId ∈ ids

theorem contained_of_ne_some_nil {tenantId userId : Uuid} {query : String}
    {documentIds : Option (List Uuid)} {filters : SearchFilters} {searchMode : String}
    {results : List RetrievedChunk} (named : documentIds ≠ some [])
    (h : env.retrieve index tenantId userId query documentIds filters searchMode = some results) :
    Contained index userId documentIds results := by
  obtain ⟨mode, _, rfl⟩ := Option.map_eq_some_iff.mp h
  intro result member chunk part
  cases documentIds with
  | none =>
    dsimp only at member
    split at member
    · cases member
    · rename_i scope
      have known := mergedContent_of_retrieveWithin scope member part
      refine ⟨known.2, ?_⟩
      intro ids chosen
      cases chosen
  | some ids =>
    dsimp only at member
    split at member
    · cases member
    · rename_i open_scope
      have given : ids ≠ [] := fun none_given => named (congrArg some none_given)
      have scope : ids.eraseDups.filter
          (fun id => (index.getAccessibleDocumentIdsGlobal userId).contains id) ≠ [] :=
        fun closed => open_scope ⟨closed, given⟩
      have known := (mergedContent_of_retrieveWithin scope member part).2
      have both := List.mem_filter.mp known
      refine ⟨by simpa using both.2, ?_⟩
      rintro _ ⟨⟩
      exact List.mem_eraseDups.mp both.1

/-- A service without a reranker, whose text search matches everything. -/
def plainEnvironment : RetrievalEnvironment where
  settings :=
    { rerankingEnabled := false
      rerankingProvider := "disabled"
      rerankingTopKRetrieve := 12
      rerankingTopKRerank := 8
      rerankingTopKAnswer := 5
      queryTopKMax := 25 }
  tables := CharTables.ascii
  backend :=
    { l2Distance := fun _ _ => 0
      tsMatches := fun _ _ => true
      tsRank := fun _ _ => 1
      ilike := fun _ _ => true }
  embedQuery := fun _ _ => []
  rerank := fun _ _ _ _ _ => none

def noFilters : SearchFilters := ⟨none, none, none, none, none⟩

def foreignChunk : DocumentChunk where
  id := 70
  tenantId := 2
  documentId := 7
  chunkIndex := 0
  content := "salaries"
  chunkMetadata := ⟨none, none, none, none⟩
  qualityScore := none
  searchVector := some ["salari"]

/-- One document, of user 2 in tenant 2. -/
def foreignIndex : DocumentIndex where
  documents := [⟨7, 2, 2, "salaries.txt", false, false, none, 0⟩]
  chunks := [foreignChunk]
  embeddings := []
  collectionDocuments := []
  collectionPermissions := []
  documentShares := []

theorem retrieve_empty_scope :
    plainEnvironment.retrieve foreignIndex 1 1 "salaries" (some []) noFilters "keyword" =
      some [⟨7, 70, "salaries.txt", [foreignChunk], 1, "text", none, some 1⟩] := by
  decide +kernel

/-- User 1 may read nothing and reads the document of user 2. -/
theorem empty_scope_reads_foreign_document :
    ∃ results, plainEnvironment.retrieve foreignIndex 1 1 "salaries" (some []) noFilters
        "keyword" = some results ∧ ¬ Contained foreignIndex 1 (some []) results := by
  refine ⟨_, retrieve_empty_scope, ?_⟩
  intro contained
  have named := (contained _ List.mem_cons_self foreignChunk List.mem_cons_self).2
  exact List.not_mem_nil (named [] rfl)

/-- Only the empty list of documents leaves the scope. -/
theorem retrieve_contained_iff (documentIds : Option (List Uuid)) :
    (∀ (env : RetrievalEnvironment) (index : DocumentIndex) (tenantId userId : Uuid)
      (query : String) (filters : SearchFilters) (searchMode : String)
      (results : List RetrievedChunk),
      env.retrieve index tenantId userId query documentIds filters searchMode = some results →
        Contained index userId documentIds results) ↔ documentIds ≠ some [] := by
  constructor
  · rintro contained rfl
    have leak := contained _ _ _ _ _ _ _ _ retrieve_empty_scope
    have named := (leak _ List.mem_cons_self foreignChunk List.mem_cons_self).2
    exact List.not_mem_nil (named [] rfl)
  · intro named env index tenantId userId query filters searchMode results h
    exact contained_of_ne_some_nil named h

end AverQel.Query
