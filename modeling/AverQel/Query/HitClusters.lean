/- digest: The answer rows hold the chunks around the hits, each of them once. -/
import AverQel.Query.RetrievalFilters

namespace AverQel.Query

open Foundation

section Gaps

universe u

variable {α : Type u} {f : α → Int} {gap : Int}

theorem pairwise_apart_splitBy {rows : List α} (sorted : rows.Pairwise fun a b => f a ≤ f b) :
    (rows.splitBy fun a b => f b ≤ f a + gap).Pairwise fun first second =>
      ∀ a ∈ first, ∀ b ∈ second, f a + gap < f b := by
  have chain := List.isChain_getLast_head_splitBy (fun a b => decide (f b ≤ f a + gap)) rows
  rw [← List.flatten_splitBy (fun a b => decide (f b ≤ f a + gap)) rows] at sorted
  revert chain sorted
  induction rows.splitBy fun a b => decide (f b ≤ f a + gap) with
  | nil => exact fun _ _ => .nil
  | cons first rest ih =>
    intro sorted chain
    obtain ⟨inner, later, across⟩ := List.pairwise_append.mp sorted
    refine List.pairwise_cons.mpr ⟨?_, ih later chain.tail⟩
    intro second listed a here b there
    cases rest with
    | nil => cases listed
    | cons next rest =>
      obtain ⟨filled, full, far⟩ := chain.rel
      have end_ : f a ≤ f (first.getLast filled) :=
        inner.rel_getLast_of_rel_getLast_getLast here (Int.le_refl _)
      obtain ⟨start, tail, rfl⟩ := List.exists_cons_of_ne_nil full
      have least : f start ≤ f b := by
        have flat : b ∈ start :: (tail ++ rest.flatten) :=
          List.mem_flatten.mpr ⟨second, listed, there⟩
        rcases List.mem_cons.mp flat with rfl | behind
        · exact Int.le_refl _
        · exact (List.pairwise_cons.mp later).1 b behind
      have gone : ¬f start ≤ f (first.getLast filled) + gap := of_decide_eq_false far
      omega

/-- Whatever lies within `reach` of the ends of a group lies within `reach` of one of its rows. -/
theorem exists_near {reach : Int} (enough : gap ≤ 2 * reach + 1) {first : α} {later : List α}
    (chain : (first :: later).IsChain fun a b => f b ≤ f a + gap) {i : Int}
    (low : f first - reach ≤ i) (high : i ≤ f (later.getLastD first) + reach) :
    ∃ a ∈ first :: later, f a - reach ≤ i ∧ i ≤ f a + reach := by
  induction later generalizing first with
  | nil => exact ⟨first, List.mem_cons_self, low, high⟩
  | cons next later ih =>
    by_cases here : i ≤ f first + reach
    · exact ⟨first, List.mem_cons_self, low, here⟩
    · have step := chain.rel
      rw [List.getLastD_cons] at high
      obtain ⟨a, member, close⟩ := ih chain.tail (by omega) high
      exact ⟨a, List.mem_cons_of_mem first member, close⟩

theorem countP_le_one_of_pairwise {p : α → Bool} {rows : List α}
    (apart : rows.Pairwise fun a b => ¬(p a = true ∧ p b = true)) : rows.countP p ≤ 1 := by
  induction rows with
  | nil => exact Nat.zero_le 1
  | cons a rest ih =>
    obtain ⟨first, later⟩ := List.pairwise_cons.mp apart
    rw [List.countP_cons]
    by_cases here : p a = true
    · have others : rest.countP p = 0 :=
        List.countP_eq_zero.mpr fun b member there => first b member ⟨here, there⟩
      rw [others, if_pos here]
    · rw [if_neg here]
      exact ih later

end Gaps

structure HitRange where
  documentId : Uuid
  (first last : Int)

def HitRange.Apart (a b : HitRange) : Prop :=
  a.documentId = b.documentId → a.last + neighborExpansion < b.first - neighborExpansion ∨
    b.last + neighborExpansion < a.first - neighborExpansion

def HitRange.Holds (range : HitRange) (row : RetrievedChunkRow) : Prop :=
  row.documentId = range.documentId ∧ range.first ≤ row.chunkIndex ∧ row.chunkIndex ≤ range.last

variable (index : DocumentIndex) (rows : List RetrievedChunkRow)

def chunksBetween (documentId : Uuid) (low high : Int) : List DocumentChunk :=
  (indexRange low high).filterMap fun i =>
    (chunkAt index.chunks documentId i).filter fun chunk => chunk.content ≠ ""

/-- An answer row that reaches one neighbour beyond its outermost hits. -/
structure Merges (range : HitRange) (result : RetrievedChunk) : Prop where
  document : result.documentId = range.documentId
  first : ∃ row ∈ rows, range.Holds row ∧ row.chunkIndex = range.first
  last : ∃ row ∈ rows, range.Holds row ∧ row.chunkIndex = range.last
  content : result.mergedContent = chunksBetween index range.documentId
    (range.first - neighborExpansion) (range.last + neighborExpansion)

/-- The answer rows partition the hits and the chunks around them. -/
structure Partitions (results : List RetrievedChunk) : Prop where
  ranges : ∃ merged : List (HitRange × RetrievedChunk), (merged.map Prod.snd).Perm results ∧
    (∀ m ∈ merged, Merges index rows m.1 m.2) ∧
      merged.Pairwise (fun a b => a.1.Apart b.1) ∧ ∀ row ∈ rows, ∃ m ∈ merged, m.1.Holds row
  hit : ∀ row ∈ rows, ∀ chunk ∈ index.chunks, chunk.documentId = row.documentId →
    chunk.chunkIndex = row.chunkIndex → chunk.content ≠ "" →
      results.countP (fun result => chunk ∈ result.mergedContent) = 1
  apart : ∀ chunk, results.countP (fun result => chunk ∈ result.mergedContent) ≤ 1

variable {index : DocumentIndex} {documentId : Uuid} {i low high : Int} {chunk : DocumentChunk}

theorem mem_indexRange : i ∈ indexRange low high ↔ low ≤ i ∧ i ≤ high := by
  have range : i ∈ indexRange low high ↔ ∃ offset < (high + 1 - low).toNat, low + (offset : Int) = i := by
    simp [indexRange]
  rw [range]
  constructor
  · rintro ⟨offset, bound, rfl⟩
    omega
  · rintro ⟨above, below⟩
    exact ⟨(i - low).toNat, by omega, by omega⟩

theorem chunkAt_eq_some {chunks : List DocumentChunk}
    (found : chunkAt chunks documentId i = some chunk) :
    chunk ∈ chunks ∧ chunk.documentId = documentId ∧ chunk.chunkIndex = i :=
  ⟨(mem_chunkAt found).1, by simpa using List.find?_some found⟩

theorem chunkAt_asked {wanted : List (Uuid × List Int)} {indices : List Int}
    (asked : (documentId, indices) ∈ wanted) (inside : i ∈ indices) :
    chunkAt (index.getChunksByIndicesGlobal wanted) documentId i =
      chunkAt index.chunks documentId i := by
  rw [chunkAt, chunkAt, DocumentIndex.getChunksByIndicesGlobal, ← List.filter_reverse,
    List.find?_filter]
  congr 1
  funext chunk
  by_cases here : chunk.documentId = documentId ∧ chunk.chunkIndex = i
  · have read : ∃ entry ∈ wanted, documentId = entry.1 ∧ i ∈ entry.2 := ⟨_, asked, rfl, inside⟩
    simpa [here] using read
  · simp [here]

theorem chunkAt_of_neg {chunks : List DocumentChunk} (counted : ∀ chunk ∈ chunks,
    0 ≤ chunk.chunkIndex) (below : i < 0) : chunkAt chunks documentId i = none := by
  refine Option.eq_none_iff_forall_ne_some.mpr fun chunk found => ?_
  obtain ⟨member, _, rfl⟩ := chunkAt_eq_some found
  exact absurd (counted chunk member) (by omega)

theorem chunkAt_of_mem (unique : (index.chunks.map fun chunk =>
    (chunk.documentId, chunk.chunkIndex)).Nodup) (member : chunk ∈ index.chunks) :
    chunkAt index.chunks chunk.documentId chunk.chunkIndex = some chunk := by
  cases found : chunkAt index.chunks chunk.documentId chunk.chunkIndex with
  | none =>
    have missing := List.find?_eq_none.mp found chunk (List.mem_reverse.mpr member)
    simp at missing
  | some =>
    obtain ⟨known, document, place⟩ := chunkAt_eq_some found
    rw [List.inj_on_of_nodup_map unique known member (Prod.ext document place)]

theorem mem_chunksBetween (inside : chunk ∈ chunksBetween index documentId low high) :
    chunk.documentId = documentId ∧ low ≤ chunk.chunkIndex ∧ chunk.chunkIndex ≤ high := by
  obtain ⟨i, within, kept⟩ := List.mem_filterMap.mp inside
  obtain ⟨_, document, rfl⟩ := chunkAt_eq_some (Option.filter_eq_some_iff.mp kept).1
  exact ⟨document, mem_indexRange.mp within⟩

variable {index : DocumentIndex} {rows : List RetrievedChunkRow} {documentId : Uuid}

def clustersOf (rows : List RetrievedChunkRow) (documentId : Uuid) :
    List (List RetrievedChunkRow) :=
  (ascending RetrievedChunkRow.chunkIndex
    (rows.filter fun row => row.documentId = documentId)).splitBy
    fun previous hit => hit.chunkIndex ≤ previous.chunkIndex + clusterGap

def HitRange.of (documentId : Uuid) : List RetrievedChunkRow → HitRange
  | [] => ⟨documentId, 0, 0⟩
  | first :: later => ⟨documentId, first.chunkIndex, (later.getLastD first).chunkIndex⟩

variable {cluster : List RetrievedChunkRow}

theorem holds_of (sorted : cluster.Pairwise fun a b => a.chunkIndex ≤ b.chunkIndex)
    (own : ∀ row ∈ cluster, row.documentId = documentId) :
    ∀ row ∈ cluster, (HitRange.of documentId cluster).Holds row := by
  intro row member
  cases cluster with
  | nil => cases member
  | cons =>
    refine ⟨own row member, ?_, ?_⟩
    · rcases List.mem_cons.mp member with rfl | behind
      · exact Int.le_refl _
      · exact (List.pairwise_cons.mp sorted).1 row behind
    · have last := sorted.rel_getLast_of_rel_getLast_getLast member (Int.le_refl _)
      rw [List.getLast_eq_getLastD] at last
      exact last

theorem of_mem_clustersOf (listed : cluster ∈ clustersOf rows documentId) :
    (∀ row ∈ cluster, row ∈ rows ∧ row.documentId = documentId) ∧
      cluster.Pairwise fun a b => a.chunkIndex ≤ b.chunkIndex := by
  constructor
  · intro row member
    have inside := List.mem_flatten.mpr ⟨cluster, listed, member⟩
    rw [clustersOf, List.flatten_splitBy] at inside
    exact (List.mem_filter.mp (mem_ascending.mp inside)).imp_right of_decide_eq_true
  · have all := pairwise_ascending RetrievedChunkRow.chunkIndex
      (rows.filter fun row => row.documentId = documentId)
    rw [← List.flatten_splitBy (fun previous hit =>
      decide (hit.chunkIndex ≤ previous.chunkIndex + clusterGap)) (ascending _ _)] at all
    exact (List.pairwise_flatten.mp all).1 cluster listed

variable (index) in
theorem merges_cluster {adjacent : List DocumentChunk}
    (listed : cluster ∈ clustersOf rows documentId)
    (counted : ∀ chunk ∈ index.chunks, 0 ≤ chunk.chunkIndex)
    (read : ∀ row ∈ rows, row.documentId = documentId → ∀ i, 0 ≤ i →
      row.chunkIndex - neighborExpansion ≤ i → i ≤ row.chunkIndex + neighborExpansion →
        chunkAt adjacent documentId i = chunkAt index.chunks documentId i)
    (part : ∀ chunk ∈ adjacent, chunk ∈ index.chunks) {result : RetrievedChunk}
    (merged : mergeCluster adjacent documentId cluster = some result) :
    Merges index rows (HitRange.of documentId cluster) result := by
  obtain ⟨flat, sorted⟩ := of_mem_clustersOf listed
  have holds := holds_of sorted fun row member => (flat row member).2
  cases cluster with
  | nil => cases merged
  | cons first later =>
    obtain rfl := Option.some.inj merged
    have end_ : later.getLastD first ∈ first :: later := List.getLastD_mem_cons
    refine ⟨rfl, ⟨first, (flat first List.mem_cons_self).1, holds first List.mem_cons_self, rfl⟩,
      ⟨_, (flat _ end_).1, holds _ end_, rfl⟩, ?_⟩
    refine List.filterMap_congr fun i inside => ?_
    have bounds := mem_indexRange.mp inside
    have same : chunkAt adjacent documentId i = chunkAt index.chunks documentId i := by
      by_cases below : i < 0
      · rw [chunkAt_of_neg counted below, chunkAt_of_neg (fun c h => counted c (part c h)) below]
      · -- a gap of two leaves no index that is not next to a hit
        obtain ⟨row, member, low, high⟩ := exists_near (by decide : clusterGap ≤ 2 * neighborExpansion + 1)
          (List.isChain_of_mem_splitBy listed |>.imp fun _ _ => of_decide_eq_true) bounds.1 bounds.2
        exact read row (flat row member).1 (flat row member).2 i (by omega) low high
    rw [same]
    rfl

def hitDocuments (rows : List RetrievedChunkRow) : List Uuid :=
  (rows.map RetrievedChunkRow.documentId).eraseDups

def adjacentChunks (index : DocumentIndex) (rows : List RetrievedChunkRow) : List DocumentChunk :=
  index.getChunksByIndicesGlobal ((hitDocuments rows).map fun documentId =>
    (documentId, neighborIndices (rows.filter fun row => row.documentId = documentId)))

def mergedRanges (index : DocumentIndex) (rows : List RetrievedChunkRow) :
    List (HitRange × RetrievedChunk) :=
  (hitDocuments rows).flatMap fun documentId => (clustersOf rows documentId).filterMap fun cluster =>
    (mergeCluster (adjacentChunks index rows) documentId cluster).map
      (Prod.mk (HitRange.of documentId cluster))

theorem expandAndCluster_perm (index : DocumentIndex) (rows : List RetrievedChunkRow) :
    ((mergedRanges index rows).map Prod.snd).Perm (expandAndCluster index rows) := by
  refine List.Perm.trans ?_ (perm_descending RetrievedChunk.similarityScore _).symm
  refine List.Perm.of_eq ?_
  rw [mergedRanges, List.map_flatMap]
  refine congrArg (fun f => List.flatMap f (hitDocuments rows)) (funext fun documentId => ?_)
  rw [List.map_filterMap]
  refine List.filterMap_congr fun cluster _ => ?_
  rw [Option.map_map]
  exact Option.map_id'

theorem mem_hitDocuments {row : RetrievedChunkRow} (member : row ∈ rows) :
    row.documentId ∈ hitDocuments rows :=
  List.mem_eraseDups.mpr (List.mem_map_of_mem member)

variable (rows) in
theorem merges_of_mem (counted : ∀ chunk ∈ index.chunks, 0 ≤ chunk.chunkIndex) :
    ∀ m ∈ mergedRanges index rows, Merges index rows m.1 m.2 := by
  intro m member
  obtain ⟨documentId, _, inside⟩ := List.mem_flatMap.mp member
  obtain ⟨cluster, listed, built⟩ := List.mem_filterMap.mp inside
  obtain ⟨result, merged, rfl⟩ := Option.map_eq_some_iff.mp built
  refine merges_cluster index listed counted ?_ (fun chunk read => (List.mem_filter.mp read).1) merged
  rintro row known rfl i positive low high
  refine chunkAt_asked (List.mem_map.mpr ⟨_, mem_hitDocuments known, rfl⟩) ?_
  refine List.mem_flatMap.mpr ⟨row, List.mem_filter.mpr ⟨known, decide_eq_true rfl⟩, ?_⟩
  exact List.mem_filter.mpr ⟨mem_indexRange.mpr ⟨low, high⟩, decide_eq_true positive⟩

theorem apart_mergedRanges : (mergedRanges index rows).Pairwise fun a b => a.1.Apart b.1 := by
  have named (documentId : Uuid) (cluster : List RetrievedChunkRow) :
      (HitRange.of documentId cluster).documentId = documentId := by
    cases cluster <;> rfl
  refine List.pairwise_flatMap.mpr ⟨?_, ?_⟩
  · intro documentId _
    refine List.pairwise_filterMap.mpr ?_
    refine (pairwise_apart_splitBy (pairwise_ascending _ _)).imp ?_
    intro a b far m merged n merged' _
    obtain ⟨_, here, rfl⟩ := Option.map_eq_some_iff.mp merged
    obtain ⟨_, there, rfl⟩ := Option.map_eq_some_iff.mp merged'
    cases a with
    | nil => cases here
    | cons first later =>
      cases b with
      | nil => cases there
      | cons next =>
        have gap := far _ List.getLastD_mem_cons next List.mem_cons_self
        left
        change (later.getLastD first).chunkIndex + 1 < next.chunkIndex - 1
        change (later.getLastD first).chunkIndex + 2 < next.chunkIndex at gap
        omega
  · refine (nodup_eraseDups _).imp ?_
    intro d e other m inside n inside' same
    obtain ⟨cluster, _, built⟩ := List.mem_filterMap.mp inside
    obtain ⟨cluster', _, built'⟩ := List.mem_filterMap.mp inside'
    obtain ⟨_, _, rfl⟩ := Option.map_eq_some_iff.mp built
    obtain ⟨_, _, rfl⟩ := Option.map_eq_some_iff.mp built'
    exact absurd ((named d cluster).symm.trans (same.trans (named e cluster'))) other

variable (index) in
theorem exists_holds {row : RetrievedChunkRow} (member : row ∈ rows) :
    ∃ m ∈ mergedRanges index rows, m.1.Holds row := by
  have inside : row ∈ (clustersOf rows row.documentId).flatten := by
    rw [clustersOf, List.flatten_splitBy, mem_ascending]
    exact List.mem_filter.mpr ⟨member, decide_eq_true rfl⟩
  obtain ⟨cluster, listed, here⟩ := List.mem_flatten.mp inside
  obtain ⟨flat, ordered⟩ := of_mem_clustersOf listed
  cases cluster with
  | nil => cases here
  | cons =>
    refine ⟨_, List.mem_flatMap.mpr ⟨_, mem_hitDocuments member, List.mem_filterMap.mpr
      ⟨_, listed, rfl⟩⟩, holds_of ordered (fun other there => (flat other there).2) row here⟩

end AverQel.Query
