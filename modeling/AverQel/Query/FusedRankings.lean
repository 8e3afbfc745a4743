/- digest: Fusion and reranking keep the candidates: how many, which, and in which order. -/
import AverQel.Query.RetrievalFilters
import Mathlib.Algebra.Order.Field.Basic
import Mathlib.Algebra.Field.Rat
import Mathlib.Algebra.Order.Ring.Rat

namespace AverQel.Query

open Foundation

variable (vectorResults keywordResults : List RetrievedChunkRow)

def unionIds : List Uuid :=
  ((vectorResults ++ keywordResults).map RetrievedChunkRow.chunkId).eraseDups

/-- The sum of `1 / (RRF_K + rank)` over both lists. -/
def fusedScore (chunkId : Uuid) : ℚ :=
  reciprocalRanks vectorResults chunkId + reciprocalRanks keywordResults chunkId

def rankIn (rows : List RetrievedChunkRow) (chunkId : Uuid) : Nat :=
  (rows.map RetrievedChunkRow.chunkId).idxOf chunkId

/-- The best chunks of both lists, each once, best first. -/
structure Fused (topK : Nat) (result : List RetrievedChunkRow) : Prop where
  distinct : (result.map RetrievedChunkRow.chunkId).Nodup
  derived : Derived (vectorResults ++ keywordResults) result
  count : result.length = min topK (unionIds vectorResults keywordResults).length
  order : (result.map RetrievedChunkRow.chunkId).Pairwise fun a b =>
    fusedScore vectorResults keywordResults b ≤ fusedScore vectorResults keywordResults a
  best : ∀ a ∈ result.map RetrievedChunkRow.chunkId, ∀ b ∈ unionIds vectorResults keywordResults,
    b ∉ result.map RetrievedChunkRow.chunkId →
      fusedScore vectorResults keywordResults b ≤ fusedScore vectorResults keywordResults a
  dominance : ∀ a ∈ unionIds vectorResults keywordResults, ∀ b,
    rankIn vectorResults a ≤ rankIn vectorResults b →
      rankIn keywordResults a ≤ rankIn keywordResults b →
        ∀ above below, result.map RetrievedChunkRow.chunkId = above ++ b :: below → a ∉ above →
          fusedScore vectorResults keywordResults a = fusedScore vectorResults keywordResults b

variable {vectorResults keywordResults} {rows : List RetrievedChunkRow}

theorem sum_reciprocals (distinct : (rows.map RetrievedChunkRow.chunkId).Nodup) (chunkId : Uuid)
    (start : Nat) :
    (((rows.zipIdx start).filter fun placed => placed.1.chunkId = chunkId).map
        fun placed => 1 / (rrfK + placed.2)).sum =
      if chunkId ∈ rows.map RetrievedChunkRow.chunkId then
        1 / (rrfK + ((start + rankIn rows chunkId : Nat) : ℚ)) else 0 := by
  induction rows generalizing start with
  | nil => rfl
  | cons row rest ih =>
    obtain ⟨apart, distinct⟩ := List.nodup_cons.mp distinct
    have later := ih distinct (start + 1)
    rw [List.zipIdx_cons, List.map_cons, rankIn, List.map_cons]
    by_cases here : row.chunkId = chunkId
    · rw [← here, if_neg apart] at later
      rw [← here, List.filter_cons_of_pos (by simp), List.map_cons, List.sum_cons, later,
        if_pos List.mem_cons_self, List.idxOf_cons_self, add_zero, Nat.add_zero]
    · rw [List.filter_cons_of_neg (by simpa using here), later, List.idxOf_cons_ne _ here]
      have place : start + 1 + rankIn rest chunkId = start + (rankIn rest chunkId).succ := by omega
      have member : chunkId ∈ row.chunkId :: rest.map RetrievedChunkRow.chunkId ↔
          chunkId ∈ rest.map RetrievedChunkRow.chunkId :=
        List.mem_cons.trans (or_iff_right (Ne.symm here))
      simp only [member, place]
      rfl

theorem reciprocalRanks_le (distinct : (rows.map RetrievedChunkRow.chunkId).Nodup) {a b : Uuid}
    (before : rankIn rows a ≤ rankIn rows b) : reciprocalRanks rows b ≤ reciprocalRanks rows a := by
  have positive (n : Nat) : (0 : ℚ) < rrfK + n := by
    have nonneg : (0 : ℚ) ≤ n := Nat.cast_nonneg n
    have sixty : (0 : ℚ) < rrfK := by decide +kernel
    exact add_pos_of_pos_of_nonneg sixty nonneg
  rw [reciprocalRanks, reciprocalRanks, sum_reciprocals distinct, sum_reciprocals distinct]
  by_cases there : b ∈ rows.map RetrievedChunkRow.chunkId
  · have here : a ∈ rows.map RetrievedChunkRow.chunkId :=
      List.idxOf_lt_length_iff.mp (lt_of_le_of_lt before (List.idxOf_lt_length_iff.mpr there))
    rw [if_pos there, if_pos here]
    refine one_div_le_one_div_of_le (positive _) (add_le_add_right ?_ rrfK)
    exact Nat.cast_le.mpr (Nat.add_le_add_left before 1)
  · rw [if_neg there]
    split
    · exact le_of_lt (one_div_pos.mpr (positive _))
    · exact le_refl 0

theorem ids_rrfCombine (vectorResults keywordResults : List RetrievedChunkRow) (topK : Nat) :
    (rrfCombine vectorResults keywordResults topK).map RetrievedChunkRow.chunkId =
      (descending (fusedScore vectorResults keywordResults)
        (unionIds vectorResults keywordResults)).take topK := by
  have found {ids : List Uuid} (known : ∀ id ∈ ids, id ∈ unionIds vectorResults keywordResults)
      {f : Uuid → RetrievedChunkRow → RetrievedChunkRow}
      (same : ∀ id row, (f id row).chunkId = row.chunkId) :
      (ids.filterMap fun id => ((vectorResults.reverse ++ keywordResults).find? fun row =>
        row.chunkId = id).map (f id)).map RetrievedChunkRow.chunkId = ids := by
    induction ids with
    | nil => rfl
    | cons id ids ih =>
      have listed := List.mem_eraseDups.mp (known id List.mem_cons_self)
      obtain ⟨source, member, here⟩ := List.mem_map.mp listed
      have some_ : ((vectorResults.reverse ++ keywordResults).find? fun row =>
          row.chunkId = id).isSome := by
        refine List.find?_isSome.mpr ⟨source, ?_, decide_eq_true here⟩
        simpa using member
      obtain ⟨row, hit⟩ := Option.isSome_iff_exists.mp some_
      have own : row.chunkId = id := by simpa using List.find?_some hit
      have first : ((vectorResults.reverse ++ keywordResults).find? fun row =>
          row.chunkId = id).map (f id) = some (f id row) := by rw [hit, Option.map_some]
      simp only [List.filterMap_cons, first]
      rw [List.map_cons, same, own, ih fun other later => known other (List.mem_cons_of_mem id later)]
  exact found (fun id member => mem_descending.mp (List.mem_of_mem_take member)) fun _ _ => rfl

theorem rrfCombine_fused (vectorResults keywordResults : List RetrievedChunkRow) (topK : Nat)
    (vector : (vectorResults.map RetrievedChunkRow.chunkId).Nodup)
    (keyword : (keywordResults.map RetrievedChunkRow.chunkId).Nodup) :
    Fused vectorResults keywordResults topK (rrfCombine vectorResults keywordResults topK) := by
  have ids := ids_rrfCombine vectorResults keywordResults topK
  have all := perm_descending (fusedScore vectorResults keywordResults)
    (unionIds vectorResults keywordResults)
  have apart := all.nodup_iff.mpr (nodup_eraseDups _)
  have sorted := pairwise_descending (fusedScore vectorResults keywordResults)
    (unionIds vectorResults keywordResults)
  have best : ∀ a ∈ (rrfCombine vectorResults keywordResults topK).map RetrievedChunkRow.chunkId,
      ∀ b ∈ unionIds vectorResults keywordResults,
        b ∉ (rrfCombine vectorResults keywordResults topK).map RetrievedChunkRow.chunkId →
          fusedScore vectorResults keywordResults b ≤ fusedScore vectorResults keywordResults a := by
    rw [ids]
    intro a kept b known dropped
    rw [← List.take_append_drop topK (descending _ _)] at sorted
    have listed : b ∈ descending (fusedScore vectorResults keywordResults)
        (unionIds vectorResults keywordResults) := mem_descending.mpr known
    rw [← List.take_append_drop topK (descending _ _)] at listed
    rcases List.mem_append.mp listed with inside | behind
    · exact absurd inside dropped
    · exact (List.pairwise_append.mp sorted).2.2 a kept b behind
  have order : ((rrfCombine vectorResults keywordResults topK).map
      RetrievedChunkRow.chunkId).Pairwise fun a b =>
        fusedScore vectorResults keywordResults b ≤ fusedScore vectorResults keywordResults a := by
    rw [ids]
    exact sorted.sublist (List.take_sublist _ _)
  refine ⟨?_, derived_rrfCombine keywordResults topK, ?_, order, best, ?_⟩
  · rw [ids]
    exact apart.sublist (List.take_sublist _ _)
  · rw [← List.length_map RetrievedChunkRow.chunkId, ids, List.length_take, all.length_eq]
  · intro a known b inVector inKeyword above below shape missed
    have worth : fusedScore vectorResults keywordResults b ≤
        fusedScore vectorResults keywordResults a :=
      add_le_add (reciprocalRanks_le vector inVector) (reciprocalRanks_le keyword inKeyword)
    refine le_antisymm ?_ worth
    have placed : b ∈ (rrfCombine vectorResults keywordResults topK).map
        RetrievedChunkRow.chunkId := by
      rw [shape]
      exact List.mem_append_right above List.mem_cons_self
    by_cases kept : a ∈ (rrfCombine vectorResults keywordResults topK).map RetrievedChunkRow.chunkId
    · rw [shape] at kept order
      rcases List.mem_append.mp kept with early | here
      · exact absurd early missed
      · rcases List.mem_cons.mp here with rfl | later
        · exact le_refl _
        · exact (List.pairwise_cons.mp (List.pairwise_append.mp order).2.1).1 a later
    · exact best b placed a known kept

variable (chunks : List RetrievedChunkRow) (results : List (Int × ℚ))

def Scores (item : Int × ℚ) (row : RetrievedChunkRow) : Prop :=
  0 ≤ item.1 ∧ ∃ chunk, chunks[item.1.toNat]? = some chunk ∧
    row = { chunk with similarityScore := item.2 }

/-- The scored chunks, best first, and after all of them the others as they stood. -/
structure Reranked (topN : Nat) (out : List RetrievedChunkRow) : Prop where
  count : out.length = min topN chunks.length
  distinct : (out.map RetrievedChunkRow.chunkId).Nodup
  parts : ∃ scored others, out = scored ++ others ∧
    (scored.Pairwise fun a b => b.similarityScore ≤ a.similarityScore) ∧
      (∀ row ∈ scored, ∃ item ∈ results, Scores chunks item row) ∧ others.Sublist chunks ∧
        (others ≠ [] → ∀ item ∈ results, ∀ row, Scores chunks item row →
          row.chunkId ∈ scored.map RetrievedChunkRow.chunkId)

variable {chunks results}

theorem mem_scoredRows {row : RetrievedChunkRow} (member : row ∈ scoredRows chunks results) :
    ∃ item ∈ results, Scores chunks item row := by
  obtain ⟨i, listed, built⟩ := List.mem_filterMap.mp (mem_descending.mp member)
  obtain ⟨chunk, found, scored⟩ := Option.bind_eq_some_iff.mp built
  obtain ⟨item, hit, rfl⟩ := Option.map_eq_some_iff.mp scored
  obtain ⟨known, valid⟩ := List.mem_filter.mp (List.mem_reverse.mp (List.mem_of_find?_eq_some hit))
  have same : item.1 = i := by simpa using List.find?_some hit
  rw [← same] at found
  exact ⟨item, known, (of_decide_eq_true valid).1, chunk, found, rfl⟩

theorem chunkId_mem_scoredRows {item : Int × ℚ} (known : item ∈ results)
    {row : RetrievedChunkRow} (scores : Scores chunks item row) :
    row.chunkId ∈ (scoredRows chunks results).map RetrievedChunkRow.chunkId := by
  obtain ⟨positive, chunk, found, rfl⟩ := scores
  have bound := (List.getElem?_eq_some_iff.mp found).1
  have valid : item ∈ results.filter fun item => 0 ≤ item.1 ∧ item.1 < (chunks.length : Int) :=
    List.mem_filter.mpr ⟨known, decide_eq_true ⟨positive, by omega⟩⟩
  have some_ : ((results.filter fun item => 0 ≤ item.1 ∧ item.1 < (chunks.length : Int)).reverse.find?
      fun other => other.1 = item.1).isSome :=
    List.find?_isSome.mpr ⟨item, List.mem_reverse.mpr valid, decide_eq_true rfl⟩
  obtain ⟨last, hit⟩ := Option.isSome_iff_exists.mp some_
  refine List.mem_map.mpr ⟨{ chunk with similarityScore := last.2 }, mem_descending.mpr ?_, rfl⟩
  refine List.mem_filterMap.mpr ⟨item.1, List.mem_eraseDups.mpr (List.mem_map_of_mem valid), ?_⟩
  rw [found, Option.bind_some, hit, Option.map_some]

theorem nodup_scoredRows (distinct : (chunks.map RetrievedChunkRow.chunkId).Nodup) :
    ((scoredRows chunks results).map RetrievedChunkRow.chunkId).Nodup := by
  refine ((perm_descending _ _).map _).nodup_iff.mpr ?_
  refine List.pairwise_map.mpr (List.pairwise_filterMap.mpr ?_)
  refine (nodup_eraseDups _).imp_of_mem ?_
  intro i j here there other a built b built' same
  have positive {i : Int} (listed : i ∈ ((results.filter fun item =>
      0 ≤ item.1 ∧ item.1 < (chunks.length : Int)).map Prod.fst).eraseDups) : 0 ≤ i := by
    obtain ⟨item, inside, rfl⟩ := List.mem_map.mp (List.mem_eraseDups.mp listed)
    exact (of_decide_eq_true (List.mem_filter.mp inside).2).1
  obtain ⟨chunk, found, scored⟩ := Option.bind_eq_some_iff.mp built
  obtain ⟨chunk', found', scored'⟩ := Option.bind_eq_some_iff.mp built'
  obtain ⟨_, _, rfl⟩ := Option.map_eq_some_iff.mp scored
  obtain ⟨_, _, rfl⟩ := Option.map_eq_some_iff.mp scored'
  have place := position_unique RetrievedChunkRow.chunkId distinct found found' same
  have low := positive here
  have low' := positive there
  omega

theorem perm_scoredRows (results : List (Int × ℚ))
    (distinct : (chunks.map RetrievedChunkRow.chunkId).Nodup) :
    ((scoredRows chunks results ++ chunks.filter fun row =>
        row.chunkId ∉ (scoredRows chunks results).map RetrievedChunkRow.chunkId).map
      RetrievedChunkRow.chunkId).Perm (chunks.map RetrievedChunkRow.chunkId) := by
  rw [List.map_append]
  refine (List.perm_ext_iff_of_nodup ?_ distinct).mpr fun id => ?_
  · refine (nodup_scoredRows distinct).append (distinct.sublist (List.filter_sublist.map _)) ?_
    intro id scored rest
    obtain ⟨row, inside, rfl⟩ := List.mem_map.mp rest
    exact of_decide_eq_true (List.mem_filter.mp inside).2 scored
  · rw [List.mem_append]
    constructor
    · rintro (scored | rest)
      · obtain ⟨row, member, rfl⟩ := List.mem_map.mp scored
        obtain ⟨_, _, _, chunk, found, rfl⟩ := mem_scoredRows member
        exact List.mem_map.mpr ⟨chunk, List.mem_of_getElem? found, rfl⟩
      · exact (List.filter_sublist.map _).subset rest
    · intro known
      by_cases scored : id ∈ (scoredRows chunks results).map RetrievedChunkRow.chunkId
      · exact .inl scored
      · obtain ⟨row, member, rfl⟩ := List.mem_map.mp known
        exact .inr (List.mem_map_of_mem (List.mem_filter.mpr ⟨member, decide_eq_true scored⟩))

theorem reranked_scoredRows (distinct : (chunks.map RetrievedChunkRow.chunkId).Nodup) (topN : Nat) :
    Reranked chunks results topN ((if (scoredRows chunks results).length < topN then
      scoredRows chunks results ++ chunks.filter fun row =>
        row.chunkId ∉ (scoredRows chunks results).map RetrievedChunkRow.chunkId
      else scoredRows chunks results).take topN) := by
  have whole := perm_scoredRows results distinct
  have size := whole.length_eq
  have apart := whole.nodup_iff.mpr distinct
  have sorted := pairwise_descending RetrievedChunkRow.similarityScore
  rw [List.length_map, List.length_map] at size
  by_cases few : (scoredRows chunks results).length < topN
  · rw [if_pos few]
    refine ⟨?_, apart.sublist ((List.take_sublist _ _).map _), scoredRows chunks results, _,
      (List.take_append).trans (congrArg (· ++ _) (List.take_of_length_le few.le)), sorted _,
      fun row => mem_scoredRows, (List.take_sublist _ _).trans List.filter_sublist, ?_⟩
    · rw [List.length_take, size]
    · exact fun _ item known row => chunkId_mem_scoredRows known
  · rw [if_neg few]
    refine ⟨?_, (nodup_scoredRows distinct).sublist ((List.take_sublist _ _).map _), _, [],
      (List.append_nil _).symm, (sorted _).sublist (List.take_sublist _ _),
      fun row member => mem_scoredRows (List.mem_of_mem_take member), List.nil_sublist _,
      fun wrong => absurd rfl wrong⟩
    rw [List.length_append] at size
    rw [List.length_take]
    omega

theorem reranked_nil (distinct : (chunks.map RetrievedChunkRow.chunkId).Nodup) (topN : Nat) :
    Reranked chunks [] topN (chunks.take topN) := by
  refine ⟨List.length_take, distinct.sublist ((List.take_sublist _ _).map _), [], _, rfl, .nil,
    fun row wrong => absurd wrong List.not_mem_nil, List.take_sublist _ _, ?_⟩
  exact fun _ item wrong => absurd wrong List.not_mem_nil

def providerAnswer (env : RetrievalEnvironment) (tenantId userId : Uuid) (query : String)
    (chunks : List RetrievedChunkRow) (topN : Nat) : List (Int × ℚ) :=
  if env.settings.rerankingEnabled = false ∨ chunks = [] ∨ topN = 0 then []
  else if env.settings.rerankingProvider = "disabled" then []
  else (env.rerank tenantId userId query (chunks.map RetrievedChunkRow.content)
    (min topN chunks.length)).getD []

theorem rerankChunks_reranked (env : RetrievalEnvironment) (tenantId userId : Uuid)
    (query : String) (topN : Nat) (distinct : (chunks.map RetrievedChunkRow.chunkId).Nodup) :
    Reranked chunks (providerAnswer env tenantId userId query chunks topN) topN
      (rerankChunks env tenantId userId query chunks topN) := by
  unfold providerAnswer rerankChunks
  split
  · exact reranked_nil distinct topN
  split
  · exact reranked_nil distinct topN
  cases env.rerank tenantId userId query (chunks.map RetrievedChunkRow.content)
    (min topN chunks.length) with
  | none => exact reranked_nil distinct topN
  | some results => exact reranked_scoredRows distinct topN

end AverQel.Query
