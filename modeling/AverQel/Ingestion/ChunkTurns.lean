/- digest: What one turn of the splitting loop does to its text, and why the loop ends. -/
import AverQel.Foundation.Letters
import AverQel.Ingestion.Chunking

namespace AverQel.Ingestion.Chunking

open Foundation Loops
open Foundation.Text

variable (sizes : Sizes)

section Cuts

variable {sizes}

theorem mem_of_lastStop {pattern : Pattern Char} {region : List Char} {middle stop : Nat}
    (found : lastStop pattern region middle = some stop) :
    ∃ place ∈ pattern.finditer region, place.stop = stop := by
  obtain ⟨place, first, rfl⟩ := Option.map_eq_some_iff.mp found
  exact ⟨place, List.mem_reverse.mp (List.mem_of_find?_eq_some first), rfl⟩

theorem take_of_lastStop {pattern : Pattern Char} {accepts : Char → Bool}
    (tail : pattern.tail = .one accepts) (blanks : ∀ c, accepts c = true → isSpace c = true)
    {buffer : List Char} {size middle stop : Nat}
    (found : lastStop pattern (buffer.take size) middle = some stop) :
    ∃ head c, buffer.take stop = head ++ [c] ∧ isSpace c = true ∧ stop = head.length + 1 := by
  obtain ⟨place, member, rfl⟩ := mem_of_lastStop found
  obtain ⟨head, c, text, accepted, length⟩ := pattern.take_stop_of_mem_finditer tail member
  have inside : place.stop ≤ size := by
    have short := congrArg List.length text
    simp only [List.length_take, List.length_append, List.length_singleton] at short
    omega
  rw [List.take_take, Nat.min_eq_left inside] at text
  exact ⟨head, c, text, blanks c accepted, length⟩

theorem splitAt_cases (sizes : Sizes) (buffer : List Char) :
    (∃ head c, buffer.take (splitAt sizes buffer) = head ++ [c] ∧ isSpace c = true ∧
      splitAt sizes buffer = head.length + 1) ∨ splitAt sizes buffer = sizes.chunkSize := by
  have newline : isSpace '\n' = true := by decide
  rw [splitAt]
  cases sentence : lastStop sentenceEnd (buffer.take (sizes.chunkSize + sizes.overlap))
      (sizes.chunkSize / 2) with
  | some stop =>
    refine Or.inl (take_of_lastStop rfl ?_ sentence)
    intro c accepted
    rcases Bool.or_eq_true _ _ ▸ accepted with blank | line
    · exact blank
    · rw [of_decide_eq_true line]
      exact newline
  | none =>
    cases line : lastStop lineEnd (buffer.take (sizes.chunkSize + sizes.overlap))
        (sizes.chunkSize / 2) with
    | some stop =>
      refine Or.inl (take_of_lastStop rfl ?_ line)
      intro c accepted
      rw [of_decide_eq_true accepted]
      exact newline
    | none => exact Or.inr rfl

theorem splitAt_le {buffer : List Char} (long : sizes.chunkSize ≤ buffer.length) :
    splitAt sizes buffer ≤ buffer.length := by
  rcases splitAt_cases sizes buffer with ⟨head, c, text, _, length⟩ | hard
  · have short := congrArg List.length text
    rw [List.length_take, List.length_append, List.length_singleton] at short
    omega
  · omega

theorem length_cText_le (sizes : Sizes) (buffer : List Char) :
    (cText sizes buffer).length ≤ splitAt sizes buffer :=
  Nat.le_trans (length_stripChars_le _) (List.length_take_le _ _)

theorem length_remainder_le (sizes : Sizes) (buffer : List Char) :
    (remainder sizes buffer).length ≤ buffer.length - splitAt sizes buffer := by
  rw [← List.length_drop]
  exact length_stripChars_le _

theorem length_carried {text : List Char} (longer : sizes.overlap < text.length) :
    (carried sizes text).length = sizes.overlap := by
  rw [carried, List.length_drop]
  omega

end Cuts

section Termination

def rank (buffer : List Char) : Nat :=
  2 * buffer.length + if buffer[sizes.chunkSize - 1]? = some '\n' then 0 else 1

theorem rank_le (buffer : List Char) : rank sizes buffer ≤ turns buffer := by
  rw [rank, turns]
  split_ifs <;> omega

variable {sizes}

theorem rank_lt_of_length_lt {shorter buffer : List Char} (less : shorter.length < buffer.length) :
    rank sizes shorter < rank sizes buffer := by
  rw [rank, rank]
  split_ifs <;> omega

theorem length_nextBuffer_lt_of_blank {buffer head : List Char} {c : Char}
    (long : sizes.chunkSize ≤ buffer.length)
    (text : buffer.take (splitAt sizes buffer) = head ++ [c]) (blank : isSpace c = true)
    (length : splitAt sizes buffer = head.length + 1) :
    (nextBuffer sizes buffer).length < buffer.length := by
  have rest := length_remainder_le sizes buffer
  have inside := splitAt_le long
  have stripped : (cText sizes buffer).length < head.length + 1 := by
    have shorter := length_stripChars_append_lt blank head
    rwa [← text, ← cText, text, List.length_append, List.length_singleton] at shorter
  rw [nextBuffer]
  split_ifs with carries
  · rw [List.length_append, List.length_cons, length_carried carries.2]
    omega
  · omega

variable {buffer : List Char}

theorem not_newline_of_full (hard : splitAt sizes buffer = sizes.chunkSize)
    (full : (cText sizes buffer).length = sizes.chunkSize) :
    buffer[sizes.chunkSize - 1]? ≠ some '\n' := by
  have fits := sizes.fits
  have whole : cText sizes buffer = buffer.take sizes.chunkSize := by
    have size := List.length_take_le sizes.chunkSize buffer
    rw [cText, hard] at full ⊢
    exact (isInfix_stripChars _).eq_of_length_le (by omega)
  intro newline
  have last : (cText sizes buffer).getLast? = some '\n' := by
    rw [List.getLast?_eq_getElem?, full, whole, List.getElem?_take_of_lt (by omega), newline]
  have blank := isSpace_of_getLast?_stripChars last
  revert blank
  decide

theorem rank_nextBuffer_lt_of_hard (long : sizes.chunkSize ≤ buffer.length)
    (hard : splitAt sizes buffer = sizes.chunkSize) :
    rank sizes (nextBuffer sizes buffer) < rank sizes buffer := by
  have fits := sizes.fits
  have rest := length_remainder_le sizes buffer
  have bound := length_cText_le sizes buffer
  by_cases shorter : (nextBuffer sizes buffer).length < buffer.length
  · exact rank_lt_of_length_lt shorter
  · by_cases carries : 0 < sizes.overlap ∧ sizes.overlap < (cText sizes buffer).length
    · have next : nextBuffer sizes buffer =
          carried sizes (cText sizes buffer) ++ '\n' :: remainder sizes buffer := if_pos carries
      have length := length_carried carries.2
      rw [next, List.length_append, List.length_cons, length] at shorter
      have full : (cText sizes buffer).length = sizes.chunkSize := by omega
      have last : sizes.chunkSize - 1 = (carried sizes (cText sizes buffer)).length := by omega
      have newline : (nextBuffer sizes buffer)[sizes.chunkSize - 1]? = some '\n' := by
        rw [next, last, List.getElem?_append_right Nat.le.refl, Nat.sub_self]
        rfl
      have other := not_newline_of_full hard full
      have same : (nextBuffer sizes buffer).length ≤ buffer.length := by
        rw [next, List.length_append, List.length_cons, length]
        omega
      rw [rank, rank, if_pos newline, if_neg other]
      omega
    · have next : nextBuffer sizes buffer = remainder sizes buffer := if_neg carries
      rw [next] at shorter
      omega

theorem rank_nextBuffer_lt (long : sizes.chunkSize ≤ buffer.length) :
    rank sizes (nextBuffer sizes buffer) < rank sizes buffer := by
  rcases splitAt_cases sizes buffer with ⟨head, c, text, blank, length⟩ | hard
  · exact rank_lt_of_length_lt (length_nextBuffer_lt_of_blank long text blank length)
  · exact rank_nextBuffer_lt_of_hard long hard

end Termination

variable (env : Environment) (labels : Labels)

theorem exists_endsAfter (start : Nat) (locals : Locals) :
    ∃ n ≤ turns locals.currentChunkText,
      EndsAfter (isLong sizes) (splitOff env sizes labels start) locals n := by
  have descend : ∀ locals : Locals, isLong sizes locals = true →
      rank sizes (splitOff env sizes labels start locals).currentChunkText <
        rank sizes locals.currentChunkText :=
    fun locals long => rank_nextBuffer_lt (of_decide_eq_true long)
  obtain ⟨n, few, ends⟩ := exists_endsAfter_of_rank
    (fun locals : Locals => rank sizes locals.currentChunkText) descend locals
  exact ⟨n, few.trans (rank_le sizes _), ends⟩

/-- The loop ends by itself: the fuel it is given is never used up. -/
theorem splitLoop_terminates (start : Nat) (locals : Locals) :
    ∃ n ≤ turns locals.currentChunkText,
      EndsAfter (isLong sizes) (splitOff env sizes labels start) locals n ∧
        ∀ fuel, n ≤ fuel → loop (isLong sizes) (splitOff env sizes labels start) fuel locals =
          splitLoop env sizes labels start locals := by
  obtain ⟨n, few, ends⟩ := exists_endsAfter sizes env labels start locals
  refine ⟨n, few, ends, ?_⟩
  intro fuel enough
  rw [splitLoop, loop_of_endsAfter ends enough, loop_of_endsAfter ends few]

end AverQel.Ingestion.Chunking
