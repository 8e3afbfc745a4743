/- digest: How much stripping removes, and what is left of a text without its blanks. -/
import AverQel.Foundation.Text
import Mathlib.Data.List.TakeWhile

namespace AverQel.Foundation.Text

theorem isInfix_stripChars (cs : List Char) : stripChars cs <:+: cs :=
  (List.rdropWhile_prefix isSpace _).isInfix.trans (List.dropWhile_suffix isSpace).isInfix

theorem length_stripChars_le (cs : List Char) : (stripChars cs).length ≤ cs.length :=
  (isInfix_stripChars cs).length_le

theorem isSpace_of_getLast?_stripChars {cs : List Char} {c : Char}
    (last : (stripChars cs).getLast? = some c) : isSpace c = false := by
  have filled : stripChars cs ≠ [] := by
    intro none
    rw [none] at last
    cases last
  rw [List.getLast?_eq_some_getLast filled] at last
  obtain rfl := Option.some.inj last
  have full := List.rdropWhile_last_not isSpace (cs.dropWhile isSpace) filled
  rwa [Bool.not_eq_true] at full

theorem head?_stripChars {c : Char} (filled : isSpace c = false) (rest : List Char) :
    (stripChars (c :: rest)).head? = some c := by
  have kept : ¬isSpace c = true := by
    rw [filled]
    decide
  rw [stripChars, List.dropWhile_cons_of_neg kept]
  induction rest using List.reverseRecOn with
  | nil => rw [List.rdropWhile_singleton, if_neg kept, List.head?_cons]
  | append_singleton rest d =>
    rw [← List.cons_append]
    by_cases blank : isSpace d = true
    · rwa [List.rdropWhile_concat_pos _ _ _ blank]
    · rw [List.rdropWhile_concat_neg _ _ _ blank, List.cons_append, List.head?_cons]

theorem length_stripChars_append_lt {c : Char} (blank : isSpace c = true) (cs : List Char) :
    (stripChars (cs ++ [c])).length < (cs ++ [c]).length := by
  rcases Nat.lt_or_ge (stripChars (cs ++ [c])).length (cs ++ [c]).length with shorter | whole
  · exact shorter
  · have same : stripChars (cs ++ [c]) = cs ++ [c] :=
      (isInfix_stripChars (cs ++ [c])).eq_of_length_le whole
    have last : (stripChars (cs ++ [c])).getLast? = some c := by
      rw [same, List.getLast?_append, List.getLast?_singleton, Option.some_or]
    rw [isSpace_of_getLast?_stripChars last] at blank
    cases blank

def letters (cs : List Char) : List Char := cs.filter fun c => !isSpace c

theorem letters_append (cs ds : List Char) : letters (cs ++ ds) = letters cs ++ letters ds :=
  List.filter_append cs ds

theorem letters_eq_nil {cs : List Char} (blank : ∀ c ∈ cs, isSpace c = true) : letters cs = [] := by
  rw [letters, List.filter_eq_nil_iff]
  intro c member
  simp [blank c member]

theorem letters_stripChars (cs : List Char) : letters (stripChars cs) = letters cs := by
  have front := letters_append (cs.takeWhile isSpace) (cs.dropWhile isSpace)
  have back := letters_append ((cs.dropWhile isSpace).rdropWhile isSpace)
    ((cs.dropWhile isSpace).rtakeWhile isSpace)
  rw [List.takeWhile_append_dropWhile, letters_eq_nil (fun c member => List.mem_takeWhile_imp member),
    List.nil_append] at front
  rw [List.rdropWhile_append_rtakeWhile, letters_eq_nil (fun c member => List.mem_rtakeWhile_imp member),
    List.append_nil] at back
  rw [stripChars, ← back, front]

end AverQel.Foundation.Text
