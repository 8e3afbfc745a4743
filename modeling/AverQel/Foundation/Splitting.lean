/- digest: Splitting at a separator, and reading a text chunk by chunk with what was left over. -/
import Mathlib.Data.List.Basic

namespace AverQel.Foundation.Splitting

universe u v
variable {α : Type u} {β : Type v}

section Split

variable [DecidableEq α] (sep : List α)

def cut : List α → Option (List α × List α)
  | [] => none
  | a :: rest =>
    if sep.isPrefixOf (a :: rest) then some ([], (a :: rest).drop sep.length)
    else (cut rest).map fun parts => (a :: parts.1, parts.2)

def pieces : Nat → List α → List (List α)
  | 0, text => [text]
  | fuel + 1, text =>
    match cut sep text with
    | none => [text]
    | some parts => parts.1 :: pieces fuel parts.2

def splitOn (text : List α) : List (List α) := pieces sep text.length text

variable {sep}

theorem length_of_cut {text first rest : List α} (parts : cut sep text = some (first, rest)) :
    first.length + sep.length + rest.length = text.length := by
  induction text generalizing first with
  | nil => cases parts
  | cons a text ih =>
    rw [cut] at parts
    split_ifs at parts with here
    · obtain ⟨rfl, rfl⟩ := Prod.mk.inj (Option.some.inj parts)
      have bound := (List.isPrefixOf_iff_prefix.mp here).length_le
      rw [List.length_drop, List.length_nil]
      omega
    · obtain ⟨⟨before, after⟩, found, same⟩ := Option.map_eq_some_iff.mp parts
      obtain ⟨rfl, rfl⟩ := Prod.mk.inj same
      have shorter : before.length + sep.length + after.length = text.length := ih found
      show before.length + 1 + sep.length + after.length = text.length + 1
      omega

theorem cut_append {text first rest : List α} (parts : cut sep text = some (first, rest))
    (more : List α) : cut sep (text ++ more) = some (first, rest ++ more) := by
  induction text generalizing first with
  | nil => cases parts
  | cons a text ih =>
    have bound := length_of_cut parts
    rw [cut] at parts
    split_ifs at parts with here
    · obtain ⟨rfl, rfl⟩ := Prod.mk.inj (Option.some.inj parts)
      have found := List.isPrefixOf_iff_prefix.mp here
      have longer : sep.isPrefixOf (a :: text ++ more) = true :=
        List.isPrefixOf_iff_prefix.mpr (found.trans (List.prefix_append _ _))
      rw [List.cons_append] at longer ⊢
      rw [cut, if_pos longer, ← List.cons_append, List.drop_append_of_le_length found.length_le]
    · obtain ⟨⟨before, after⟩, found, same⟩ := Option.map_eq_some_iff.mp parts
      obtain ⟨rfl, rfl⟩ := Prod.mk.inj same
      have absent : ¬sep.isPrefixOf (a :: (text ++ more)) = true := by
        intro early
        have prefix_ : sep <+: a :: text ++ more := List.isPrefixOf_iff_prefix.mp early
        have fits : sep.length ≤ (a :: text).length := by omega
        exact here (List.isPrefixOf_iff_prefix.mpr
          (List.prefix_of_prefix_length_le prefix_ (List.prefix_append _ _) fits))
      rw [List.cons_append, cut, if_neg absent, ih found]
      rfl

theorem cut_eq_none_iff (nonempty : sep ≠ []) {text : List α} :
    cut sep text = none ↔ ¬ sep <:+: text := by
  induction text with
  | nil => exact iff_of_true rfl fun within => nonempty (List.infix_nil.mp within)
  | cons a text ih =>
    rw [cut, List.infix_cons_iff, not_or]
    by_cases here : sep.isPrefixOf (a :: text) = true
    · rw [if_pos here]
      exact iff_of_false (Option.some_ne_none _) fun both =>
        both.1 (List.isPrefixOf_iff_prefix.mp here)
    · rw [if_neg here, Option.map_eq_none_iff, ih]
      exact ⟨fun later => ⟨fun start => here (List.isPrefixOf_iff_prefix.mpr start), later⟩, And.right⟩

theorem eq_of_cut {text first rest : List α} (parts : cut sep text = some (first, rest)) :
    text = first ++ (sep ++ rest) := by
  induction text generalizing first with
  | nil => cases parts
  | cons a text ih =>
    rw [cut] at parts
    split_ifs at parts with here
    · obtain ⟨rfl, rfl⟩ := Prod.mk.inj (Option.some.inj parts)
      exact (List.prefix_iff_eq_append.mp (List.isPrefixOf_iff_prefix.mp here)).symm
    · obtain ⟨⟨before, after⟩, found, same⟩ := Option.map_eq_some_iff.mp parts
      obtain ⟨rfl, rfl⟩ := Prod.mk.inj same
      exact congrArg (a :: ·) (ih found)

theorem cut_eq_some_iff (nonempty : sep ≠ []) {text first rest : List α} :
    cut sep text = some (first, rest) ↔
      text = first ++ (sep ++ rest) ∧ ¬ sep <:+: first ++ sep.dropLast := by
  have size : sep.dropLast.length + 1 = sep.length := by
    rw [List.length_dropLast]
    exact Nat.sub_add_cancel (List.length_pos_iff.mpr nonempty)
  have free {before after : List α} (parts : cut sep text = some (before, after)) :
      ¬ sep <:+: before ++ sep.dropLast := by
    intro early
    obtain ⟨other, found⟩ := Option.ne_none_iff_exists'.mp
      fun absent => (cut_eq_none_iff nonempty).mp absent early
    have longer := cut_append found (sep.getLast nonempty :: after)
    rw [List.append_assoc, List.append_cons, List.dropLast_append_getLast nonempty,
      ← eq_of_cut parts, parts] at longer
    obtain ⟨same, _⟩ := Prod.mk.inj (Option.some.inj longer)
    have lengths := length_of_cut found
    rw [← same, List.length_append] at lengths
    omega
  refine ⟨fun parts => ⟨eq_of_cut parts, free parts⟩, ?_⟩
  rintro ⟨whole, first_⟩
  cases found : cut sep text with
  | none =>
    exact absurd ⟨first, rest, by rw [whole, List.append_assoc]⟩ ((cut_eq_none_iff nonempty).mp found)
  | some other =>
    have same : first ++ (sep ++ rest) = other.1 ++ (sep ++ other.2) :=
      whole.symm.trans (eq_of_cut found)
    -- Of two places where the separator stands, the later one lies behind the whole earlier one.
    have ordered {before after before' after' : List α}
        (lists : before ++ (sep ++ after) = before' ++ (sep ++ after'))
        (free : ¬ sep <:+: before ++ sep.dropLast) : before.length ≤ before'.length := by
      by_contra shorter
      refine free (List.IsInfix.trans ⟨before', [], List.append_nil _⟩ (List.IsPrefix.isInfix
        (List.prefix_of_prefix_length_le ?_ ((List.prefix_append_right_inj before).mpr
          ((List.dropLast_prefix sep).trans (List.prefix_append sep after))) ?_)))
      · rw [lists, ← List.append_assoc]
        exact List.prefix_append _ _
      · rw [List.length_append, List.length_append]
        omega
    have lengths := Nat.le_antisymm (ordered same first_) (ordered same.symm (free found))
    obtain ⟨rfl, tails⟩ := List.append_inj same lengths
    rw [List.append_cancel_left_eq] at tails
    rw [tails]

theorem cut_append_of_not_mem {a : α} {text : List α} (free : a ∉ text) (rest : List α) :
    cut (a :: sep) (text ++ rest) =
      (cut (a :: sep) rest).map fun parts => (text ++ parts.1, parts.2) := by
  induction text with
  | nil => simp
  | cons b text ih =>
    rw [List.mem_cons, not_or] at free
    have absent : ¬(a :: sep).isPrefixOf (b :: (text ++ rest)) = true := by
      rw [List.isPrefixOf_iff_prefix, List.cons_prefix_cons]
      exact fun start => free.1 start.1
    rw [List.cons_append, cut, if_neg absent, ih free.2, Option.map_map]
    rfl

theorem cut_eq_none_of_not_mem {a : α} {text : List α} (free : a ∉ text) :
    cut (a :: sep) text = none := by
  have whole : cut (a :: sep) (text ++ []) = none := cut_append_of_not_mem free []
  rw [List.append_nil] at whole
  exact whole

theorem cut_self (a : α) (rest : List α) :
    cut (a :: sep) (a :: (sep ++ rest)) = some ([], rest) := by
  have here : (a :: sep).isPrefixOf (a :: (sep ++ rest)) = true :=
    List.isPrefixOf_iff_prefix.mpr (List.prefix_append (a :: sep) rest)
  rw [cut, if_pos here, List.length_cons, List.drop_succ_cons, List.drop_left]

theorem pieces_of_le (nonempty : sep ≠ []) {text : List α} {fuel more : Nat}
    (enough : text.length ≤ fuel) (bound : fuel ≤ more) :
    pieces sep fuel text = pieces sep more text := by
  induction fuel generalizing text more with
  | zero =>
    have empty : text = [] := List.length_eq_zero_iff.mp (by omega)
    subst empty
    cases more <;> rfl
  | succ fuel ih =>
    obtain ⟨more, rfl⟩ : ∃ k, more = k + 1 := ⟨more - 1, by omega⟩
    rw [pieces, pieces]
    cases found : cut sep text with
    | none => rfl
    | some parts =>
      have shorter := length_of_cut found
      have positive := List.length_pos_of_ne_nil nonempty
      have rest : parts.2.length ≤ fuel := by omega
      exact congrArg (parts.1 :: ·) (ih rest (by omega))

theorem splitOn_eq_of_cut (nonempty : sep ≠ []) {text first rest : List α}
    (parts : cut sep text = some (first, rest)) : splitOn sep text = first :: splitOn sep rest := by
  have shorter := length_of_cut parts
  have positive := List.length_pos_of_ne_nil nonempty
  obtain ⟨fuel, size⟩ : ∃ fuel, text.length = fuel + 1 := ⟨text.length - 1, by omega⟩
  have enough : rest.length ≤ fuel := by omega
  rw [splitOn, size, pieces, parts]
  exact congrArg (first :: ·) (pieces_of_le nonempty Nat.le.refl enough).symm

theorem splitOn_eq_of_none {text : List α} (whole : cut sep text = none) :
    splitOn sep text = [text] := by
  rw [splitOn]
  cases text.length with
  | zero => rfl
  | succ => rw [pieces, whole]

theorem splitOn_append (nonempty : sep ≠ []) (text more : List α) : ∃ parts last,
    splitOn sep text = parts ++ [last] ∧
      splitOn sep (text ++ more) = parts ++ splitOn sep (last ++ more) := by
  induction size : text.length using Nat.strongRecOn generalizing text with
  | _ size ih =>
    subst size
    cases found : cut sep text with
    | none => exact ⟨[], text, splitOn_eq_of_none found, rfl⟩
    | some halves =>
      obtain ⟨first, rest⟩ := halves
      have shorter := length_of_cut found
      have positive := List.length_pos_of_ne_nil nonempty
      obtain ⟨parts, last, whole, longer⟩ := ih rest.length (by omega) rest rfl
      refine ⟨first :: parts, last, ?_, ?_⟩
      · rw [splitOn_eq_of_cut nonempty found, whole, List.cons_append]
      · rw [splitOn_eq_of_cut nonempty (cut_append found more), longer, List.cons_append]

theorem splitOn_ne_nil (nonempty : sep ≠ []) (text : List α) : splitOn sep text ≠ [] := by
  obtain ⟨parts, last, whole, _⟩ := splitOn_append nonempty text []
  rw [whole]
  exact List.append_ne_nil_of_right_ne_nil parts (List.cons_ne_nil last [])

end Split

section Lines

variable [BEq α]

theorem exists_splitOn (a : α) (text : List α) :
    ∃ first rest, text.splitOn a = first :: rest := List.exists_cons_of_ne_nil (by simp)

variable [LawfulBEq α] {a : α}

theorem splitOn_cons_self (text : List α) : (a :: text).splitOn a = [] :: text.splitOn a := by
  rw [List.splitOn_cons_eq_if_modifyHead, if_pos (BEq.refl a)]

theorem splitOn_cons_of_ne {b : α} (other : b ≠ a) {text first : List α} {rest : List (List α)}
    (parts : text.splitOn a = first :: rest) : (b :: text).splitOn a = (b :: first) :: rest := by
  rw [List.splitOn_cons_eq_if_modifyHead, if_neg fun same => other (eq_of_beq same), parts,
    List.modifyHead_cons]

theorem not_mem_of_mem_splitOn {text part : List α} (member : part ∈ text.splitOn a) :
    a ∉ part := by
  induction text generalizing part with
  | nil =>
    rw [List.splitOn_nil] at member
    rw [List.mem_singleton.mp member]
    exact List.not_mem_nil
  | cons b text ih =>
    by_cases same : b = a
    · rw [same, splitOn_cons_self] at member
      rcases List.mem_cons.mp member with rfl | later
      · exact List.not_mem_nil
      · exact ih later
    · obtain ⟨first, rest, parts⟩ := exists_splitOn a text
      rw [splitOn_cons_of_ne same parts] at member
      rw [parts] at ih
      rcases List.mem_cons.mp member with rfl | later
      · rw [List.mem_cons, not_or]
        exact ⟨Ne.symm same, ih List.mem_cons_self⟩
      · exact ih (List.mem_cons_of_mem first later)

theorem sublist_flatten_splitOn (a : α) (text : List α) : (text.splitOn a).flatten.Sublist text := by
  induction text with
  | nil => exact List.Sublist.refl []
  | cons b text ih =>
    by_cases same : b = a
    · rw [same, splitOn_cons_self]
      exact ih.cons a
    · obtain ⟨first, rest, parts⟩ := exists_splitOn a text
      rw [splitOn_cons_of_ne same parts]
      rw [parts] at ih
      exact ih.cons_cons b

theorem splitOn_map {f : α → α} (spares : ∀ b, f b = a ↔ b = a) (text : List α) :
    (text.map f).splitOn a = (text.splitOn a).map (List.map f) := by
  induction text with
  | nil => rfl
  | cons b text ih =>
    by_cases same : b = a
    · rw [List.map_cons, (spares b).mpr same, same, splitOn_cons_self, splitOn_cons_self, ih]
      rfl
    · obtain ⟨first, rest, parts⟩ := exists_splitOn a text
      rw [parts] at ih
      rw [List.map_cons, splitOn_cons_of_ne (fun hit => same ((spares b).mp hit)) ih,
        splitOn_cons_of_ne same parts]
      rfl

end Lines

def feed (read : List α → List β × List α) (chunks : List (List α)) : List β × List α :=
  chunks.foldl
    (fun state chunk =>
      let result := read (state.2 ++ chunk)
      (state.1 ++ result.1, result.2))
    ([], [])

structure Incremental (read : List α → List β × List α) : Prop where
  empty : read [] = ([], [])
  append : ∀ text more, read (text ++ more) =
    ((read text).1 ++ (read ((read text).2 ++ more)).1, (read ((read text).2 ++ more)).2)

theorem Incremental.feed_eq {read : List α → List β × List α} (incremental : Incremental read)
    (chunks : List (List α)) : feed read chunks = read chunks.flatten := by
  have from_ : ∀ text, chunks.foldl
      (fun state chunk =>
        let result := read (state.2 ++ chunk)
        (state.1 ++ result.1, result.2))
      (read text) = read (text ++ chunks.flatten) := by
    induction chunks with
    | nil =>
      intro text
      rw [List.flatten_nil, List.append_nil, List.foldl_nil]
    | cons chunk chunks ih =>
      intro text
      rw [List.foldl_cons, ← incremental.append text chunk, ih, List.flatten_cons,
        List.append_assoc]
  have start := from_ []
  rw [incremental.empty, List.nil_append] at start
  exact start

end AverQel.Foundation.Splitting
