/- digest: Rows that stand next to each other in the order of a key. -/
import AverQel.Foundation.Ranking

namespace AverQel.Foundation

universe u v
variable {α : Type u} {β : Type v}

def neighbours (items : List α) : List (α × α) := items.zip items.tail

variable [LinearOrder β] {f : α → β}

theorem pairwise_lt_ascending {rows : List α} (distinct : (rows.map f).Nodup) :
    (ascending f rows).Pairwise fun a b => f a < f b := by
  have sorted : (ascending f rows).Pairwise fun a b => f a ≤ f b :=
    List.pairwise_insertionSort _ _
  have perm : (ascending f rows).Perm rows := List.perm_insertionSort _ _
  have apart : (ascending f rows).Pairwise fun a b => f a ≠ f b :=
    List.pairwise_map.mp ((perm.map f).nodup_iff.mpr distinct)
  exact sorted.and apart |>.imp fun h => lt_of_le_of_ne h.1 h.2

variable {items : List α}

theorem mem_neighbours_iff (strict : items.Pairwise fun a b => f a < f b) {a b : α} :
    (a, b) ∈ neighbours items ↔
      a ∈ items ∧ b ∈ items ∧ f a < f b ∧ ∀ c ∈ items, f c ≤ f a ∨ f b ≤ f c := by
  induction items with
  | nil =>
    constructor
    · intro h
      cases h
    · rintro ⟨h, _⟩
      cases h
  | cons x items ih =>
    obtain ⟨above, strict⟩ := List.pairwise_cons.mp strict
    cases items with
    | nil =>
      constructor
      · intro h
        cases h
      · rintro ⟨first, second, below, _⟩
        rw [List.mem_singleton] at first second
        rw [first, second] at below
        exact absurd below (lt_irrefl _)
    | cons y rest =>
      obtain ⟨later, _⟩ := List.pairwise_cons.mp strict
      have split : neighbours (x :: y :: rest) = (x, y) :: neighbours (y :: rest) := rfl
      rw [split, List.mem_cons, ih strict]
      constructor
      · rintro (same | ⟨first, second, below, between⟩)
        · obtain ⟨rfl, rfl⟩ := Prod.mk.inj same
          refine ⟨List.mem_cons_self, List.mem_cons_of_mem _ List.mem_cons_self,
            above _ List.mem_cons_self, ?_⟩
          intro c member
          rcases List.mem_cons.mp member with rfl | rest_
          · exact .inl le_rfl
          · rcases List.mem_cons.mp rest_ with rfl | last
            · exact .inr le_rfl
            · exact .inr (le_of_lt (later c last))
        · refine ⟨List.mem_cons_of_mem _ first, List.mem_cons_of_mem _ second, below, ?_⟩
          intro c member
          rcases List.mem_cons.mp member with rfl | rest_
          · exact .inl (le_of_lt (above a first))
          · exact between c rest_
      · rintro ⟨first, second, below, between⟩
        have inside : b ∈ y :: rest := by
          rcases List.mem_cons.mp second with rfl | inside
          · rcases List.mem_cons.mp first with rfl | lower
            · exact absurd below (lt_irrefl _)
            · exact absurd below (lt_asymm (above a lower))
          · exact inside
        rcases List.mem_cons.mp first with rfl | lower
        · left
          rcases List.mem_cons.mp inside with rfl | last
          · rfl
          · rcases between y (List.mem_cons_of_mem _ List.mem_cons_self) with low | high
            · exact absurd (above y List.mem_cons_self) (not_lt_of_ge low)
            · exact absurd (later b last) (not_lt_of_ge high)
        · exact .inr ⟨lower, inside, below,
            fun c member => between c (List.mem_cons_of_mem _ member)⟩

theorem eq_of_strict (strict : items.Pairwise fun a b => f a < f b) {a b : α} (first : a ∈ items)
    (second : b ∈ items) (same : f a = f b) : a = b := by
  have distinct : (items.map f).Nodup :=
    List.pairwise_map.mpr (strict.imp fun below => ne_of_lt below)
  exact List.inj_on_of_nodup_map distinct first second same

theorem eq_of_neighbours_left (strict : items.Pairwise fun a b => f a < f b) {a b c : α}
    (one : (a, b) ∈ neighbours items) (other : (a, c) ∈ neighbours items) : b = c := by
  obtain ⟨_, insideB, belowB, betweenB⟩ := (mem_neighbours_iff strict).mp one
  obtain ⟨_, insideC, belowC, betweenC⟩ := (mem_neighbours_iff strict).mp other
  have upper : f b ≤ f c := (betweenB c insideC).resolve_left (not_le_of_gt belowC)
  have lower : f c ≤ f b := (betweenC b insideB).resolve_left (not_le_of_gt belowB)
  exact eq_of_strict strict insideB insideC (le_antisymm upper lower)

theorem eq_of_neighbours_right (strict : items.Pairwise fun a b => f a < f b) {a b c : α}
    (one : (a, c) ∈ neighbours items) (other : (b, c) ∈ neighbours items) : a = b := by
  obtain ⟨insideA, _, belowA, betweenA⟩ := (mem_neighbours_iff strict).mp one
  obtain ⟨insideB, _, belowB, betweenB⟩ := (mem_neighbours_iff strict).mp other
  have upper : f b ≤ f a := (betweenA b insideB).resolve_right (not_le_of_gt belowB)
  have lower : f a ≤ f b := (betweenB a insideA).resolve_right (not_le_of_gt belowA)
  exact eq_of_strict strict insideA insideB (le_antisymm lower upper)

theorem find?_eq_some_of_unique {p : α → Bool} {a : α} (inside : a ∈ items) (meets : p a = true)
    (unique : ∀ b ∈ items, p b = true → b = a) : items.find? p = some a := by
  cases found : items.find? p with
  | none =>
    have never := List.find?_eq_none.mp found a inside
    exact absurd meets never
  | some b =>
    rw [unique b (List.mem_of_find?_eq_some found) (List.find?_some found)]

end AverQel.Foundation
