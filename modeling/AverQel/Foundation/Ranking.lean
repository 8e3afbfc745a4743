/- digest: Stable orderings of rows by a key, one row per key, and decimal rounding of scores. -/
import Mathlib.Data.List.Sort
import Mathlib.Data.Rat.Defs
import Mathlib.Algebra.Order.Ring.Unbundled.Rat
import AverQel.Foundation.Table

namespace AverQel.Foundation

universe u v

section Ordering

variable {α : Type u} {β : Type v} [LinearOrder β]

def ascending (f : α → β) (rows : List α) : List α :=
  rows.insertionSort (fun a b => f a ≤ f b)

def descending (f : α → β) (rows : List α) : List α :=
  rows.insertionSort (fun a b => f b ≤ f a)

@[simp] theorem mem_ascending {f : α → β} {rows : List α} {a : α} :
    a ∈ ascending f rows ↔ a ∈ rows :=
  List.mem_insertionSort _

@[simp] theorem mem_descending {f : α → β} {rows : List α} {a : α} :
    a ∈ descending f rows ↔ a ∈ rows :=
  List.mem_insertionSort _

theorem pairwise_ascending (f : α → β) (rows : List α) :
    (ascending f rows).Pairwise fun a b => f a ≤ f b := by
  have total : Std.Total fun a b : α => f a ≤ f b := ⟨fun a b => le_total (f a) (f b)⟩
  have trans : IsTrans α fun a b => f a ≤ f b := ⟨fun _ _ _ => le_trans⟩
  exact List.pairwise_insertionSort _ rows

theorem perm_descending (f : α → β) (rows : List α) : (descending f rows).Perm rows :=
  List.perm_insertionSort _ rows

theorem pairwise_descending (f : α → β) (rows : List α) :
    (descending f rows).Pairwise fun a b => f b ≤ f a := by
  have total : Std.Total fun a b : α => f b ≤ f a := ⟨fun a b => le_total (f b) (f a)⟩
  have trans : IsTrans α fun a b => f b ≤ f a := ⟨fun _ _ _ below above => above.trans below⟩
  exact List.pairwise_insertionSort _ rows

theorem head?_descending (f : α → β) (rows : List α) :
    (descending f rows).head? = maxBy f rows := by
  induction rows with
  | nil => rfl
  | cons a rows ih =>
    have step : descending f (a :: rows) =
        (descending f rows).orderedInsert (fun a b => f b ≤ f a) a := rfl
    rw [step, maxBy, List.argmax_cons]
    cases sorted : descending f rows with
    | nil =>
      rw [sorted, List.head?_nil, maxBy] at ih
      rw [← ih]
      rfl
    | cons first =>
      rw [sorted, List.head?_cons, maxBy] at ih
      rw [← ih, List.orderedInsert_cons]
      by_cases above : f first ≤ f a
      · rw [if_pos above, List.head?_cons]
        exact (if_neg (not_lt_of_ge above)).symm
      · rw [if_neg above, List.head?_cons]
        exact (if_pos (lt_of_not_ge above)).symm

structure Ranked (f : α → β) (rows ranked : List α) : Prop where
  strict : ranked.Pairwise (fun a b => f b < f a)
  mem_iff : ∀ a, a ∈ ranked ↔ a ∈ rows

namespace Ranked

variable {f : α → β} {rows rest : List α} {a : α}

theorem nodup {ranked : List α} (h : Ranked f rows ranked) : ranked.Nodup := by
  refine h.strict.imp ?_
  intro a b below same
  rw [same] at below
  exact lt_irrefl _ below

theorem maxBy_cons (h : Ranked f rows (a :: rest)) : maxBy f rows = some a := by
  have member : a ∈ rows := (h.mem_iff a).mp List.mem_cons_self
  cases found : maxBy f rows with
  | none =>
    have empty : rows = [] := List.argmax_eq_none.mp found
    rw [empty] at member
    exact absurd member List.not_mem_nil
  | some m =>
    have least : f a ≤ f m := List.le_of_mem_argmax member found
    rcases List.mem_cons.mp ((h.mem_iff m).mpr (mem_of_maxBy found)) with same | later
    · rw [same]
    · have below := (List.pairwise_cons.mp h.strict).1 m later
      exact absurd least (not_le_of_gt below)

theorem maxBy_nil (h : Ranked f rows []) : maxBy f rows = none := by
  refine List.argmax_eq_none.mpr (List.eq_nil_iff_forall_not_mem.mpr ?_)
  intro a member
  exact List.not_mem_nil ((h.mem_iff a).mpr member)

theorem tail (h : Ranked f rows (a :: rest)) {others : List α}
    (remaining : ∀ b, b ∈ others ↔ b ∈ rows ∧ b ≠ a) : Ranked f others rest := by
  obtain ⟨below, strict⟩ := List.pairwise_cons.mp h.strict
  refine ⟨strict, ?_⟩
  intro b
  rw [remaining b, ← h.mem_iff b, List.mem_cons]
  constructor
  · intro later
    refine ⟨.inr later, ?_⟩
    rintro rfl
    exact lt_irrefl _ (below b later)
  · rintro ⟨same | later, other⟩
    · exact absurd same other
    · exact later

theorem unique {ranked ranked' : List α} (h : Ranked f rows ranked) (h' : Ranked f rows ranked') :
    ranked = ranked' := by
  have perm : ranked.Perm ranked' := by
    refine (List.perm_ext_iff_of_nodup h.nodup h'.nodup).mpr ?_
    intro a
    rw [h.mem_iff, h'.mem_iff]
  refine perm.eq_of_pairwise ?_ h.strict h'.strict
  intro a b _ _ above below
  exact absurd above (lt_asymm below)

end Ranked

end Ordering

def firstBy {α : Type u} {κ : Type v} [DecidableEq κ] (key : α → κ) : List α → List α
  | [] => []
  | a :: rest => a :: (firstBy key rest).filter (fun b => key b ≠ key a)

theorem mem_of_mem_firstBy {α : Type u} {κ : Type v} [DecidableEq κ] {key : α → κ}
    {rows : List α} {a : α} (h : a ∈ firstBy key rows) : a ∈ rows := by
  induction rows with
  | nil => exact h
  | cons b rest ih =>
    rcases List.mem_cons.mp h with rfl | later
    · exact List.mem_cons_self
    · have kept := (List.mem_filter.mp later).1
      exact List.mem_cons_of_mem _ (ih kept)

theorem exists_mem_firstBy {α : Type u} {κ : Type v} [DecidableEq κ] (key : α → κ) {rows : List α}
    {a : α} (member : a ∈ rows) : ∃ b ∈ firstBy key rows, key b = key a := by
  induction rows with
  | nil => cases member
  | cons c rest ih =>
    by_cases same : key c = key a
    · exact ⟨c, List.mem_cons_self, same⟩
    · have later : a ∈ rest := by
        rcases List.mem_cons.mp member with rfl | later
        · exact absurd rfl same
        · exact later
      obtain ⟨b, found, equal⟩ := ih later
      have other : key b ≠ key c := fun equal' => same (equal'.symm.trans equal)
      exact ⟨b, List.mem_cons_of_mem c (List.mem_filter.mpr ⟨found, decide_eq_true other⟩), equal⟩

theorem nodup_eraseDups {α : Type u} [BEq α] [LawfulBEq α] : (l : List α) → l.eraseDups.Nodup
  | [] => List.nodup_nil
  | a :: l => by
    rw [List.eraseDups_cons, List.nodup_cons, List.mem_eraseDups]
    exact ⟨by simp, nodup_eraseDups _⟩
termination_by l => l.length
decreasing_by exact Nat.lt_succ_of_le (List.length_filter_le _ _)

/-- Round to `digits` decimal places, ties to the even neighbour. -/
def roundTo (digits : Nat) (x : ℚ) : ℚ :=
  let scaled := x * 10 ^ digits
  let low := scaled.floor
  let rest := scaled - low
  let nearest :=
    if rest < 1 / 2 ∨ (rest = 1 / 2 ∧ low % 2 = 0) then low else low + 1
  nearest / 10 ^ digits

example : roundTo 2 (1 / 8) = 12 / 100 := by decide +kernel

end AverQel.Foundation
