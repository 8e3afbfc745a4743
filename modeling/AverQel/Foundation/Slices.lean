/- digest: A list in numbered slices of one size, and what makes a set of slices complete. -/
import Mathlib.Data.List.Range
import Mathlib.Data.List.Perm.Subperm
import AverQel.Foundation.Totals

namespace AverQel.Foundation.Slices

universe u
variable {α : Type u} {c n i : Nat}

/-- The number of slices of size `c` for `n` items, by ceiling division. -/
def count (c n : Nat) : Nat := (n + c - 1) / c

/-- The size of slice `i`: `c`, and what is left for the last one. -/
def size (c n i : Nat) : Nat := min c (n - i * c)

def slice (c i : Nat) (l : List α) : List α := (l.drop (i * c)).take c

theorem length_slice (c i : Nat) (l : List α) : (slice c i l).length = size c l.length i := by
  rw [slice, List.length_take, List.length_drop, size]

theorem mul_lt_of_lt_count (positive : 0 < c) (inside : i < count c n) : i * c < n := by
  have bound : (i + 1) * c ≤ n + c - 1 := (Nat.le_div_iff_mul_le positive).mp inside
  rw [Nat.succ_mul] at bound
  omega

theorem le_count_mul (positive : 0 < c) (n : Nat) : n ≤ count c n * c := by
  have below := Nat.lt_div_mul_add positive (a := n + c - 1)
  show n ≤ (n + c - 1) / c * c
  omega

theorem size_pos (positive : 0 < c) (inside : i < count c n) : 0 < size c n i := by
  have bound := mul_lt_of_lt_count positive inside
  rw [size]
  omega

/-- The first `k` slices, joined, are a prefix. -/
theorem flatMap_slice_range (c k : Nat) (l : List α) :
    (List.range k).flatMap (fun i => slice c i l) = l.take (k * c) := by
  induction k with
  | zero => simp
  | succ k ih =>
    rw [List.range_succ, List.flatMap_append, ih, List.flatMap_singleton, Nat.succ_mul,
      List.take_add]
    rfl

theorem flatMap_slice (positive : 0 < c) (l : List α) :
    (List.range (count c l.length)).flatMap (fun i => slice c i l) = l := by
  rw [flatMap_slice_range]
  exact List.take_of_length_le (le_count_mul positive l.length)

theorem total_size (positive : 0 < c) (n : Nat) :
    total (size c n) (List.range (count c n)) = n := by
  have whole := congrArg List.length (flatMap_slice positive (List.replicate n ()))
  simpa only [length_flatMap_eq_total, length_slice, List.length_replicate] using whole

theorem perm_range_of_length {indices : List Nat} {k : Nat} (distinct : indices.Nodup)
    (below : ∀ i ∈ indices, i < k) (enough : indices.length = k) : indices.Perm (List.range k) := by
  have within : indices ⊆ List.range k := fun i member => List.mem_range.mpr (below i member)
  exact (List.subperm_of_subset distinct within).perm_of_length_le (by rw [List.length_range, enough])

theorem complete_iff (positive : 0 < c) {indices : List Nat} (distinct : indices.Nodup)
    (below : ∀ i ∈ indices, i < count c n) :
    (indices.length = count c n ∧ total (size c n) indices = n) ↔
      ∀ i < count c n, i ∈ indices := by
  constructor
  · rintro ⟨enough, _⟩ i inside
    exact (perm_range_of_length distinct below enough).mem_iff.mpr (List.mem_range.mpr inside)
  · intro all
    have same : indices.Perm (List.range (count c n)) := by
      refine (List.perm_ext_iff_of_nodup distinct List.nodup_range).mpr fun i => ?_
      rw [List.mem_range]
      exact ⟨below i, all i⟩
    refine ⟨?_, ?_⟩
    · rw [same.length_eq, List.length_range]
    · rw [total_perm _ same, total_size positive]

theorem drop_eq_parts (l : List α) {start first last : Nat} (order : start ≤ first)
    (later : first ≤ last) : l.drop start =
      (l.drop start).take (first - start) ++ ((l.take last).drop first ++ l.drop last) := by
  have back : l.drop first = (l.take last).drop first ++ l.drop last := by
    rw [List.drop_take]
    have split := List.take_append_drop (last - first) (l.drop first)
    rw [List.drop_drop, Nat.add_sub_cancel' later] at split
    exact split.symm
  rw [← back]
  have split := List.take_append_drop (first - start) (l.drop start)
  rw [List.drop_drop, Nat.add_sub_cancel' order] at split
  exact split.symm

theorem isInfix_window {l : List α} {a b k d : Nat} (first : a ≤ b) (last : b + k ≤ d) :
    (l.drop b).take k <:+: (l.take d).drop a := by
  have later : (l.drop b).take k <+: (l.take d).drop b := by
    rw [List.drop_take]
    exact List.take_prefix_take_left (by omega)
  have inside : (l.take d).drop b <:+ (l.take d).drop a := by
    obtain ⟨k, rfl⟩ := Nat.exists_eq_add_of_le first
    rw [← List.drop_drop]
    exact List.drop_suffix _ _
  exact later.isInfix.trans inside.isInfix

theorem window_of_isInfix {l piece : List α} {a b d : Nat} (filled : piece ≠ [])
    (once : ∀ before after, l = before ++ piece ++ after → before.length = b)
    (found : piece <:+: (l.take d).drop a) : a ≤ b ∧ b + piece.length ≤ d := by
  obtain ⟨before, after, same⟩ := found
  have positive := List.length_pos_of_ne_nil filled
  have size := congrArg List.length same
  rw [List.length_append, List.length_append, List.length_drop, List.length_take] at size
  have parts : l = (l.take a ++ before) ++ piece ++ (after ++ l.drop d) := by
    have whole := List.take_append_drop a (l.take d)
    rw [← same, List.take_take, Nat.min_eq_left (by omega)] at whole
    calc l = l.take d ++ l.drop d := (List.take_append_drop d l).symm
      _ = _ := by rw [← whole]; simp only [List.append_assoc]
  have place := once _ _ parts
  rw [List.length_append, List.length_take] at place
  omega

theorem intercalate_concat (sep : List α) {parts : List (List α)} (filled : parts ≠ [])
    (last : List α) :
    sep.intercalate (parts ++ [last]) = sep.intercalate parts ++ sep ++ last := by
  induction parts with
  | nil => exact absurd rfl filled
  | cons first rest ih =>
    cases rest with
    | nil => simp
    | cons next rest =>
      have tail := ih (List.cons_ne_nil next rest)
      rw [List.cons_append] at tail
      rw [List.cons_append, List.cons_append, List.intercalate_cons_cons, tail,
        List.intercalate_cons_cons]
      simp only [List.append_assoc]

universe v

variable {β : Type v}

theorem forall_mem_take_filterMap {f : α → Option β} {P : β → Prop} (order : List α) (n : Nat) :
    (∀ b ∈ (order.filterMap f).take n, P b) ↔
      ∀ before a after, order = before ++ a :: after →
        ∀ b ∈ f a, (before.filterMap f).length < n → P b := by
  constructor
  · rintro early before a after rfl b found few
    refine early b ?_
    rw [List.filterMap_append, List.filterMap_cons_some found, List.take_append]
    have space : n - (before.filterMap f).length = n - (before.filterMap f).length - 1 + 1 := by omega
    rw [space, List.take_succ_cons]
    exact List.mem_append_right _ List.mem_cons_self
  · intro early
    induction order generalizing n with
    | nil => exact fun b wrong => absurd wrong (by simp)
    | cons a rest ih =>
      cases found : f a with
      | none =>
        rw [List.filterMap_cons_none found]
        refine ih n fun before c after same b here few => ?_
        refine early (a :: before) c after (congrArg (a :: ·) same) b here ?_
        rw [List.filterMap_cons_none found]
        exact few
      | some b =>
        rw [List.filterMap_cons_some found]
        cases n with
        | zero => exact fun b wrong => absurd wrong (by simp)
        | succ n =>
          rw [List.take_succ_cons]
          refine List.forall_mem_cons.mpr ⟨?_, ?_⟩
          · exact early [] a rest rfl b found (Nat.succ_pos n)
          · refine ih n fun before c after same d here few => ?_
            refine early (a :: before) c after (congrArg (a :: ·) same) d here ?_
            rw [List.filterMap_cons_some found, List.length_cons]
            omega

end AverQel.Foundation.Slices
