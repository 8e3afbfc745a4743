/- digest: A search with a stack of nodes to visit, sound and complete. -/
import Mathlib.Data.List.Nodup
import Mathlib.Data.List.Perm.Subperm

namespace AverQel.Foundation.Worklist

universe u
variable {κ : Type u} [DecidableEq κ] (next : κ → List κ)

def collect : Nat → List κ → List κ → List κ
  | 0, _, found => found
  | _ + 1, [], found => found
  | fuel + 1, a :: pending, found =>
    let new := (next a).filter fun b => b ∉ found
    collect fuel (new.reverse ++ pending) (found ++ new)

variable {next}

theorem forall_mem_collect {P : κ → Prop} (passes : ∀ a, P a → ∀ b ∈ next a, P b) {fuel : Nat}
    {pending found : List κ} (waiting : ∀ a ∈ pending, P a) (start : ∀ a ∈ found, P a) :
    ∀ a ∈ collect next fuel pending found, P a := by
  induction fuel generalizing pending found with
  | zero => exact start
  | succ fuel ih =>
    cases pending with
    | nil => exact start
    | cons a =>
      have ofNew : ∀ b ∈ (next a).filter fun b => b ∉ found, P b := fun b member =>
        passes a (waiting a List.mem_cons_self) b (List.mem_filter.mp member).1
      apply ih
      · intro b member
        rcases List.mem_append.mp member with new | old
        · exact ofNew b (List.mem_reverse.mp new)
        · exact waiting b (List.mem_cons_of_mem a old)
      · intro b member
        rcases List.mem_append.mp member with old | new
        · exact start b old
        · exact ofNew b new

theorem subset_collect {fuel : Nat} {pending found : List κ} :
    found ⊆ collect next fuel pending found := by
  induction fuel generalizing pending found with
  | zero => exact List.Subset.refl found
  | succ fuel ih =>
    cases pending with
    | nil => exact List.Subset.refl found
    | cons => exact List.Subset.trans (List.subset_append_left found _) ih

theorem length_missing {ids found new : List κ} (nodup : new.Nodup)
    (fresh : ∀ b ∈ new, b ∈ ids ∧ b ∉ found) :
    new.length + (ids.filter fun b => b ∉ found ++ new).length ≤
      (ids.filter fun b => b ∉ found).length := by
  let missing := ids.filter fun b => b ∉ found
  have rest : (ids.filter fun b => b ∉ found ++ new) = missing.filter fun b => b ∉ new := by
    rw [List.filter_filter]
    refine List.filter_congr fun b _ => ?_
    simp only [List.mem_append, not_or, Bool.decide_and, Bool.and_comm]
  have inside : new ⊆ missing.filter fun b => b ∈ new := fun b member =>
    List.mem_filter.mpr ⟨List.mem_filter.mpr ⟨(fresh b member).1,
      decide_eq_true (fresh b member).2⟩, decide_eq_true member⟩
  have short := (nodup.subperm inside).length_le
  have split := List.length_eq_length_filter_add (l := missing) fun b => decide (b ∈ new)
  have flip : (missing.filter fun b => b ∉ new) = missing.filter fun b => !decide (b ∈ new) :=
    List.filter_congr fun b _ => decide_not
  rw [rest, flip]
  show _ ≤ missing.length
  omega

theorem closed_collect (ids : List κ) (nodup : ∀ a, (next a).Nodup)
    (listed : ∀ a, ∀ b ∈ next a, b ∈ ids) {fuel : Nat} {pending found : List κ}
    (enough : pending.length + (ids.filter fun b => b ∉ found).length ≤ fuel)
    (visited : ∀ a ∈ found, a ∉ pending → next a ⊆ found) :
    ∀ a ∈ collect next fuel pending found, next a ⊆ collect next fuel pending found := by
  induction fuel generalizing pending found with
  | zero =>
    obtain rfl : pending = [] := List.eq_nil_of_length_eq_zero (by omega)
    exact fun a member => visited a member List.not_mem_nil
  | succ fuel ih =>
    cases pending with
    | nil => exact fun a member => visited a member List.not_mem_nil
    | cons a pending =>
      let new := (next a).filter fun b => b ∉ found
      have shrinks : new.length + (ids.filter fun b => b ∉ found ++ new).length ≤
          (ids.filter fun b => b ∉ found).length := length_missing ((nodup a).filter _) fun b member => by
          obtain ⟨edge, fresh⟩ := List.mem_filter.mp member
          exact ⟨listed a b edge, of_decide_eq_true fresh⟩
      apply ih
      · rw [List.length_append, List.length_reverse]
        rw [List.length_cons] at enough
        show new.length + pending.length + (ids.filter fun b => b ∉ found ++ new).length ≤ fuel
        omega
      · intro b member waits c edge
        by_cases seen : c ∈ found
        · exact List.mem_append_left _ seen
        rcases List.mem_append.mp member with old | fresh
        · by_cases here : b = a
          · rw [here] at edge
            exact List.mem_append_right _ (List.mem_filter.mpr ⟨edge, decide_eq_true seen⟩)
          · refine List.mem_append_left _ (visited b old (fun on => ?_) edge)
            rcases List.mem_cons.mp on with same | later
            · exact here same
            · exact waits (List.mem_append_right _ later)
        · exact absurd (List.mem_append_left _ (List.mem_reverse.mpr fresh)) waits

end AverQel.Foundation.Worklist
