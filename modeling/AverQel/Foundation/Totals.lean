/- digest: The total of a measure over rows, and what one changed row does to it. -/
import AverQel.Foundation.Table

namespace AverQel.Foundation

universe u v

section Lists

variable {α : Type u} {β : Type v} (f : α → Nat)

/-- `coalesce(sum(f), 0)` -/
def total : List α → Nat
  | [] => 0
  | a :: rows => f a + total rows

@[simp] theorem total_nil : total f [] = 0 := rfl

@[simp] theorem total_cons (a : α) (rows : List α) : total f (a :: rows) = f a + total f rows := rfl

theorem total_append (rows more : List α) :
    total f (rows ++ more) = total f rows + total f more := by
  induction rows with
  | nil => simp
  | cons a rows ih =>
    simp only [List.cons_append, total_cons, ih]
    omega

theorem total_map (g : β → α) (rows : List β) :
    total f (rows.map g) = total (fun b => f (g b)) rows := by
  induction rows with
  | nil => rfl
  | cons b rows ih => simp only [List.map_cons, total_cons, ih]

theorem total_perm {rows more : List α} (perm : rows.Perm more) : total f rows = total f more := by
  induction perm with
  | nil => rfl
  | cons a _ ih => rw [total_cons, total_cons, ih]
  | swap =>
    simp only [total_cons]
    omega
  | trans _ _ first second => exact first.trans second

theorem length_flatMap_eq_total (g : α → List β) (rows : List α) :
    (rows.flatMap g).length = total (fun a => (g a).length) rows := by
  induction rows with
  | nil => rfl
  | cons a rows ih => rw [List.flatMap_cons, List.length_append, ih, total_cons]

theorem total_add (g : α → Nat) (rows : List α) :
    total (fun a => f a + g a) rows = total f rows + total g rows := by
  induction rows with
  | nil => rfl
  | cons a rows ih =>
    simp only [total_cons, ih]
    omega

variable {f}

variable {rows : List α}

theorem total_le_total {g : α → Nat} (below : ∀ a ∈ rows, f a ≤ g a) :
    total f rows ≤ total g rows := by
  induction rows with
  | nil => exact Nat.le_refl 0
  | cons a rows ih =>
    have head := below a List.mem_cons_self
    have tail := ih fun b member => below b (List.mem_cons_of_mem a member)
    simp only [total_cons]
    omega

theorem total_congr {g : α → Nat} (same : ∀ a ∈ rows, f a = g a) :
    total f rows = total g rows := by
  have up := total_le_total fun a member => (same a member).le
  have down := total_le_total fun a member => (same a member).ge
  omega

theorem total_eq_zero_iff : total f rows = 0 ↔ ∀ a ∈ rows, f a = 0 := by
  induction rows with
  | nil => simp
  | cons a rows ih => rw [total_cons, Nat.add_eq_zero_iff, ih, List.forall_mem_cons]

theorem total_zero (rows : List α) : total (fun _ => 0) rows = 0 := by
  induction rows with
  | nil => rfl
  | cons a rows ih => rw [total_cons, ih]

theorem total_ite_eq [DecidableEq α] (different : rows.Nodup) {a : α} (member : a ∈ rows)
    (n : Nat) : total (fun b => if b = a then n else 0) rows = n := by
  induction rows with
  | nil => cases member
  | cons b rows ih =>
    obtain ⟨fresh, rest⟩ := List.nodup_cons.mp different
    rw [total_cons]
    rcases List.mem_cons.mp member with rfl | later
    · have others : total (fun b => if b = a then n else 0) rows = total (fun _ => 0) rows := by
        refine total_congr ?_
        intro c old
        have other : c ≠ a := fun same => fresh (same ▸ old)
        exact if_neg other
      rw [if_pos rfl, others, total_zero, Nat.add_zero]
    · have other : b ≠ a := fun same => fresh (same ▸ later)
      rw [if_neg other, ih rest later, Nat.zero_add]

end Lists

namespace Table

variable {α : Type u} {κ : Type v} {key : α → κ} [DecidableEq κ] (f : α → Nat)

theorem total_map_one {rows : List α} {k : κ} {a : α} (keys : (rows.map key).Nodup)
    (member : a ∈ rows) (same : key a = k) (g : α → α) :
    total f (rows.map fun b => if key b = k then g b else b) + f a = total f rows + f (g a) := by
  rw [total_map]
  induction rows with
  | nil => cases member
  | cons b rows ih =>
    rw [List.map_cons, List.nodup_cons] at keys
    simp only [total_cons]
    rcases List.mem_cons.mp member with rfl | later
    · have rest : total (fun c => f (if key c = k then g c else c)) rows = total f rows := by
        refine total_congr ?_
        intro c old
        have other : key c ≠ k := by
          intro hit
          rw [← same] at hit
          exact keys.1 (hit ▸ List.mem_map_of_mem old)
        rw [if_neg other]
      rw [if_pos same, rest]
      omega
    · have other : key b ≠ k := by
        intro hit
        rw [hit, ← same] at keys
        exact keys.1 (List.mem_map_of_mem later)
      have tail := ih keys.2 later
      rw [if_neg other]
      omega

theorem total_modify {t : Table α key} {k : κ} {a : α} (found : t.find? k = some a) (g : α → α)
    (hg : ∀ b, key (g b) = key b) :
    total f (t.modify k g hg).rows + f a = total f t.rows + f (g a) := by
  obtain ⟨member, same⟩ := find?_eq_some_iff.mp found
  exact total_map_one f t.keys_nodup member same g

theorem total_of_insert? {t t' : Table α key} {a : α} (inserted : t.insert? a = some t') :
    total f t'.rows = total f t.rows + f a := by
  rw [rows_of_insert? inserted, total_append]
  rfl

end Table

end AverQel.Foundation
