/- digest: Keys with parent links, the families they form, and the growth of a family by one leaf. -/
import Mathlib.Logic.Relation
import Mathlib.Data.Set.Insert

namespace AverQel.Foundation

universe u

open Relation (ReflTransGen)

/-- Keys with edges from parents to children; both ends of an edge are keys. -/
structure Lineage (κ : Type u) where
  keys : Set κ
  edge : κ → κ → Prop
  source_mem : ∀ {a b}, edge a b → a ∈ keys
  target_mem : ∀ {a b}, edge a b → b ∈ keys

namespace Lineage

variable {κ : Type u}

@[ext] theorem ext {L L' : Lineage κ} (keys : L.keys = L'.keys) (edge : L.edge = L'.edge) :
    L = L' := by
  cases L
  cases L'
  cases keys
  cases edge
  rfl

def Kin (L : Lineage κ) (a b : κ) : Prop :=
  ∃ origin ∈ L.keys, ReflTransGen L.edge origin a ∧ ReflTransGen L.edge origin b

theorem Kin.symm {L : Lineage κ} {a b : κ} (kin : L.Kin a b) : L.Kin b a := by
  obtain ⟨origin, member, left, right⟩ := kin
  exact ⟨origin, member, right, left⟩

theorem Kin.left_mem {L : Lineage κ} {a b : κ} (kin : L.Kin a b) : a ∈ L.keys := by
  obtain ⟨origin, member, left, _⟩ := kin
  rcases left.cases_tail with same | ⟨_, _, edge⟩
  · exact same ▸ member
  · exact L.target_mem edge

/-- A new key, linked to a parent or to none. -/
def grow (L : Lineage κ) (leaf : κ) (parent : Option κ) (known : ∀ p ∈ parent, p ∈ L.keys) :
    Lineage κ where
  keys := insert leaf L.keys
  edge a b := L.edge a b ∨ b = leaf ∧ a ∈ parent
  source_mem := by
    rintro a b (old | ⟨_, new⟩)
    · exact Set.mem_insert_of_mem _ (L.source_mem old)
    · exact Set.mem_insert_of_mem _ (known a new)
  target_mem := by
    rintro a b (old | ⟨rfl, _⟩)
    · exact Set.mem_insert_of_mem _ (L.target_mem old)
    · exact Set.mem_insert _ _

variable {L : Lineage κ} {leaf : κ} {parent : Option κ} {known : ∀ p ∈ parent, p ∈ L.keys}

theorem path_of_grow (fresh : leaf ∉ L.keys) {a b : κ}
    (path : ReflTransGen (L.grow leaf parent known).edge a b) (old : b ≠ leaf) :
    ReflTransGen L.edge a b := by
  induction path with
  | refl => exact .refl
  | tail _ last ih =>
    rcases last with edge | ⟨same, _⟩
    · have source := L.source_mem edge
      have notLeaf : _ ≠ leaf := fun same => fresh (same ▸ source)
      exact (ih notLeaf).tail edge
    · exact absurd same old

theorem path_grow {a b : κ} (path : ReflTransGen L.edge a b) :
    ReflTransGen (L.grow leaf parent known).edge a b :=
  ReflTransGen.mono (fun _ _ edge => Or.inl edge) _ _ path

theorem eq_of_path_from_leaf (fresh : leaf ∉ L.keys) {b : κ}
    (path : ReflTransGen (L.grow leaf parent known).edge leaf b) : b = leaf := by
  by_contra other
  rcases (path_of_grow fresh path other).cases_head with same | ⟨_, edge, _⟩
  · exact other same.symm
  · exact fresh (L.source_mem edge)

theorem kin_grow_iff_of_old (fresh : leaf ∉ L.keys) {a b : κ} (oldA : a ≠ leaf) (oldB : b ≠ leaf) :
    (L.grow leaf parent known).Kin a b ↔ L.Kin a b := by
  constructor
  · rintro ⟨origin, member, left, right⟩
    have notLeaf : origin ≠ leaf := by
      rintro rfl
      exact oldA (eq_of_path_from_leaf fresh left)
    have stored : origin ∈ L.keys := (Set.mem_insert_iff.mp member).resolve_left notLeaf
    exact ⟨origin, stored, path_of_grow fresh left oldA, path_of_grow fresh right oldB⟩
  · rintro ⟨origin, member, left, right⟩
    exact ⟨origin, Set.mem_insert_of_mem _ member, path_grow left, path_grow right⟩

theorem kin_grow_leaf_iff (fresh : leaf ∉ L.keys) {b : κ} (old : b ≠ leaf) :
    (L.grow leaf parent known).Kin leaf b ↔ ∃ p ∈ parent, L.Kin p b := by
  constructor
  · rintro ⟨origin, member, left, right⟩
    have notLeaf : origin ≠ leaf := by
      rintro rfl
      exact old (eq_of_path_from_leaf fresh right)
    have stored : origin ∈ L.keys := (Set.mem_insert_iff.mp member).resolve_left notLeaf
    have toB := path_of_grow fresh right old
    rcases left.cases_tail with same | ⟨p, toParent, edge⟩
    · exact absurd same.symm notLeaf
    · rcases edge with inside | ⟨_, link⟩
      · exact absurd (L.target_mem inside) fresh
      · have parentOld : p ≠ leaf := fun same => fresh (same ▸ known p link)
        exact ⟨p, link, origin, stored, path_of_grow fresh toParent parentOld, toB⟩
  · rintro ⟨p, link, origin, member, toParent, toB⟩
    exact ⟨origin, Set.mem_insert_of_mem _ member, (path_grow toParent).tail (.inr ⟨rfl, link⟩),
      path_grow toB⟩

end Lineage

end AverQel.Foundation
