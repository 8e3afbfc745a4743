/- digest: Depth-first search for a cycle in a finite graph, sound and complete. -/
import Mathlib.Data.List.Nodup
import Mathlib.Data.List.Perm.Subperm
import Mathlib.Logic.Relation

namespace AverQel.Foundation.DepthFirst

open Relation (ReflTransGen TransGen)

universe u

variable {α : Type u}

/-- `b` is a successor of `a`. -/
def Edge (next : α → List α) (a b : α) : Prop := b ∈ next a

def Acyclic (next : α → List α) (ids : List α) : Prop :=
  ∀ a ∈ ids, ¬ TransGen (Edge next) a a

theorem Acyclic.comap {β : Type u} {next : α → List α} {ids : List α} {next' : β → List β}
    {ids' : List β} (acyclic : Acyclic next' ids') (f : α → β) (inside : ∀ a ∈ ids, f a ∈ ids')
    (edges : ∀ a b, Edge next a b → Edge next' (f a) (f b)) : Acyclic next ids := by
  intro a member cycle
  exact acyclic (f a) (inside a member) (cycle.lift f edges)

theorem mem_of_path {next : α → List α} {ids : List α}
    (closed : ∀ a ∈ ids, ∀ b ∈ next a, b ∈ ids) {a b : α} (member : a ∈ ids)
    (path : ReflTransGen (Edge next) a b) : b ∈ ids := by
  induction path with
  | refl => exact member
  | tail _ edge ih => exact closed _ ih _ edge

def Ordered (next : α → List α) : List α → Prop
  | [] => True
  | a :: rest => (∀ b ∈ next a, b ∈ rest) ∧ Ordered next rest

namespace Ordered

variable {next : α → List α} {finished : List α}

theorem closed (ordered : Ordered next finished) {a b : α} (member : a ∈ finished)
    (edge : Edge next a b) : b ∈ finished := by
  induction finished with
  | nil => cases member
  | cons c rest ih =>
    obtain ⟨behind, ordered⟩ := ordered
    rcases List.mem_cons.mp member with rfl | later
    · exact List.mem_cons_of_mem _ (behind b edge)
    · exact List.mem_cons_of_mem _ (ih ordered later)

theorem acyclic (ordered : Ordered next finished) : Acyclic next finished := by
  induction finished with
  | nil =>
    intro a member
    cases member
  | cons c rest ih =>
    obtain ⟨behind, ordered⟩ := ordered
    intro a member cycle
    have old : a ∈ rest := by
      rcases List.mem_cons.mp member with rfl | later
      · obtain ⟨b, edge, back⟩ := TransGen.head'_iff.mp cycle
        exact mem_of_path (fun _ old _ edge => ordered.closed old edge) (behind b edge) back
      · exact later
    exact ih ordered a old cycle

theorem exists_last (ordered : Ordered next finished) (p : α → Prop) {a : α}
    (member : a ∈ finished) (holds : p a) :
    ∃ b, ReflTransGen (Edge next) a b ∧ p b ∧ ∀ c ∈ next b, ¬ p c := by
  induction finished generalizing a with
  | nil => cases member
  | cons d rest ih =>
    obtain ⟨behind, ordered⟩ := ordered
    by_cases last : ∀ c ∈ next a, ¬ p c
    · exact ⟨a, .refl, holds, last⟩
    · push Not at last
      obtain ⟨c, edge, again⟩ := last
      have later : c ∈ rest := by
        rcases List.mem_cons.mp member with rfl | old
        · exact behind c edge
        · exact ordered.closed old edge
      obtain ⟨b, path, found⟩ := ih ordered later again
      exact ⟨b, path.head edge, found⟩

end Ordered

section Search

variable [DecidableEq α] (next : α → List α)

/-- Visit a node below the nodes of `visiting`; `none` is a cycle. The finished nodes are returned,
the last one first. -/
def visit : Nat → List α → List α → α → Option (List α)
  | 0, _, _, _ => none
  | fuel + 1, visiting, visited, a =>
    if a ∈ visited then some visited
    else if a ∈ visiting then none
    else
      ((next a).foldlM (fun visited b => visit fuel (a :: visiting) visited b) visited).map (a :: ·)

def visitAll (ids : List α) : Option (List α) :=
  ids.foldlM (fun visited a => visit next (ids.length + 1) [] visited a) []

end Search

section Folds

variable {next : α → List α}

theorem ordered_of_foldlM {f : List α → α → Option (List α)}
    (step : ∀ {acc acc' : List α} {a : α}, Ordered next acc → f acc a = some acc' →
      Ordered next acc' ∧ a ∈ acc' ∧ acc ⊆ acc') {items acc acc' : List α}
    (start : Ordered next acc) (done : items.foldlM f acc = some acc') :
    Ordered next acc' ∧ (∀ a ∈ items, a ∈ acc') ∧ acc ⊆ acc' := by
  induction items generalizing acc with
  | nil =>
    obtain rfl : acc = acc' := by simpa using done
    exact ⟨start, by simp, List.Subset.refl _⟩
  | cons a rest ih =>
    rw [List.foldlM_cons] at done
    obtain ⟨mid, first, later⟩ := Option.bind_eq_some_iff.mp done
    obtain ⟨held, gained, kept⟩ := step start first
    obtain ⟨last, all, grown⟩ := ih held later
    refine ⟨last, ?_, List.Subset.trans kept grown⟩
    intro b member
    rcases List.mem_cons.mp member with rfl | old
    · exact grown gained
    · exact all b old

theorem exists_of_foldlM_eq_none {β : Type u} {f : β → α → Option β} {items : List α} {acc : β}
    (failed : items.foldlM f acc = none) : ∃ a ∈ items, ∃ mid, f mid a = none := by
  induction items generalizing acc with
  | nil => simp at failed
  | cons a rest ih =>
    rw [List.foldlM_cons] at failed
    cases first : f acc a with
    | none => exact ⟨a, List.mem_cons_self, acc, first⟩
    | some =>
      rw [first] at failed
      obtain ⟨b, member, found⟩ := ih failed
      exact ⟨b, List.mem_cons_of_mem a member, found⟩

end Folds

variable [DecidableEq α] {next : α → List α}

theorem ordered_of_visit {fuel : Nat} {visiting visited visited' : List α} {a : α}
    (ordered : Ordered next visited) (done : visit next fuel visiting visited a = some visited') :
    Ordered next visited' ∧ a ∈ visited' ∧ visited ⊆ visited' := by
  induction fuel generalizing visiting visited visited' a with
  | zero => simp [visit] at done
  | succ fuel ih =>
    simp only [visit] at done
    split_ifs at done with finished below
    · obtain rfl := Option.some.inj done
      exact ⟨ordered, finished, List.Subset.refl _⟩
    · obtain ⟨deeper, folded, rfl⟩ := Option.map_eq_some_iff.mp done
      obtain ⟨last, all, grown⟩ := ordered_of_foldlM ih ordered folded
      exact ⟨⟨all, last⟩, List.mem_cons_self, List.Subset.trans grown (List.subset_cons_self _ _)⟩

theorem ordered_of_visitAll {ids visited : List α} (done : visitAll next ids = some visited) :
    Ordered next visited ∧ ∀ a ∈ ids, a ∈ visited := by
  have start : Ordered next [] := trivial
  obtain ⟨ordered, all, _⟩ := ordered_of_foldlM ordered_of_visit start done
  exact ⟨ordered, all⟩

theorem cycle_of_visit {ids : List α} (closed : ∀ a ∈ ids, ∀ b ∈ next a, b ∈ ids) {fuel : Nat}
    {visiting visited : List α} {a : α} (member : a ∈ ids) (inside : visiting ⊆ ids)
    (apart : visiting.Nodup) (room : ids.length < fuel + visiting.length)
    (above : ∀ v ∈ visiting, TransGen (Edge next) v a)
    (failed : visit next fuel visiting visited a = none) :
    ∃ b ∈ ids, TransGen (Edge next) b b := by
  induction fuel generalizing visiting visited a with
  | zero =>
    have fits := (apart.subperm inside).length_le
    omega
  | succ fuel ih =>
    simp only [visit] at failed
    split_ifs at failed with finished below
    · exact ⟨a, member, above a below⟩
    · obtain ⟨b, edge, mid, deeper⟩ := exists_of_foldlM_eq_none (Option.map_eq_none_iff.mp failed)
      refine ih (closed a member b edge) (List.cons_subset.mpr ⟨member, inside⟩)
        (List.nodup_cons.mpr ⟨below, apart⟩) ?_ ?_ deeper
      · rw [List.length_cons]
        omega
      · intro v open_
        rcases List.mem_cons.mp open_ with rfl | old
        · exact .single edge
        · exact (above v old).tail edge

theorem visitAll_isSome_iff {ids : List α} (closed : ∀ a ∈ ids, ∀ b ∈ next a, b ∈ ids) :
    (visitAll next ids).isSome ↔ Acyclic next ids := by
  constructor
  · intro accepted
    obtain ⟨visited, done⟩ := Option.isSome_iff_exists.mp accepted
    obtain ⟨ordered, all⟩ := ordered_of_visitAll done
    intro a member
    exact ordered.acyclic a (all a member)
  · intro acyclic
    cases done : visitAll next ids with
    | some => rfl
    | none =>
      obtain ⟨a, member, mid, failed⟩ := exists_of_foldlM_eq_none done
      obtain ⟨b, known, cycle⟩ := cycle_of_visit closed member (List.nil_subset _) List.nodup_nil
        (by simp) (by simp) failed
      exact absurd cycle (acyclic b known)

theorem Acyclic.exists_last {ids : List α} (acyclic : Acyclic next ids)
    (closed : ∀ a ∈ ids, ∀ b ∈ next a, b ∈ ids) (p : α → Prop) {a : α} (member : a ∈ ids)
    (holds : p a) : ∃ b ∈ ids, ReflTransGen (Edge next) a b ∧ p b ∧ ∀ c ∈ next b, ¬ p c := by
  obtain ⟨visited, done⟩ := Option.isSome_iff_exists.mp ((visitAll_isSome_iff closed).mpr acyclic)
  obtain ⟨ordered, all⟩ := ordered_of_visitAll done
  obtain ⟨b, path, found⟩ := ordered.exists_last p (all a member) holds
  exact ⟨b, mem_of_path closed member path, path, found⟩

end AverQel.Foundation.DepthFirst
