/- digest: Sequences of pieces, normalised one after the other against what was emitted before. -/
import Mathlib.Data.List.Infix

namespace AverQel.Foundation.Deltas

universe u

variable {α : Type u}

def emit (normalise : List α → List α → List α) : List α → List (List α) → List (List α)
  | _, [] => []
  | emitted, d :: ds =>
    normalise emitted d :: emit normalise (emitted ++ normalise emitted d) ds

def Unchanged (normalise : List α → List α → List α) : List α → List (List α) → Prop
  | _, [] => True
  | emitted, d :: ds => normalise emitted d = d ∧ Unchanged normalise (emitted ++ d) ds

variable {normalise : List α → List α → List α}

theorem unchanged_iff (emitted : List α) (ds : List (List α)) :
    Unchanged normalise emitted ds ↔
      ∀ before d after, ds = before ++ d :: after → normalise (emitted ++ before.flatten) d = d := by
  induction ds generalizing emitted with
  | nil =>
    refine iff_of_true trivial fun before d after split => ?_
    simp at split
  | cons first ds ih =>
    simp only [Unchanged, ih]
    constructor
    · rintro ⟨head, tail⟩ before d after split
      cases before with
      | nil =>
        obtain ⟨rfl, rfl⟩ := List.cons.inj split
        simpa using head
      | cons b before =>
        obtain ⟨rfl, rest⟩ := List.cons.inj split
        simpa [List.append_assoc] using tail before d after rest
    · intro all
      constructor
      · simpa using all [] first ds rfl
      · intro before d after rest
        have split : first :: ds = (first :: before) ++ d :: after := by rw [rest]; rfl
        simpa [List.append_assoc] using all (first :: before) d after split

theorem flatten_emit_eq_iff (cuts : ∀ emitted d, normalise emitted d <:+ d) (emitted : List α)
    (ds : List (List α)) :
    (emit normalise emitted ds).flatten = ds.flatten ↔ Unchanged normalise emitted ds := by
  have shorter : ∀ emitted ds, (emit normalise emitted ds).flatten.length ≤ ds.flatten.length := by
    intro emitted ds
    induction ds generalizing emitted with
    | nil => exact le_refl _
    | cons d ds ih =>
      have head := (cuts emitted d).length_le
      have tail := ih (emitted ++ normalise emitted d)
      simp only [emit, List.flatten_cons, List.length_append]
      omega
  induction ds generalizing emitted with
  | nil => exact iff_of_true rfl trivial
  | cons d ds ih =>
    simp only [emit, Unchanged, List.flatten_cons]
    constructor
    · intro same
      have lengths := congrArg List.length same
      have head := (cuts emitted d).length_le
      have tail := shorter (emitted ++ normalise emitted d) ds
      simp only [List.length_append] at lengths
      have kept : normalise emitted d = d := (cuts emitted d).eq_of_length (by omega)
      rw [kept] at same
      exact ⟨kept, (ih _).mp (List.append_cancel_left same)⟩
    · rintro ⟨kept, rest⟩
      rw [kept, (ih _).mpr rest]

def Repeats (emitted d : List α) : Prop :=
  d <+: emitted ∨ ∃ start, start ≠ [] ∧ start <+: d ∧ start <:+ emitted

end AverQel.Foundation.Deltas
