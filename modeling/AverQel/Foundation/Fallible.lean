/- digest: Inversion of computations that may be refused. -/
import Mathlib.Init

namespace AverQel.Foundation

universe u v

variable {ε : Type u} {α β : Type v}

def ensure (condition : Prop) [Decidable condition] (error : ε) : Except ε PUnit.{v + 1} :=
  if condition then .ok ⟨⟩ else .error error

@[simp] theorem ensure_eq_ok_iff {condition : Prop} [Decidable condition] {error : ε}
    {done : PUnit.{v + 1}} : ensure condition error = .ok done ↔ condition := by
  by_cases holds : condition <;> simp [ensure, holds]

theorem bind_eq_ok_iff {x : Except ε α} {f : α → Except ε β} {b : β} :
    (x >>= f) = .ok b ↔ ∃ a, x = .ok a ∧ f a = .ok b := by
  cases x with
  | error =>
    constructor
    · intro h
      cases h
    · rintro ⟨a, h, _⟩
      cases h
  | ok a =>
    constructor
    · intro h
      exact ⟨a, rfl, h⟩
    · rintro ⟨_, same, h⟩
      cases same
      exact h

theorem exists_ensure_bind_iff {condition : Prop} [Decidable condition] {error : ε}
    {rest : PUnit.{v + 1} → Except ε β} :
    (∃ b, (ensure condition error >>= rest) = .ok b) ↔ condition ∧ ∃ b, rest ⟨⟩ = .ok b := by
  by_cases holds : condition
  · rw [ensure, if_pos holds]
    exact ⟨fun done => ⟨holds, done⟩, And.right⟩
  · rw [ensure, if_neg holds]
    refine iff_of_false ?_ fun both => holds both.1
    rintro ⟨b, done⟩
    cases done

end AverQel.Foundation
