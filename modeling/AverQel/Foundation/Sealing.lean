/- digest: Ideal authenticated sealing, and texts whose fields a separator keeps apart. -/
import Mathlib.Data.List.Basic

namespace AverQel.Foundation

universe u v w

/-- What an ideal AEAD makes of a content: it opens under the same key, nonce and associated data
and under nothing else. -/
structure Sealed (κ : Type u) (α : Type v) where
  key : κ
  nonce : Nat
  associated : String
  content : α
  deriving DecidableEq, Repr

namespace Sealed

variable {κ : Type u} {α : Type v} {β : Type w}

def map (f : α → β) (s : Sealed κ α) : Sealed κ β := ⟨s.key, s.nonce, s.associated, f s.content⟩

variable [DecidableEq κ]

def open? (s : Sealed κ α) (key : κ) (nonce : Nat) (associated : String) : Option α :=
  if s.key = key ∧ s.nonce = nonce ∧ s.associated = associated then some s.content else none

@[simp] theorem open?_self (key : κ) (nonce : Nat) (associated : String) (content : α) :
    (Sealed.mk key nonce associated content).open? key nonce associated = some content := by
  simp [open?]

theorem key_of_open? {s : Sealed κ α} {key : κ} {nonce : Nat} {associated : String} {content : α}
    (opened : s.open? key nonce associated = some content) : s.key = key := by
  unfold open? at opened
  split at opened
  · rename_i same
    exact same.1
  · cases opened

theorem open?_map (f : α → β) (s : Sealed κ α) (key : κ) (nonce : Nat) (associated : String) :
    (s.map f).open? key nonce associated = (s.open? key nonce associated).map f := by
  unfold open? map
  split <;> rfl

end Sealed

namespace Fields

variable {α : Type u} {separator : α}

theorem first_injective {field field' rest rest' : List α} (clean : separator ∉ field)
    (clean' : separator ∉ field')
    (same : field ++ separator :: rest = field' ++ separator :: rest') :
    field = field' ∧ rest = rest' := by
  induction field generalizing field' with
  | nil =>
    cases field' with
    | nil => exact ⟨rfl, (List.cons.inj same).2⟩
    | cons => exact absurd (List.mem_cons.mpr (.inl (List.cons.inj same).1)) clean'
  | cons c field ih =>
    cases field' with
    | nil => exact absurd (List.mem_cons.mpr (.inl (List.cons.inj same).1.symm)) clean
    | cons =>
      obtain ⟨rfl, tail⟩ := List.cons.inj same
      obtain ⟨rfl, rest⟩ := ih (List.not_mem_of_not_mem_cons clean)
        (List.not_mem_of_not_mem_cons clean') tail
      exact ⟨rfl, rest⟩

theorem last_injective {front front' field field' : List α} (clean : separator ∉ field)
    (clean' : separator ∉ field')
    (same : front ++ separator :: field = front' ++ separator :: field') :
    front = front' ∧ field = field' := by
  have mirrored := congrArg List.reverse same
  simp only [List.reverse_append, List.reverse_cons, List.append_assoc,
    List.singleton_append] at mirrored
  obtain ⟨last, before⟩ := first_injective (by simpa using clean) (by simpa using clean') mirrored
  exact ⟨List.reverse_injective before, List.reverse_injective last⟩

end Fields

end AverQel.Foundation
