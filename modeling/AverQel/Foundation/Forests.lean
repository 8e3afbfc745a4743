/- digest: Parent links: climbing to the root, and when moving a node keeps every climb finite. -/
import Mathlib.Data.List.Basic
import Mathlib.Data.Nat.Find
import Mathlib.Logic.Function.Basic

namespace AverQel.Foundation.Forests

universe u
variable {κ : Type u} (parent : κ → Option κ)

/-- Climb `n` parent links; `none` once the root is passed. -/
def climb : Nat → κ → Option κ
  | 0, a => some a
  | n + 1, a => (parent a).bind (climb n)

def Rooted (a : κ) : Prop := ∃ n, climb parent n a = none

def Above (a b : κ) : Prop := ∃ n, climb parent n b = some a

variable {parent}

theorem climb_add (m n : Nat) (a : κ) :
    climb parent (m + n) a = (climb parent m a).bind (climb parent n) := by
  induction m generalizing a with
  | zero => rw [Nat.zero_add]; rfl
  | succ m ih =>
    rw [Nat.succ_add]
    show (parent a).bind (climb parent (m + n)) = ((parent a).bind (climb parent m)).bind _
    cases parent a with
    | none => rfl
    | some p => exact ih p

theorem climb_of_parent {a p : κ} (link : parent a = some p) (n : Nat) :
    climb parent (n + 1) a = climb parent n p := by
  show (parent a).bind (climb parent n) = _
  rw [link]
  rfl

theorem climb_mono {m n : Nat} {a : κ} (ended : climb parent m a = none) (longer : m ≤ n) :
    climb parent n a = none := by
  obtain ⟨k, rfl⟩ := Nat.exists_eq_add_of_le longer
  rw [climb_add, ended]
  rfl

theorem rooted_of_root {a : κ} (root : parent a = none) : Rooted parent a := by
  refine ⟨1, ?_⟩
  show (parent a).bind _ = none
  rw [root]
  rfl

theorem rooted_iff_of_parent {a p : κ} (link : parent a = some p) :
    Rooted parent a ↔ Rooted parent p := by
  constructor
  · rintro ⟨n, ended⟩
    refine ⟨n, ?_⟩
    rw [← climb_of_parent link n]
    exact climb_mono ended (Nat.le_succ n)
  · rintro ⟨n, ended⟩
    exact ⟨n + 1, (climb_of_parent link n).trans ended⟩

theorem Above.refl (a : κ) : Above parent a a := ⟨0, rfl⟩

theorem above_of_parent {a b p : κ} (link : parent b = some p) (above : Above parent a p) :
    Above parent a b := by
  obtain ⟨n, found⟩ := above
  exact ⟨n + 1, (climb_of_parent link n).trans found⟩

theorem not_rooted_of_return {a : κ} {n : Nat} (back : climb parent (n + 1) a = some a) :
    ¬ Rooted parent a := by
  rintro ⟨m, ended⟩
  have around : ∀ k, climb parent (k * (n + 1)) a = some a := by
    intro k
    induction k with
    | zero => rw [Nat.zero_mul]; rfl
    | succ k ih =>
      rw [Nat.succ_mul, climb_add, ih]
      exact back
  have past := climb_mono ended (Nat.le_mul_of_pos_right m (Nat.succ_pos n))
  rw [around m] at past
  cases past

theorem Rooted.not_above_parent {a p : κ} (rooted : Rooted parent a) (link : parent a = some p) :
    ¬ Above parent a p := by
  rintro ⟨n, back⟩
  exact not_rooted_of_return ((climb_of_parent link n).trans back) rooted

theorem climb_length {a : κ} (rooted : Rooted parent a) (ids : List κ) [DecidableEq κ]
    (listed : ∀ b, Above parent b a → parent b ≠ none → b ∈ ids) :
    climb parent (ids.length + 1) a = none := by
  cases link : parent a with
  | none =>
    show (parent a).bind _ = none
    rw [link]
    rfl
  | some p =>
    have member : a ∈ ids := listed a (.refl a) (by rw [link]; exact Option.some_ne_none p)
    have shorter : (ids.erase a).length < ids.length := by
      have positive := List.length_pos_of_mem member
      rw [List.length_erase_of_mem member]
      omega
    have rest := climb_length ((rooted_iff_of_parent link).mp rooted) (ids.erase a)
      fun b above linked => by
        have other : b ≠ a := by
          rintro rfl
          exact rooted.not_above_parent link above
        exact (List.mem_erase_of_ne other).mpr (listed b (above_of_parent link above) linked)
    rw [climb_of_parent link]
    exact climb_mono rest shorter
termination_by ids.length

variable {parent' : κ → Option κ}

theorem rooted_of_cut (cut : ∀ a, parent' a = parent a ∨ parent' a = none) {a : κ}
    (rooted : Rooted parent a) : Rooted parent' a := by
  obtain ⟨n, ended⟩ := rooted
  induction n generalizing a with
  | zero => cases ended
  | succ n ih =>
    rcases cut a with same | root
    · cases link : parent a with
      | none => exact rooted_of_root (same.trans link)
      | some =>
        rw [climb_of_parent link] at ended
        exact (rooted_iff_of_parent (same.trans link)).mpr (ih ended)
    · exact rooted_of_root root

variable [DecidableEq κ]

theorem climb_update {moved : κ} {to' : Option κ} {n : Nat} {a : κ}
    (apart : ∀ m < n, climb parent m a ≠ some moved) :
    climb (Function.update parent moved to') n a = climb parent n a := by
  induction n generalizing a with
  | zero => rfl
  | succ n ih =>
    have other : a ≠ moved := fun same => apart 0 (Nat.succ_pos n) (congrArg some same)
    show (Function.update parent moved to' a).bind _ = (parent a).bind _
    rw [Function.update_of_ne other]
    cases link : parent a with
    | none => rfl
    | some =>
      refine ih fun m below => ?_
      rw [← climb_of_parent link m]
      exact apart (m + 1) (Nat.succ_lt_succ below)

theorem rooted_update_of_not_above (rooted : ∀ a, Rooted parent a) {moved : κ} {to' : Option κ}
    (apart : ∀ p ∈ to', ¬ Above parent moved p) (a : κ) :
    Rooted (Function.update parent moved to') a := by
  have own : Rooted (Function.update parent moved to') moved := by
    cases target : to' with
    | none => exact rooted_of_root (Function.update_self moved none parent)
    | some p =>
      have link : Function.update parent moved (some p) moved = some p :=
        Function.update_self moved _ parent
      obtain ⟨n, ended⟩ := rooted p
      refine (rooted_iff_of_parent link).mpr ⟨n, ?_⟩
      rw [climb_update fun m _ met => apart p target ⟨m, met⟩]
      exact ended
  obtain ⟨n, ended⟩ := rooted a
  induction n generalizing a with
  | zero => cases ended
  | succ n ih =>
    by_cases same : a = moved
    · rw [same]
      exact own
    · have kept : Function.update parent moved to' a = parent a := Function.update_of_ne same _ _
      cases link : parent a with
      | none => exact rooted_of_root (kept.trans link)
      | some p =>
        rw [climb_of_parent link] at ended
        exact (rooted_iff_of_parent (kept.trans link)).mpr (ih p ended)

theorem rooted_update_iff (rooted : ∀ a, Rooted parent a) (moved : κ) (to' : Option κ) :
    (∀ a, Rooted (Function.update parent moved to') a) ↔ ∀ p ∈ to', ¬ Above parent moved p := by
  refine ⟨?_, fun apart => rooted_update_of_not_above rooted apart⟩
  rintro after p rfl above
  let first := Nat.find above
  have met : climb parent first p = some moved := Nat.find_spec above
  have same : climb (Function.update parent moved (some p)) first p = some moved := by
    rw [climb_update fun m below => Nat.find_min above below]
    exact met
  have link : Function.update parent moved (some p) moved = some p := Function.update_self moved _ parent
  exact not_rooted_of_return ((climb_of_parent link first).trans same) (after moved)

end AverQel.Foundation.Forests
