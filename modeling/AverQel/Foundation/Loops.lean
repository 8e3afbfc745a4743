/- digest: A loop that goes on while its state asks for it, and how its fuel is counted. -/
import Mathlib.Data.List.Perm.Subperm
import Mathlib.Data.List.Range
import Mathlib.Data.List.Nodup
import Mathlib.Data.Nat.Find
import Mathlib.Data.Nat.SuccPred
import Mathlib.Logic.Function.Iterate

namespace AverQel.Foundation.Loops

universe u v
variable {σ : Type u} {τ : Type v}

def loop (busy : σ → Bool) (step : σ → σ) : Nat → σ → σ
  | 0, s => s
  | fuel + 1, s => if busy s then loop busy step fuel (step s) else s

/-- The loop makes exactly `n` turns. -/
def EndsAfter (busy : σ → Bool) (step : σ → σ) (s : σ) (n : Nat) : Prop :=
  busy (step^[n] s) = false ∧ ∀ m < n, busy (step^[m] s) = true

variable {busy : σ → Bool} {step : σ → σ}

theorem EndsAfter.succ {s : σ} {n : Nat} (asked : busy s = true)
    (ends : EndsAfter busy step (step s) n) : EndsAfter busy step s (n + 1) := by
  refine ⟨ends.1, ?_⟩
  intro m earlier
  cases m with
  | zero => exact asked
  | succ m => exact ends.2 m (Nat.lt_of_succ_lt_succ earlier)

theorem loop_of_endsAfter {s : σ} {n fuel : Nat} (ends : EndsAfter busy step s n)
    (enough : n ≤ fuel) : loop busy step fuel s = step^[n] s := by
  induction n generalizing s fuel with
  | zero =>
    have idle : busy s = false := ends.1
    cases fuel with
    | zero => rfl
    | succ => simp [loop, idle]
  | succ n ih =>
    obtain ⟨fuel, rfl⟩ : ∃ k, fuel = k + 1 := ⟨fuel - 1, by omega⟩
    have asked : busy s = true := ends.2 0 (Nat.succ_pos n)
    have later : EndsAfter busy step (step s) n :=
      ⟨ends.1, fun m earlier => ends.2 (m + 1) (Nat.succ_lt_succ earlier)⟩
    rw [loop, if_pos asked, ih later (Nat.le_of_succ_le_succ enough), Function.iterate_succ_apply]

theorem exists_endsAfter_of_rank (rank : σ → Nat)
    (descend : ∀ s, busy s = true → rank (step s) < rank s) (s : σ) :
    ∃ n ≤ rank s, EndsAfter busy step s n := by
  induction bound : rank s using Nat.strongRecOn generalizing s with
  | _ k ih =>
    subst bound
    cases asked : busy s with
    | false => exact ⟨0, Nat.zero_le _, asked, fun m earlier => absurd earlier (Nat.not_lt_zero m)⟩
    | true =>
      have smaller := descend s asked
      obtain ⟨n, few, ends⟩ := ih (rank (step s)) smaller (step s) rfl
      exact ⟨n + 1, by omega, ends.succ asked⟩

theorem invariant_loop {I : σ → Prop} (keep : ∀ s, busy s = true → I s → I (step s)) (fuel : Nat)
    {s : σ} (inv : I s) : I (loop busy step fuel s) := by
  induction fuel generalizing s with
  | zero => exact inv
  | succ fuel ih =>
    rw [loop]
    cases asked : busy s with
    | false => exact inv
    | true => exact ih (keep s asked inv)

theorem map_loop {busy' : τ → Bool} {step' : τ → τ} (f : σ → τ)
    (asks : ∀ s, busy' (f s) = busy s) (turns : ∀ s, f (step s) = step' (f s)) (fuel : Nat) (s : σ) :
    f (loop busy step fuel s) = loop busy' step' fuel (f s) := by
  induction fuel generalizing s with
  | zero => rfl
  | succ fuel ih =>
    rw [loop, loop, asks, ← turns, ← ih]
    exact apply_ite f _ _ _

variable {α : Type u} {busy : Nat → Bool}

theorem exists_endsAfter_of_injective {name : Nat → α} (different : Function.Injective name)
    {taken : List α} (asks : ∀ i, busy i = true → name i ∈ taken) (start : Nat) :
    ∃ n ≤ taken.length, EndsAfter busy Nat.succ start n := by
  have some_ : ∃ n, n ≤ taken.length ∧ busy (start + n) = false := by
    by_contra none_
    push Not at none_
    have distinct : ((List.range (taken.length + 1)).map fun n => name (start + n)).Nodup :=
      List.nodup_range.map fun m n same => Nat.add_left_cancel (different same)
    have part : ((List.range (taken.length + 1)).map fun n => name (start + n)) ⊆ taken := by
      intro a member
      obtain ⟨n, inside, rfl⟩ := List.mem_map.mp member
      refine asks _ (eq_true_of_ne_false (none_ n ?_))
      exact Nat.le_of_lt_succ (List.mem_range.mp inside)
    have few := (distinct.subperm part).length_le
    rw [List.length_map, List.length_range] at few
    omega
  have first := Nat.find_spec some_
  refine ⟨Nat.find some_, first.1, ?_, fun m earlier => ?_⟩
  · rw [Nat.succ_iterate]
    exact first.2
  · have before := Nat.find_min some_ earlier
    rw [Nat.succ_iterate]
    exact eq_true_of_ne_false fun free => before ⟨by omega, free⟩

end AverQel.Foundation.Loops
