/- digest: Runs of deterministic steps, invariants of guarded runs, and simulation. -/
import Mathlib.Data.List.Basic
import Mathlib.Logic.Function.Iterate

namespace AverQel.Foundation.Transition

universe u v w x
variable {σ : Type u} {ι : Type v}

def run (step : σ → ι → σ) : σ → List ι → σ
  | s, [] => s
  | s, a :: as => run step (step s a) as

def trace (step : σ → ι → σ) : σ → List ι → List σ
  | s, [] => [s]
  | s, a :: as => s :: trace step (step s a) as

def Guarded (C : σ → ι → Prop) (step : σ → ι → σ) : σ → List ι → Prop
  | _, [] => True
  | s, a :: as => C s a ∧ Guarded C step (step s a) as

instance decidableGuarded (C : σ → ι → Prop) [∀ s a, Decidable (C s a)]
    (step : σ → ι → σ) : ∀ s as, Decidable (Guarded C step s as)
  | _, [] => .isTrue trivial
  | s, a :: as =>
    have := decidableGuarded C step (step s a) as
    inferInstanceAs (Decidable (C s a ∧ Guarded C step (step s a) as))

theorem run_append (step : σ → ι → σ) (s : σ) (as bs : List ι) :
    run step s (as ++ bs) = run step (run step s as) bs := by
  induction as generalizing s with
  | nil => rfl
  | cons a as ih => exact ih (step s a)

variable {C : σ → ι → Prop}

theorem guarded_of_step (step : σ → ι → σ) (always : ∀ s a, C s a) (s : σ) (as : List ι) :
    Guarded C step s as := by
  induction as generalizing s with
  | nil => trivial
  | cons a as ih => exact ⟨always s a, ih _⟩

theorem guarded_append (step : σ → ι → σ) (s : σ) (as bs : List ι) :
    Guarded C step s (as ++ bs) ↔ Guarded C step s as ∧ Guarded C step (run step s as) bs := by
  induction as generalizing s with
  | nil => exact (and_iff_right trivial).symm
  | cons a as ih =>
    simp only [List.cons_append, Guarded, run, ih, and_assoc]

theorem guarded_true (step : σ → ι → σ) (s : σ) (as : List ι) :
    Guarded (fun _ _ => True) step s as :=
  guarded_of_step step (fun _ _ => trivial) s as

theorem guarded_and {C D : σ → ι → Prop} (step : σ → ι → σ) (s : σ) (as : List ι) :
    Guarded (fun s a => C s a ∧ D s a) step s as ↔ Guarded C step s as ∧ Guarded D step s as := by
  induction as generalizing s with
  | nil => exact (and_iff_left trivial).symm
  | cons a as ih =>
    simp only [Guarded, ih]
    exact and_and_and_comm

variable {as : List ι}

theorem guarded_of_forall {C : ι → Prop} {step : σ → ι → σ} {s : σ} (all : ∀ a ∈ as, C a) :
    Guarded (fun _ a => C a) step s as := by
  induction as generalizing s with
  | nil => trivial
  | cons a as ih =>
    have head := all a List.mem_cons_self
    exact ⟨head, ih fun b member => all b (List.mem_cons_of_mem a member)⟩

variable {I : σ → Prop}

theorem guarded_mono_of_guarded {C D E : σ → ι → Prop} {step : σ → ι → σ}
    (keep : ∀ s a, I s → E s a → I (step s a)) (imply : ∀ s a, I s → E s a → C s a → D s a)
    {s : σ} (start : I s) (expected : Guarded E step s as) (guarded : Guarded C step s as) :
    Guarded D step s as := by
  induction as generalizing s with
  | nil => trivial
  | cons a as ih =>
    have head := imply s a start expected.1 guarded.1
    exact ⟨head, ih (keep s a start expected.1) expected.2 guarded.2⟩

theorem guarded_iff_of_guarded {C D E : σ → ι → Prop} {step : σ → ι → σ}
    (keep : ∀ s a, I s → E s a → I (step s a)) (agree : ∀ s a, I s → E s a → (C s a ↔ D s a))
    {s : σ} (start : I s) (guarded : Guarded E step s as) :
    Guarded C step s as ↔ Guarded D step s as := by
  constructor
  · exact guarded_mono_of_guarded keep (fun s a inv fits => (agree s a inv fits).mp) start guarded
  · exact guarded_mono_of_guarded keep (fun s a inv fits => (agree s a inv fits).mpr) start guarded

theorem run_mem_trace (step : σ → ι → σ) (s : σ) (as : List ι) :
    run step s as ∈ trace step s as := by
  induction as generalizing s with
  | nil => exact List.mem_singleton_self s
  | cons a as ih => exact List.mem_cons_of_mem _ (ih (step s a))

theorem invariant_of_guarded {step : σ → ι → σ} (keep : ∀ s a, I s → C s a → I (step s a)) {s : σ}
    (start : I s) (guarded : Guarded C step s as) : ∀ t ∈ trace step s as, I t := by
  induction as generalizing s with
  | nil =>
    intro t member
    rw [List.mem_singleton.mp member]
    exact start
  | cons a as ih =>
    intro t member
    rcases List.mem_cons.mp member with rfl | later
    · exact start
    · exact ih (keep s a start guarded.1) guarded.2 t later

theorem invariant_of_keeps {step : σ → ι → σ} (keep : ∀ s a, I s → I (step s a)) {s : σ}
    (start : I s) (as : List ι) :
    ∀ t ∈ trace step s as, I t :=
  invariant_of_guarded (fun s a held _ => keep s a held) start (guarded_true step s as)

theorem run_of_keeps {step : σ → ι → σ} (keep : ∀ s a, I s → I (step s a)) {s : σ} (start : I s)
    (as : List ι) : I (run step s as) :=
  invariant_of_keeps keep start as _ (run_mem_trace step s as)

theorem forall_trace_iff_guarded_of_guarded {C E : σ → ι → Prop} {step : σ → ι → σ}
    {I P : σ → Prop} (keep : ∀ s a, I s → E s a → I (step s a))
    (exact_step : ∀ s a, I s → E s a → P s → (P (step s a) ↔ C s a)) {s : σ} (inv : I s)
    (start : P s) (expected : Guarded E step s as) :
    (∀ t ∈ trace step s as, P t) ↔ Guarded C step s as := by
  induction as generalizing s with
  | nil => simp [trace, Guarded, start]
  | cons a as ih =>
    have head : step s a ∈ trace step (step s a) as := by cases as <;> simp [trace]
    have first := exact_step s a inv expected.1 start
    have kept := keep s a inv expected.1
    simp only [trace, List.forall_mem_cons, Guarded]
    constructor
    · rintro ⟨_, rest⟩
      have next := rest _ head
      exact ⟨first.mp next, (ih kept next expected.2).mp rest⟩
    · rintro ⟨guard, rest⟩
      have next := first.mpr guard
      exact ⟨start, (ih kept next expected.2).mpr rest⟩

theorem forall_trace_iff_guarded {step : σ → ι → σ} {I P : σ → Prop}
    (keep : ∀ s a, I s → I (step s a)) (exact_step : ∀ s a, I s → P s → (P (step s a) ↔ C s a))
    {s : σ} (inv : I s) (start : P s) :
    (∀ t ∈ trace step s as, P t) ↔ Guarded C step s as :=
  forall_trace_iff_guarded_of_guarded (fun s a held _ => keep s a held)
    (fun s a held _ => exact_step s a held) inv start (guarded_true step s as)

theorem history_iff_guarded {step : σ → ι → σ} {I P : σ → Prop} {R : σ → σ → Prop}
    (transitive : ∀ s t u, R s t → R t u → R s u) (keep : ∀ s a, I s → I (step s a))
    (exact_step : ∀ s a, I s → P s → ((R s (step s a) ∧ P (step s a)) ↔ C s a)) {s : σ}
    (inv : I s) (start : P s) :
    ((trace step s as).Pairwise R ∧ ∀ t ∈ trace step s as, P t) ↔ Guarded C step s as := by
  induction as generalizing s with
  | nil => simp [trace, Guarded, start]
  | cons a as ih =>
    have head : step s a ∈ trace step (step s a) as := by cases as <;> simp [trace]
    have first := exact_step s a inv start
    have kept := keep s a inv
    constructor
    · rintro ⟨related, holds⟩
      obtain ⟨later, rest⟩ := List.pairwise_cons.mp related
      have next := holds _ (List.mem_cons_of_mem s head)
      refine ⟨first.mp ⟨later _ head, next⟩, (ih kept next).mp ⟨rest, ?_⟩⟩
      exact fun t member => holds t (List.mem_cons_of_mem s member)
    · rintro ⟨guard, guarded⟩
      obtain ⟨related, next⟩ := first.mpr guard
      obtain ⟨rest, holds⟩ := (ih kept next).mpr guarded
      refine ⟨List.pairwise_cons.mpr ⟨fun t member => ?_, rest⟩, ?_⟩
      · cases as with
        | nil =>
          rw [List.mem_singleton.mp member]
          exact related
        | cons =>
          rcases List.mem_cons.mp member with rfl | further
          · exact related
          · exact transitive _ _ _ related ((List.pairwise_cons.mp rest).1 t further)
      · exact List.forall_mem_cons.mpr ⟨start, holds⟩

theorem forall_trace_of_run {step : σ → ι → σ} {I P : σ → Prop} (keep : ∀ s a, I s → I (step s a))
    (reflect : ∀ s a, I s → P (step s a) → P s) {s : σ} (inv : I s) (last : P (run step s as)) :
    ∀ t ∈ trace step s as, P t := by
  induction as generalizing s with
  | nil =>
    intro t member
    rw [List.mem_singleton.mp member]
    exact last
  | cons a as ih =>
    have rest := ih (keep s a inv) last
    have head : step s a ∈ trace step (step s a) as := by cases as <;> simp [trace]
    intro t member
    rcases List.mem_cons.mp member with rfl | later
    · exact reflect t a inv (rest _ head)
    · exact rest t later

theorem run_simulation {τ : Type w} {κ : Type x} {step : σ → ι → σ} {low : τ → κ → τ}
    {f : σ → τ} (sim : ∀ s a, ∃ bs, f (step s a) = run low (f s) bs) (s : σ)
    (as : List ι) : ∃ bs, f (run step s as) = run low (f s) bs := by
  induction as generalizing s with
  | nil => exact ⟨[], rfl⟩
  | cons a as ih =>
    obtain ⟨first, hfirst⟩ := sim s a
    obtain ⟨rest, hrest⟩ := ih (step s a)
    refine ⟨first ++ rest, ?_⟩
    rw [run_append, ← hfirst]
    exact hrest

theorem exists_iterate_of_rank {step : σ → σ} (rank : σ → Nat) (done : σ → Prop)
    (descend : ∀ s, I s → ¬ done s → I (step s) ∧ rank (step s) < rank s) {s : σ} (inv : I s) :
    ∃ n, done (step^[n] s) ∧ I (step^[n] s) := by
  induction bound : rank s using Nat.strongRecOn generalizing s with
  | ind m ih =>
    by_cases ended : done s
    · exact ⟨0, ended, inv⟩
    · obtain ⟨kept, smaller⟩ := descend s inv ended
      obtain ⟨n, last, held⟩ := ih (rank (step s)) (bound ▸ smaller) kept rfl
      exact ⟨n + 1, last, held⟩

theorem invariant_iterate {step : σ → σ} (keep : ∀ s, I s → I (step s)) {s : σ} (inv : I s)
    (n : Nat) : I (step^[n] s) := by
  induction n generalizing s with
  | zero => exact inv
  | succ n ih => exact ih (keep s inv)

end AverQel.Foundation.Transition
