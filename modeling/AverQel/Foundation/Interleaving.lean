/- digest: Calls that take their steps in turn on one shared state, and the locks they hold. -/
import Mathlib.Logic.Relation
import AverQel.Foundation.Transition

namespace AverQel.Foundation.Interleaving

universe u v w
variable {σ : Type u} {π : Type v} {ι : Type w}

structure CallSystem (σ : Type u) (π : Type v) where
  shared : σ
  calls : List π

variable (excludes : π → π → Bool) (next : ι → σ → π → σ × π)

def CallSystem.blocked (s : CallSystem σ π) (i : Nat) (point : π) : Bool :=
  s.calls.zipIdx.any (fun other => other.2 ≠ i && excludes other.1 point)

/-- Call `i` takes its next step, unless another call excludes the point it would reach. -/
def advance (s : CallSystem σ π) (turn : Nat × ι) : CallSystem σ π :=
  match s.calls[turn.1]? with
  | none => s
  | some point =>
    if s.blocked excludes turn.1 (next turn.2 s.shared point).2 then s
    else
      { shared := (next turn.2 s.shared point).1
        calls := s.calls.set turn.1 (next turn.2 s.shared point).2 }

def CallSystem.Exclusive (s : CallSystem σ π) : Prop :=
  ∀ (i j : Nat) (p q : π), i ≠ j → s.calls[i]? = some p → s.calls[j]? = some q →
    excludes p q = false

variable {calls : List π}

theorem getElem?_set_iff {i j : Nat} {point new other : π} (here : calls[i]? = some point) :
    (calls.set i new)[j]? = some other ↔ (j = i ∧ other = new) ∨ (j ≠ i ∧ calls[j]? = some other) := by
  have inside : i < calls.length := (List.getElem?_eq_some_iff.mp here).1
  rw [List.getElem?_set]
  by_cases same : i = j
  · simp [← same, inside, eq_comm]
  · simp [same, Ne.symm same]

theorem countP_set_add {i : Nat} {old : π} (new : π) (p : π → Bool) (here : calls[i]? = some old) :
    (calls.set i new).countP p + (p old).toNat = calls.countP p + (p new).toNat := by
  obtain ⟨inside, value⟩ := List.getElem?_eq_some_iff.mp here
  have bound : (if p old then 1 else 0) ≤ calls.countP p := by
    rw [← value]
    exact List.boole_getElem_le_countP inside
  have asBit : ∀ bit : Bool, bit.toNat = if bit then 1 else 0 := by
    intro bit
    cases bit <;> rfl
  rw [List.countP_set inside, value, asBit, asBit]
  omega

theorem CallSystem.not_excluded {excludes : π → π → Bool} {s : CallSystem σ π} {i j : Nat} {point other : π}
    (free : s.blocked excludes i point = false) (here : s.calls[j]? = some other) (distinct : j ≠ i) :
    excludes other point = false := by
  have indexed : (other, j) ∈ s.calls.zipIdx := List.mem_zipIdx_iff_getElem?.mpr here
  have all := List.any_eq_false.mp free (other, j) indexed
  simpa [distinct] using all

theorem advance_of_none {s : CallSystem σ π} {turn : Nat × ι} (absent : s.calls[turn.1]? = none) :
    advance excludes next s turn = s := by
  simp only [advance, absent]

theorem advance_of_free {s : CallSystem σ π} {turn : Nat × ι} {point : π}
    (here : s.calls[turn.1]? = some point)
    (free : s.blocked excludes turn.1 (next turn.2 s.shared point).2 = false) :
    advance excludes next s turn =
      ⟨(next turn.2 s.shared point).1, s.calls.set turn.1 (next turn.2 s.shared point).2⟩ := by
  simp only [advance, here, free, Bool.false_eq_true, if_false]

theorem advance_cases (s : CallSystem σ π) (turn : Nat × ι) :
    advance excludes next s turn = s ∨
      ∃ point, s.calls[turn.1]? = some point ∧
        s.blocked excludes turn.1 (next turn.2 s.shared point).2 = false ∧
        advance excludes next s turn =
          ⟨(next turn.2 s.shared point).1, s.calls.set turn.1 (next turn.2 s.shared point).2⟩ := by
  cases here : s.calls[turn.1]? with
  | none => exact .inl (advance_of_none excludes next here)
  | some point =>
    cases free : s.blocked excludes turn.1 (next turn.2 s.shared point).2 with
    | true =>
      left
      simp only [advance, here, free, if_true]
    | false => exact .inr ⟨point, rfl, free, advance_of_free excludes next here free⟩

theorem advance_of_stays {s : CallSystem σ π} {turn : Nat × ι} {point : π}
    (here : s.calls[turn.1]? = some point) (stays : next turn.2 s.shared point = (s.shared, point)) :
    advance excludes next s turn = s := by
  obtain ⟨inside, value⟩ := List.getElem?_eq_some_iff.mp here
  have kept : s.calls.set turn.1 point = s.calls := by
    rw [← value]
    exact List.set_getElem_self inside
  simp only [advance, here, stays, kept]
  split <;> rfl

theorem length_calls_advance (s : CallSystem σ π) (turn : Nat × ι) :
    (advance excludes next s turn).calls.length = s.calls.length := by
  rcases advance_cases excludes next s turn with same | ⟨_, _, _, moved⟩
  · rw [same]
  · rw [moved, List.length_set]

theorem exclusive_advance (symm : ∀ p q, excludes p q = excludes q p) {s : CallSystem σ π}
    (exclusive : s.Exclusive excludes) (turn : Nat × ι) :
    (advance excludes next s turn).Exclusive excludes := by
  rcases advance_cases excludes next s turn with same | ⟨point, here, free, moved⟩
  · rw [same]
    exact exclusive
  · rw [moved]
    intro i j p q distinct atI atJ
    rcases (getElem?_set_iff here).mp atI with ⟨mine, rfl⟩ | ⟨notMine, oldI⟩
    · rcases (getElem?_set_iff here).mp atJ with ⟨alsoMine, _⟩ | ⟨_, oldJ⟩
      · exact absurd (mine.trans alsoMine.symm) distinct
      · rw [symm]
        exact CallSystem.not_excluded free oldJ (fun same => distinct (mine.trans same.symm))
    · rcases (getElem?_set_iff here).mp atJ with ⟨mine, rfl⟩ | ⟨_, oldJ⟩
      · exact CallSystem.not_excluded free oldI notMine
      · exact exclusive i j p q distinct oldI oldJ

theorem blocked_of_lockFree (s : CallSystem σ π) (i : Nat) (point : π) :
    s.blocked (fun _ _ => false) i point = false := by
  simp [CallSystem.blocked]

variable {α : Type w} {outcome : π → Option α}

theorem filterMap_set_of_same {i : Nat} {point new : π} (here : calls[i]? = some point)
    (same : outcome new = outcome point) :
    (calls.set i new).filterMap outcome = calls.filterMap outcome := by
  induction calls generalizing i with
  | nil => rfl
  | cons head rest ih =>
    cases i with
    | zero =>
      cases here
      rw [List.set_cons_zero, List.filterMap_cons, List.filterMap_cons, same]
    | succ =>
      rw [List.set_cons_succ, List.filterMap_cons, List.filterMap_cons, ih here]

theorem filterMap_set_of_first {i : Nat} {point new : π} {value : α}
    (here : calls[i]? = some point) (none_yet : calls.filterMap outcome = [])
    (first : outcome new = some value) : (calls.set i new).filterMap outcome = [value] := by
  induction calls generalizing i with
  | nil => cases here
  | cons head rest ih =>
    have nothing := List.filterMap_eq_nil_iff.mp none_yet
    have others : rest.filterMap outcome = [] :=
      List.filterMap_eq_nil_iff.mpr fun p member => nothing p (List.mem_cons_of_mem head member)
    cases i with
    | zero => rw [List.set_cons_zero, List.filterMap_cons, first, others]
    | succ =>
      have headNone := nothing head List.mem_cons_self
      rw [List.set_cons_succ, List.filterMap_cons, headNone]
      exact ih here others

theorem index_of_singleton {value : α} (one : calls.filterMap outcome = [value]) {i j : Nat}
    {p q : π} (atI : calls[i]? = some p) (atJ : calls[j]? = some q) (hasI : (outcome p).isSome)
    (hasJ : (outcome q).isSome) : i = j := by
  induction calls generalizing i j with
  | nil => cases one
  | cons head rest ih =>
    have ended_of (others : rest.filterMap outcome = []) {k : Nat} {r : π}
        (atK : rest[k]? = some r) (hasK : (outcome r).isSome) : False := by
      rw [List.filterMap_eq_nil_iff.mp others r (List.mem_of_getElem? atK)] at hasK
      cases hasK
    rw [List.filterMap_cons] at one
    cases own : outcome head with
    | none =>
      rw [own] at one
      cases i with
      | zero =>
        cases atI
        rw [own] at hasI
        cases hasI
      | succ =>
        cases j with
        | zero =>
          cases atJ
          rw [own] at hasJ
          cases hasJ
        | succ => rw [ih one atI atJ]
    | some =>
      rw [own] at one
      have others : rest.filterMap outcome = [] := (List.cons.inj one).2
      cases i with
      | succ => exact (ended_of others atI hasI).elim
      | zero =>
        cases j with
        | succ => exact (ended_of others atJ hasJ).elim
        | zero => rfl

structure Paired (S : σ → σ → Prop) (R : π → π → Prop) (s s' : CallSystem σ π) : Prop where
  shared : S s.shared s'.shared
  calls : List.Forall₂ R s.calls s'.calls

variable {R : π → π → Prop}

theorem forall₂_getElem? {calls calls' : List π} (related : List.Forall₂ R calls calls') (i : Nat) :
    (calls[i]? = none ∧ calls'[i]? = none) ∨
      ∃ point point', calls[i]? = some point ∧ calls'[i]? = some point' ∧ R point point' := by
  induction related generalizing i with
  | nil => exact .inl ⟨rfl, rfl⟩
  | cons head _ ih =>
    cases i with
    | zero => exact .inr ⟨_, _, rfl, rfl, head⟩
    | succ i => exact ih i

theorem forall₂_set {calls calls' : List π} (related : List.Forall₂ R calls calls') (i : Nat)
    {point point' : π} (new : R point point') :
    List.Forall₂ R (calls.set i point) (calls'.set i point') := by
  induction related generalizing i with
  | nil => exact .nil
  | cons head tail ih =>
    cases i with
    | zero => exact .cons new tail
    | succ i => exact .cons head (ih i)

theorem paired_advance {S : σ → σ → Prop} {s s' : CallSystem σ π} (paired : Paired S R s s')
    (turn : Nat × ι)
    (kept : ∀ point point', s.calls[turn.1]? = some point → s'.calls[turn.1]? = some point' →
      R point point' → S (next turn.2 s.shared point).1 (next turn.2 s'.shared point').1 ∧
        R (next turn.2 s.shared point).2 (next turn.2 s'.shared point').2) :
    Paired S R (advance (fun _ _ => false) next s turn) (advance (fun _ _ => false) next s' turn) := by
  rcases forall₂_getElem? paired.calls turn.1 with ⟨gone, gone'⟩ | ⟨point, point', here, here', related⟩
  · rw [advance_of_none _ next gone, advance_of_none _ next gone']
    exact paired
  · rw [advance_of_free _ next here (blocked_of_lockFree s turn.1 _),
      advance_of_free _ next here' (blocked_of_lockFree s' turn.1 _)]
    obtain ⟨shared, after⟩ := kept point point' here here' related
    exact ⟨shared, forall₂_set paired.calls turn.1 after⟩

end AverQel.Foundation.Interleaving
