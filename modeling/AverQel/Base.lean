/- digest: Identities, times and refused calls, as every part of the service uses them. -/
import Mathlib.Data.Int.Notation

namespace AverQel

abbrev Time := Int

abbrev Uuid := Nat

/-- `datetime < cutoff` on a nullable column: a missing value never compares. -/
def before (column : Option Time) (cutoff : Time) : Bool :=
  match column with
  | none => false
  | some time => time < cutoff

@[simp] theorem before_none (cutoff : Time) : before none cutoff = false := rfl

@[simp] theorem before_some (time cutoff : Time) :
    before (some time) cutoff = true ↔ time < cutoff := by
  simp [before]

theorem not_before_of_within {start time now grace : Int} (later : start ≤ time)
    (within : now < start + grace) : before (some time) (now - grace) = false := by
  have reached : ¬ time < now - grace := by omega
  exact decide_eq_false reached

structure ApiError where
  (code message : String)
  statusCode : Nat
  deriving DecidableEq, Repr

/-- A call that may be refused. Both ways it says what it left committed; a refusal without an
`ApiError` is an error of the database. -/
abbrev Attempt (σ α : Type) := Except (σ × Option ApiError) (σ × α)

def Attempt.state {σ α : Type} : Attempt σ α → σ
  | .ok (s, _) => s
  | .error (s, _) => s

end AverQel
