/- digest: When the tabs of a browser refresh a token once, and what a waiting tab goes on with. -/
import AverQel.Foundation.Transition
import AverQel.Frontend.SessionTabs

namespace AverQel.Frontend.Session

open Foundation

universe u
variable {κ : Type u} [DecidableEq κ] (expiry : κ → Option Time)

namespace Browser

def Alone (s : Browser κ) : Prop :=
  ∀ tab other replaces replaces',
    (s.tabs tab).refreshPromise = some (.inFlight replaces) →
    (s.tabs other).refreshPromise = some (.inFlight replaces') → tab = other

def Renewed (s : Browser κ) : Prop :=
  ∀ tab caller token result, .resumed caller (some token) result ∈ (s.tabs tab).calls →
    result ≠ some token

/-- A turn that ends the invalidated state of a tab is a successful refresh or a login: its own, or
one of another tab, whose token a storage event brings. -/
def Licensed (s : Browser κ) (turn : Turn κ) : Prop :=
  ∀ tab, (s.tabs tab).authSessionInvalidated = true →
    ((s.step expiry turn).tabs tab).authSessionInvalidated = false →
    match turn with
    | .answers owner token => owner = tab ∧ token.isSome
    | .logsIn owner _ => owner = tab
    | .notified owner => owner = tab ∧ ∃ token notes, (s.tabs tab).notes = some token :: notes ∧
        token ∈ s.granted
    | _ => False

structure OneRefresh (s : Browser κ) (turns : List (Turn κ)) : Prop where
  alone : ∀ t ∈ Transition.trace (Browser.step expiry) s turns, t.Alone
  renewed : ∀ t ∈ Transition.trace (Browser.step expiry) s turns, t.Renewed
  licensed : Transition.Guarded (Licensed expiry) (Browser.step expiry) s turns

/-- An expired lock is taken from no tab that is still refreshing, the lock is written as it was
read, and a wait does not begin by finding the replaced token fresh. -/
def CarefulOperation (s : Browser κ) (tab : Nat) : Activity κ → Prop
  | .asking _ => (s.tabs tab).refreshPromise.isNone → s.lock.all fun lock =>
      lock.expiresAt ≤ s.now → (s.tabs lock.owner).refreshPromise.isNone
  | .clearing _ seen => s.lock = none ∨ s.lock = some seen
  | .writing _ seen => s.lock = seen
  | .checking _ _ replaced => replaced.isSome → s.token = replaced →
      shouldRefreshAccessToken expiry s.now replaced = true
  | _ => True

def CarefulTimeout (s : Browser κ) : Option (Point κ) → Prop
  | some (.waiting _ owner replaced _) => replaced.isSome →
      (s.tabs owner).refreshPromise ≠ some (.inFlight replaced)
  | _ => True

def Careful (s : Browser κ) : Turn κ → Prop
  | .proceeds tab => CarefulOperation expiry s tab (s.tabs tab).activity
  | .timesOut tab call => CarefulTimeout s (s.tabs tab).calls[call]?
  | .answers _ (some token) | .logsIn _ token => token ∉ s.granted
  | _ => True

instance (s : Browser κ) (tab : Nat) : ∀ activity, Decidable (CarefulOperation expiry s tab activity)
  | .asking _ => inferInstanceAs (Decidable (_ → _))
  | .clearing _ _ => inferInstanceAs (Decidable (_ ∨ _))
  | .writing _ _ => inferInstanceAs (Decidable (_ = _))
  | .checking _ _ _ => inferInstanceAs (Decidable (_ → _ → _))
  | .idle | .announcing _ | .releasing _ | .removing _ _ | .discarding _ _ => .isTrue trivial

instance (s : Browser κ) : ∀ point, Decidable (CarefulTimeout s point)
  | some (.waiting _ _ _ _) => inferInstanceAs (Decidable (_ → _))
  | none | some (.asking _) | some (.joined _) | some (.resumed _ _ _) | some (.sent _ _)
  | some (.delaying _) | some (.ended _) => .isTrue trivial

instance (s : Browser κ) : ∀ turn, Decidable (Careful expiry s turn)
  | .proceeds .. | .timesOut .. | .answers _ (some _) | .logsIn .. =>
    by dsimp only [Careful]; infer_instance
  | .answers _ none | .passes _ | .fetches .. | .refreshes _ | .hears .. | .resumes ..
  | .responds .. | .retries .. | .notified _ | .logsOut _ => .isTrue trivial

end Browser

end AverQel.Frontend.Session
