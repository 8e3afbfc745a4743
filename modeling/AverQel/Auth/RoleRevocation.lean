/- digest: Histories of logins, role changes and requests, and what a token gives after its roles
   were taken away. -/
import AverQel.Auth.AuthContext
import AverQel.Foundation.Transition

namespace AverQel.Auth

open Foundation Transition

section EffectiveRoles

variable {tokenRoles dbRoles : Finset String}

theorem effectiveRoles_subset (granted : tokenRoles = ∅ ∨ (tokenRoles ∩ dbRoles).Nonempty) :
    effectiveRoles tokenRoles dbRoles ⊆ dbRoles := by
  rcases granted with none_named | shared
  · simp [effectiveRoles, none_named]
  · have some_named : tokenRoles ≠ ∅ := by
      rintro rfl
      simp at shared
    simp [effectiveRoles, some_named, shared.ne_empty]

theorem effectiveRoles_of_disjoint (some_named : tokenRoles ≠ ∅)
    (disjoint : tokenRoles ∩ dbRoles = ∅) : effectiveRoles tokenRoles dbRoles = tokenRoles := by
  simp [effectiveRoles, some_named, disjoint]

def StillGranted (lower : Lower) (tokenRoles dbRoles : Finset String) : Prop :=
  tokenRoles = ∅ ∨ (tokenRoles ∩ dbRoles).Nonempty ∨
    resolvePermissions lower tokenRoles ∅ ⊆ resolvePermissions lower dbRoles ∅

theorem permissions_subset_iff (lower : Lower) :
    resolvePermissions lower (effectiveRoles tokenRoles dbRoles) ∅ ⊆
      resolvePermissions lower dbRoles ∅ ↔ StillGranted lower tokenRoles dbRoles := by
  constructor
  · intro covered
    by_cases none_named : tokenRoles = ∅
    · exact .inl none_named
    by_cases disjoint : tokenRoles ∩ dbRoles = ∅
    · rw [effectiveRoles_of_disjoint none_named disjoint] at covered
      exact .inr (.inr covered)
    · exact .inr (.inl (Finset.nonempty_iff_ne_empty.mpr disjoint))
  · rintro (none_named | shared | covered)
    · exact resolvePermissions_mono lower (effectiveRoles_subset (.inl none_named)) ∅
    · exact resolvePermissions_mono lower (effectiveRoles_subset (.inr shared)) ∅
    · by_cases granted : tokenRoles = ∅ ∨ (tokenRoles ∩ dbRoles).Nonempty
      · exact resolvePermissions_mono lower (effectiveRoles_subset granted) ∅
      · obtain ⟨some_named, disjoint⟩ := not_or.mp granted
        rw [effectiveRoles_of_disjoint some_named (Finset.not_nonempty_iff_eq_empty.mp disjoint)]
        exact covered

end EffectiveRoles

section Requests

variable {env : AuthEnvironment} {s : Accounts} {claims : AccessClaims}
  {xTenantId : Option String} {cached : Bool} {now : Time} {context : AuthContext}

theorem permissions_of_getAuthContext
    (accepted : s.getAuthContext env claims xTenantId cached now = .ok context) :
    context.permissions = resolvePermissions env.lower
      (effectiveRoles (canonicalizeRoleNames env.lower claims.roles)
        (s.liveRoleNames env claims.tenantId claims.sub)) ∅ := by
  unfold Accounts.getAuthContext at accepted
  obtain ⟨_, _, built⟩ := bind_eq_ok_iff.mp accepted
  simp only [Accounts.buildAuthContextFromJwt, bind_eq_ok_iff] at built
  obtain ⟨_, _, _, _, _, _, _, _, _, _, session, _, result⟩ := built
  cases result
  rfl

end Requests

structure Decision where
  (permissions heldRoles : Finset String)

structure History where
  accounts : Accounts
  decisions : List Decision

inductive AuthStep where
  | login (tenantId : Option Uuid) (email password : String) (fresh : Fresh) (now : Time)
  | completeExternalLogin (tenantId userId : Uuid) (fresh : Fresh) (now : Time)
  | verifyTotpLogin (pending : PendingClaims) (code : String) (fresh : Fresh) (now : Time)
  | refresh (rawRefreshToken : String) (fresh : Fresh) (now : Time)
  | replaceUserRoles (tenantId userId : Uuid) (roleName : String)
  | logoutAll (tenantId userId : Uuid) (tokenId : String) (now : Time)
  | request (claims : AccessClaims) (xTenantId : Option String) (cached : Bool) (now : Time)

namespace History

variable (env : AuthEnvironment)

def start (accounts : Accounts) : History := ⟨accounts, []⟩

def step (h : History) : AuthStep → History
  | .login tenantId email password fresh now =>
    { h with accounts := (h.accounts.login env tenantId email password fresh now).state }
  | .completeExternalLogin tenantId userId fresh now =>
    { h with accounts := (h.accounts.completeExternalLogin env tenantId userId fresh now).state }
  | .verifyTotpLogin pending code fresh now =>
    { h with accounts := (h.accounts.verifyTotpLogin env pending code fresh now).state }
  | .refresh rawRefreshToken fresh now =>
    { h with accounts := (h.accounts.refresh env rawRefreshToken fresh now).state }
  | .replaceUserRoles tenantId userId roleName =>
    { h with accounts := (h.accounts.replaceUserRoles env tenantId userId roleName).state }
  | .logoutAll tenantId userId tokenId now =>
    { h with accounts := (h.accounts.logoutAll env tenantId userId tokenId now).state }
  | .request claims xTenantId cached now =>
    match h.accounts.getAuthContext env claims xTenantId cached now with
    | .error _ => h
    | .ok context =>
      { h with decisions :=
          ⟨context.permissions, h.accounts.liveRoleNames env claims.tenantId claims.sub⟩ ::
            h.decisions }

def NothingRevokedGiven (h : History) : Prop :=
  ∀ decision ∈ h.decisions,
    decision.permissions ⊆ resolvePermissions env.lower decision.heldRoles ∅

instance (h : History) : Decidable (NothingRevokedGiven env h) :=
  inferInstanceAs (Decidable (∀ decision ∈ h.decisions, _))

def TokenStillGranted (h : History) : AuthStep → Prop
  | .request claims xTenantId cached now =>
    (h.accounts.getAuthContext env claims xTenantId cached now).toBool = true →
      StillGranted env.lower (canonicalizeRoleNames env.lower claims.roles)
        (h.accounts.liveRoleNames env claims.tenantId claims.sub)
  | _ => True

theorem nothingRevokedGiven_step_iff (h : History) (a : AuthStep)
    (held : NothingRevokedGiven env h) :
    NothingRevokedGiven env (step env h a) ↔ TokenStillGranted env h a := by
  cases a with
  | request claims xTenantId cached now =>
    simp only [step, TokenStillGranted]
    cases accepted : h.accounts.getAuthContext env claims xTenantId cached now with
    | error => simp [Except.toBool, held]
    | ok =>
      have given := permissions_of_getAuthContext accepted
      simp only [NothingRevokedGiven, List.forall_mem_cons, given, permissions_subset_iff,
        Except.toBool, true_implies]
      exact and_iff_left held
  | _ => exact iff_of_true held trivial

/-- Revoked roles give nothing in a history exactly when every accepted token names no role, a
role that its user still holds, or roles whose permissions the held roles cover. -/
theorem nothing_revoked_given_iff (accounts : Accounts) (steps : List AuthStep) :
    (∀ h ∈ trace (step env) (start accounts) steps, NothingRevokedGiven env h) ↔
      Guarded (TokenStillGranted env) (step env) (start accounts) steps := by
  refine forall_trace_iff_guarded (I := fun _ => True) (fun _ _ _ => trivial) ?_ trivial ?_
  · intro h a _ held
    exact nothingRevokedGiven_step_iff env h a held
  · intro decision member
    exact absurd member List.not_mem_nil

def plainEnvironment : AuthEnvironment where
  settings := ⟨15, 7, 5, 15, []⟩
  lower name := String.ofList (name.toList.map Char.toLower)
  parseUuid _ := none
  verifyPassword password hash := password == hash
  verifyTotp _ _ _ := false
  hashBackupCode code := code
  hashRefreshToken token := token

/-- User 1 of tenant 1 is an administrator. -/
def adminAccounts : Accounts where
  tenants := [1]
  users := ⟨[⟨1, 1, "ann@corp", "pw", true, 0, none, none, 0, none, false, []⟩], by decide⟩
  roles := ⟨[⟨1, "admin"⟩, ⟨2, "user"⟩], by decide⟩
  userRoles := [⟨1, 1, 1⟩]
  sessions := .empty
  refreshTokens := .empty
  revokedAccessTokens := []
  signedTokens := []
  pendingTokens := []

def demotedAdminSteps : List AuthStep :=
  [.login none "ann@corp" "pw" ⟨5, 6, "t1", 7, "1.secret"⟩ 0,
    .replaceUserRoles 1 1 "user",
    .request ⟨1, 1, {"admin"}, "t1", 0, 0, 900, some 5⟩ none false (minutes 1)]

/-- The demoted administrator still passes for one. -/
theorem demoted_admin_keeps_permissions :
    ¬ ∀ h ∈ trace (step plainEnvironment) (start adminAccounts) demotedAdminSteps,
      NothingRevokedGiven plainEnvironment h := by
  decide +kernel

end History

end AverQel.Auth
