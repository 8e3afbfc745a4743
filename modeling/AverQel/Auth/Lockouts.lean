/- digest: Which logins open a session, and what resets the failed attempts of a user. -/
import AverQel.Auth.Accounts
import AverQel.Foundation.Transition

namespace AverQel.Auth

open Foundation Transition

namespace Accounts

variable (env : AuthEnvironment) (s : Accounts)

/-- `_guard_target_user` -/
def guardTargetUser (tenantId targetUserId actorId : Uuid) (allowSelf : Bool) :
    Except ApiError User :=
  match s.getUserById tenantId targetUserId with
  | none => .error ⟨"USER_NOT_FOUND", "User not found.", 404⟩
  | some user =>
    if allowSelf = false ∧ user.id = actorId then
      .error ⟨"FORBIDDEN", "This action is not allowed on your own account.", 403⟩
    else if isPlatformAdminEmail env.lower user.email env.settings.bootstrapSuperAdminEmails then
      .error ⟨"FORBIDDEN", "Bootstrap admin account cannot be modified here.", 403⟩
    else .ok user

def disableUser (tenantId targetUserId actorId : Uuid) (now : Time) : Attempt Accounts Unit :=
  match s.guardTargetUser env tenantId targetUserId actorId false with
  | .error error => .error (s, some error)
  | .ok user =>
    let disabled := s.modifyUser user.id (fun row =>
      { row with isActive := false, accessTokenVersion := row.accessTokenVersion + 1 })
      (fun _ => rfl)
    .ok (disabled.revokeAllForUser tenantId user.id now "disabled_by_admin", ())

def reactivateUser (tenantId targetUserId actorId : Uuid) : Attempt Accounts Unit :=
  match s.guardTargetUser env tenantId targetUserId actorId true with
  | .error error => .error (s, some error)
  | .ok user =>
    .ok (s.modifyUser user.id (fun row =>
      { row with isActive := true, failedLoginAttempts := 0, lockedUntil := none })
      (fun _ => rfl), ())

end Accounts

inductive SignInStep where
  | login (tenantId : Option Uuid) (email password : String) (fresh : Fresh) (now : Time)
  | completeExternalLogin (tenantId userId : Uuid) (fresh : Fresh) (now : Time)
  | verifyTotpLogin (pending : PendingClaims) (code : String) (fresh : Fresh) (now : Time)
  | disableUser (tenantId targetUserId actorId : Uuid) (now : Time)
  | reactivateUser (tenantId targetUserId actorId : Uuid) (now : Time)

namespace SignInStep

def now : SignInStep → Time
  | login _ _ _ _ now | completeExternalLogin _ _ _ now | verifyTotpLogin _ _ _ now
  | disableUser _ _ _ now | reactivateUser _ _ _ now => now

def reactivates : SignInStep → Option Uuid
  | reactivateUser _ targetUserId _ _ => some targetUserId
  | _ => none

end SignInStep

namespace User

/-- `locked_until` is null or at most `now`. -/
def Unlocked (user : User) (now : Time) : Prop := ∀ limit ∈ user.lockedUntil, limit ≤ now

def ResetTo (user user' : User) : Prop :=
  user'.failedLoginAttempts < user.failedLoginAttempts ∨
    (user.lockedUntil ≠ none ∧ user'.lockedUntil = none)

instance (user : User) (now : Time) : Decidable (user.Unlocked now) :=
  inferInstanceAs (Decidable (∀ limit ∈ user.lockedUntil, _))

instance (user user' : User) : Decidable (user.ResetTo user') :=
  inferInstanceAs (Decidable (_ ∨ _))

theorem not_resetTo_self (user : User) : ¬ user.ResetTo user := by
  rintro (less | ⟨locked, gone⟩)
  · omega
  · exact locked gone

end User

namespace SignIn

variable (env : AuthEnvironment)

def step (s : Accounts) : SignInStep → Accounts
  | .login tenantId email password fresh now =>
    (s.login env tenantId email password fresh now).state
  | .completeExternalLogin tenantId userId fresh now =>
    (s.completeExternalLogin env tenantId userId fresh now).state
  | .verifyTotpLogin pending code fresh now => (s.verifyTotpLogin env pending code fresh now).state
  | .disableUser tenantId targetUserId actorId now =>
    (s.disableUser env tenantId targetUserId actorId now).state
  | .reactivateUser tenantId targetUserId actorId _ =>
    (s.reactivateUser env tenantId targetUserId actorId).state

def Opened (s s' : Accounts) (userId : Uuid) : Prop :=
  ∃ session ∈ s'.sessions.rows, session.userId = userId ∧
    session.id ∉ s.sessions.rows.map AuthSession.id

def Admissible (s : Accounts) (now : Time) (userId : Uuid) : Prop :=
  ∃ user ∈ s.users.rows, user.id = userId ∧ user.isActive = true ∧ user.Unlocked now

structure Lawful (s : Accounts) (a : SignInStep) : Prop where
  opened : ∀ userId, Opened s (step env s a) userId → Admissible s a.now userId
  resets : ∀ user ∈ s.users.rows, ∀ user' ∈ (step env s a).users.rows, user'.id = user.id →
    user.ResetTo user' → a.reactivates = some user.id ∨ Opened s (step env s a) user.id

/-- A second factor that is about to be accepted belongs to a user who is not locked. -/
def FactorUnlocked (s : Accounts) : SignInStep → Prop
  | .verifyTotpLogin pending code fresh now =>
    pending ∈ s.pendingTokens → now < pending.exp * 1000000 →
      ∀ user ∈ s.getUserById pending.tenantId pending.sub, user.isActive = true →
        user.totpEnabled = true → ∀ secret ∈ Text.nonempty user.totpSecret,
          (s.secondFactor env user secret code now).isSome →
            s.getRoleNamesForUser env pending.tenantId user.id ≠ ∅ →
              fresh.sessionId ∉ s.sessions.rows.map AuthSession.id →
                fresh.refreshTokenId ∉ s.refreshTokens.rows.map RefreshToken.id →
                  user.Unlocked now
  | _ => True

structure Quiet (s s' : Accounts) : Prop where
  sessions : s'.sessions.rows.map AuthSession.id = s.sessions.rows.map AuthSession.id
  users : ∀ user' ∈ s'.users.rows, ∃ user ∈ s.users.rows, user.id = user'.id ∧ ¬ user.ResetTo user'

variable {env} {s s' s'' : Accounts}

theorem quiet_of_same (users : s'.users = s.users) (sessions : s'.sessions = s.sessions) :
    Quiet s s' where
  sessions := by rw [sessions]
  users user member := ⟨user, users ▸ member, rfl, User.not_resetTo_self user⟩

theorem quiet_modifyUser {userId : Uuid} {f : User → User} {kept : ∀ user, (f user).id = user.id}
    (mild : ∀ user : User, ¬ user.ResetTo (f user)) : Quiet s (s.modifyUser userId f kept) where
  sessions := rfl
  users user' member := by
    obtain ⟨user, old, written⟩ := Accounts.mem_modifyUser.mp member
    refine ⟨user, old, ?_⟩
    rw [← written]
    split
    · exact ⟨(kept user).symm, mild user⟩
    · exact ⟨rfl, user.not_resetTo_self⟩

theorem quiet_registerFailedLogin (userId : Uuid) (now : Time) :
    Quiet s (s.registerFailedLogin env userId now) := by
  refine quiet_modifyUser fun user => ?_
  rintro (less | ⟨locked, gone⟩)
  · dsimp only at less
    omega
  · dsimp only at gone
    split at gone
    · cases gone
    · exact locked gone

theorem not_opened_of_quiet (quiet : Quiet s s') (userId : Uuid) : ¬ Opened s s' userId := by
  rintro ⟨session, member, _, new⟩
  rw [← quiet.sessions] at new
  exact new (List.mem_map_of_mem member)

theorem lawful_of_quiet {a : SignInStep} (quiet : Quiet s (step env s a)) : Lawful env s a where
  opened userId opened := absurd opened (not_opened_of_quiet quiet userId)
  resets user member user' member' same reset := by
    obtain ⟨before, old, id, mild⟩ := quiet.users user' member'
    obtain rfl := s.users.eq_of_key_eq old member (id.trans same)
    exact absurd reset mild

structure OpensFor (env : AuthEnvironment) (s s' : Accounts) (user : User) : Prop where
  mid : ∃ (mid : Accounts) (tenantId : Uuid) (roles : Finset String) (mfaVerified : Bool)
    (fresh : Fresh) (now : Time) (result : LoginResult), Quiet s mid ∧ mid.sessions = s.sessions ∧
      mid.openSession env user tenantId roles mfaVerified fresh now = .ok (s', result)

theorem opened_of_opensFor {user : User} (opens : OpensFor env s s' user) :
    (∀ userId, Opened s s' userId ↔ userId = user.id) ∧
      ∀ row' ∈ s'.users.rows, ∃ row ∈ s.users.rows, row.id = row'.id ∧
        (row.id ≠ user.id → ¬ row.ResetTo row') := by
  obtain ⟨mid, tenantId, roles, mfaVerified, fresh, now, result, quiet, same, opened⟩ := opens.mid
  obtain ⟨users, _, _, session, owner, rows⟩ := Accounts.openSession_eq_ok opened
  have new : session.id ∉ s.sessions.rows.map AuthSession.id := by
    have distinct := s'.sessions.keys_nodup
    rw [rows, List.map_append, same] at distinct
    exact fun member =>
      (List.nodup_append.mp distinct).2.2 _ member _ (List.mem_singleton_self _) rfl
  refine ⟨?_, ?_⟩
  · intro userId
    constructor
    · rintro ⟨other, member, rfl, fresh_⟩
      rw [rows] at member
      rcases List.mem_append.mp member with old | new_
      · rw [same] at old
        exact absurd (List.mem_map_of_mem old) fresh_
      · rw [List.mem_singleton.mp new_, owner]
    · rintro rfl
      exact ⟨session, by rw [rows]; exact List.mem_append_right _ (List.mem_singleton_self _),
        owner, new⟩
  · intro row' member
    rw [users] at member
    obtain ⟨between, inMid, written⟩ := Accounts.mem_registerSuccessfulLogin.mp member
    obtain ⟨row, old, id, mild⟩ := quiet.users between inMid
    refine ⟨row, old, ?_⟩
    rw [← written]
    split
    · rename_i own
      exact ⟨id, fun other => absurd (id.trans own) other⟩
    · exact ⟨id, fun _ => mild⟩

theorem lawful_iff_of_opensFor {a : SignInStep} {user : User}
    (opens : OpensFor env s (step env s a) user) :
    Lawful env s a ↔ Admissible s a.now user.id := by
  obtain ⟨opened, users⟩ := opened_of_opensFor opens
  constructor
  · intro lawful
    exact lawful.opened user.id ((opened user.id).mpr rfl)
  · intro admissible
    refine ⟨?_, ?_⟩
    · intro userId isOpened
      rw [(opened userId).mp isOpened]
      exact admissible
    · intro row member row' member' same reset
      obtain ⟨before, old, id, mild⟩ := users row' member'
      obtain rfl := s.users.eq_of_key_eq old member (id.trans same)
      refine .inr ((opened before.id).mpr ?_)
      by_contra other
      exact mild other reset

theorem openSession_cases {mid : Accounts} (quiet : Quiet s mid) (same : mid.sessions = s.sessions)
    (user : User) (tenantId : Uuid) (roles : Finset String) (mfaVerified : Bool) (fresh : Fresh)
    (now : Time) :
    Quiet s (mid.openSession env user tenantId roles mfaVerified fresh now).state ∨
      OpensFor env s (mid.openSession env user tenantId roles mfaVerified fresh now).state user := by
  cases opened : mid.openSession env user tenantId roles mfaVerified fresh now with
  | error refused =>
    obtain ⟨after, error⟩ := refused
    obtain ⟨rfl, _⟩ := Accounts.openSession_error opened
    exact .inl quiet
  | ok accepted =>
    obtain ⟨after, result⟩ := accepted
    exact .inr ⟨mid, tenantId, roles, mfaVerified, fresh, now, result, quiet, same, opened⟩

theorem same_of_ensureBootstrapAdminRole {user : User} :
    (s.ensureBootstrapAdminRole env user).state.users = s.users ∧
      (s.ensureBootstrapAdminRole env user).state.sessions = s.sessions := by
  unfold Accounts.ensureBootstrapAdminRole
  repeat' split
  all_goals exact ⟨rfl, rfl⟩

variable {mid : Accounts}

theorem continueLogin_cases (users : mid.users = s.users) (sessions : mid.sessions = s.sessions)
    (user : User) (tenantId : Uuid) (fresh : Fresh) (now : Time) :
    Quiet s (mid.continueLogin env user tenantId fresh now).state ∨
      OpensFor env s (mid.continueLogin env user tenantId fresh now).state user := by
  have quiet := quiet_of_same users sessions
  unfold Accounts.continueLogin
  dsimp only
  split
  · exact .inl quiet
  split
  · exact .inl (quiet_of_same users sessions)
  · exact openSession_cases quiet sessions user tenantId _ false fresh now

/-- What `_ensure_user_can_authenticate` lets through. -/
theorem ensureUserCanAuthenticate_eq_none_iff {user : User} {now : Time} :
    Accounts.ensureUserCanAuthenticate user now = none ↔
      user.isActive = true ∧ user.Unlocked now := by
  unfold Accounts.ensureUserCanAuthenticate User.Unlocked
  cases user.lockedUntil with
  | none | some => cases user.isActive <;> simp

/-- `login` and `complete_external_login` ask `_ensure_user_can_authenticate` first. -/
theorem lawful_of_checked {a : SignInStep} {user : User} (users : mid.users = s.users)
    (sessions : mid.sessions = s.sessions) (stored : user ∈ s.users.rows)
    (allowed : Accounts.ensureUserCanAuthenticate user a.now = none) {tenantId : Uuid}
    {fresh : Fresh}
    (after : step env s a = (mid.continueLogin env user tenantId fresh a.now).state) :
    Lawful env s a := by
  obtain ⟨active, unlocked⟩ := ensureUserCanAuthenticate_eq_none_iff.mp allowed
  rcases (continueLogin_cases users sessions user tenantId fresh a.now :
      Quiet s (mid.continueLogin env user tenantId fresh a.now).state ∨ _) with quiet | opens
  · exact lawful_of_quiet (after ▸ quiet)
  · exact (lawful_iff_of_opensFor (after ▸ opens)).mpr ⟨user, stored, rfl, active, unlocked⟩

theorem lawful_of_state {a : SignInStep} {after : Accounts} (quiet : Quiet s after)
    (reached : step env s a = after) : Lawful env s a :=
  lawful_of_quiet (reached ▸ quiet)

theorem lawful_login (tenantId : Option Uuid) (email password : String) (fresh : Fresh)
    (now : Time) : Lawful env s (.login tenantId email password fresh now) := by
  have nothing : Quiet s s := quiet_of_same rfl rfl
  have after : step env s (.login tenantId email password fresh now) =
      (s.login env tenantId email password fresh now).state := rfl
  unfold Accounts.login at after
  dsimp only at after
  split at after
  · exact lawful_of_state nothing after
  split at after
  · exact lawful_of_state nothing after
  · exact lawful_of_state nothing after
  rename_i user found
  have same : (s.ensureBootstrapAdminRole env user).state.users = s.users ∧
      (s.ensureBootstrapAdminRole env user).state.sessions = s.sessions :=
    same_of_ensureBootstrapAdminRole
  split at after
  · rename_i refused bootstrap
    rw [bootstrap] at same
    exact lawful_of_state (quiet_of_same same.1 same.2) after
  rename_i mid bootstrap
  rw [bootstrap] at same
  have stored : user ∈ s.users.rows := by
    unfold Accounts.findLoginUser at found
    split at found
    · cases found
    · rename_i only rows
      cases found
      have member : user ∈ [user] := List.mem_singleton_self user
      rw [← rows] at member
      exact List.mem_of_mem_filter member
    · cases found
  have quietMid := quiet_of_same same.1 same.2
  split at after
  · exact lawful_of_state quietMid after
  rename_i allowed
  split at after
  · have failed : Quiet mid (mid.registerFailedLogin env user.id now) :=
      quiet_registerFailedLogin user.id now
    refine lawful_of_state ⟨?_, ?_⟩ after
    · exact failed.sessions.trans quietMid.sessions
    · intro user' member
      obtain ⟨row, inMid, id, mild⟩ := failed.users user' member
      exact ⟨row, same.1 ▸ inMid, id, mild⟩
  · exact lawful_of_checked same.1 same.2 stored allowed after

theorem lawful_completeExternalLogin (tenantId userId : Uuid) (fresh : Fresh) (now : Time) :
    Lawful env s (.completeExternalLogin tenantId userId fresh now) := by
  have nothing : Quiet s s := quiet_of_same rfl rfl
  have after : step env s (.completeExternalLogin tenantId userId fresh now) =
      (s.completeExternalLogin env tenantId userId fresh now).state := rfl
  unfold Accounts.completeExternalLogin at after
  split at after
  · exact lawful_of_state nothing after
  rename_i user found
  have stored : user ∈ s.users.rows :=
    (Table.find?_eq_some_iff.mp (Option.filter_eq_some_iff.mp found).1).1
  have same : (s.ensureBootstrapAdminRole env user).state.users = s.users ∧
      (s.ensureBootstrapAdminRole env user).state.sessions = s.sessions :=
    same_of_ensureBootstrapAdminRole
  split at after
  · rename_i refused bootstrap
    rw [bootstrap] at same
    exact lawful_of_state (quiet_of_same same.1 same.2) after
  rename_i mid bootstrap
  rw [bootstrap] at same
  split at after
  · exact lawful_of_state (quiet_of_same same.1 same.2) after
  · rename_i allowed
    exact lawful_of_checked same.1 same.2 stored allowed after

theorem lawful_disableUser (tenantId targetUserId actorId : Uuid) (now : Time) :
    Lawful env s (.disableUser tenantId targetUserId actorId now) := by
  have after : step env s (.disableUser tenantId targetUserId actorId now) =
      (s.disableUser env tenantId targetUserId actorId now).state := rfl
  unfold Accounts.disableUser at after
  split at after
  · exact lawful_of_state (quiet_of_same rfl rfl) after
  · rename_i user _
    have disabled : Quiet s (s.modifyUser user.id (fun row =>
        { row with isActive := false, accessTokenVersion := row.accessTokenVersion + 1 })
        (fun _ => rfl)) := by
      refine quiet_modifyUser fun row => ?_
      rintro (less | ⟨locked, gone⟩)
      · exact absurd less (lt_irrefl _)
      · exact locked gone
    refine lawful_of_state ⟨?_, ?_⟩ after
    · show ((List.map _ s.sessions.rows).map AuthSession.id) = _
      rw [List.map_map]
      refine List.map_congr_left fun session _ => ?_
      simp only [Function.comp_apply]
      split <;> rfl
    · exact disabled.users

theorem lawful_reactivateUser (tenantId targetUserId actorId : Uuid) (now : Time) :
    Lawful env s (.reactivateUser tenantId targetUserId actorId now) := by
  have after : step env s (.reactivateUser tenantId targetUserId actorId now) =
      (s.reactivateUser env tenantId targetUserId actorId).state := rfl
  unfold Accounts.reactivateUser at after
  split at after
  · exact lawful_of_state (quiet_of_same rfl rfl) after
  · rename_i user guarded
    have target : user.id = targetUserId := by
      unfold Accounts.guardTargetUser at guarded
      split at guarded
      · cases guarded
      · rename_i found
        split at guarded
        · cases guarded
        split at guarded
        · cases guarded
        · cases guarded
          exact (Table.find?_eq_some_iff.mp (Option.filter_eq_some_iff.mp found).1).2
    refine ⟨?_, ?_⟩
    · rintro userId ⟨session, member, _, new⟩
      rw [after] at member
      exact absurd (List.mem_map_of_mem member) new
    · intro row member row' member' same reset
      rw [after] at member'
      obtain ⟨before, old, written⟩ := Accounts.mem_modifyUser.mp member'
      by_cases own : before.id = user.id
      · left
        rw [if_pos own] at written
        rw [← same, ← written]
        exact congrArg some (target.symm.trans own.symm)
      · rw [if_neg own] at written
        subst written
        obtain rfl := s.users.eq_of_key_eq old member same
        exact absurd reset (User.not_resetTo_self before)

theorem mid_of_secondFactor {user : User} {secret code : String} {now : Time}
    (factor : s.secondFactor env user secret code now = some mid) :
    Quiet s mid ∧ mid.sessions = s.sessions ∧ mid.refreshTokens = s.refreshTokens ∧
      ∀ tenantId userId, mid.getRoleNamesForUser env tenantId userId =
        s.getRoleNamesForUser env tenantId userId := by
  unfold Accounts.secondFactor at factor
  dsimp only at factor
  split at factor
  · cases factor
    exact ⟨quiet_of_same rfl rfl, rfl, rfl, fun _ _ => rfl⟩
  split at factor
  · cases factor
    refine ⟨quiet_modifyUser fun row => ?_, rfl, rfl, fun _ _ => rfl⟩
    rintro (less | ⟨locked, gone⟩)
    · exact absurd less (lt_irrefl _)
    · exact locked gone
  · cases factor

/-- `verify_totp_login` looks at `is_active` alone, so it is lawful exactly when the user whose
second factor it accepts is not locked. -/
theorem lawful_verifyTotpLogin_iff (pending : PendingClaims) (code : String) (fresh : Fresh)
    (now : Time) : Lawful env s (.verifyTotpLogin pending code fresh now) ↔
      FactorUnlocked env s (.verifyTotpLogin pending code fresh now) := by
  have nothing : Quiet s s := quiet_of_same rfl rfl
  have after : step env s (.verifyTotpLogin pending code fresh now) =
      (s.verifyTotpLogin env pending code fresh now).state := rfl
  unfold Accounts.verifyTotpLogin at after
  simp only [FactorUnlocked]
  by_cases signed : pending ∈ s.pendingTokens
  swap
  · rw [if_pos signed] at after
    exact iff_of_true (lawful_of_state nothing after) fun known => absurd known signed
  by_cases expired : pending.exp * 1000000 ≤ now
  · rw [if_neg (not_not.mpr signed), if_pos expired] at after
    refine iff_of_true (lawful_of_state nothing after) fun _ later => ?_
    exact absurd later (not_lt.mpr expired)
  rw [if_neg (not_not.mpr signed), if_neg expired] at after
  cases found : s.getUserById pending.tenantId pending.sub with
  | none =>
    rw [found] at after
    refine iff_of_true (lawful_of_state nothing after) fun _ _ user member => ?_
    cases member
  | some user =>
    have stored : user ∈ s.users.rows :=
      (Table.find?_eq_some_iff.mp (Option.filter_eq_some_iff.mp found).1).1
    rw [found] at after
    by_cases active : user.isActive = true
    swap
    · rw [Option.filter_some, if_neg active] at after
      refine iff_of_true (lawful_of_state nothing after) fun _ _ other member isActive => ?_
      cases member
      exact absurd isActive active
    rw [Option.filter_some, if_pos active] at after
    dsimp only at after
    cases hasSecret : Text.nonempty user.totpSecret with
    | none =>
      rw [hasSecret] at after
      refine iff_of_true (lawful_of_state nothing after) fun _ _ other member _ _ secret named => ?_
      cases member
      rw [hasSecret] at named
      cases named
    | some secret =>
      rw [hasSecret] at after
      dsimp only at after
      by_cases disabled : user.totpEnabled = false
      · rw [if_pos disabled] at after
        refine iff_of_true (lawful_of_state nothing after) fun _ _ other member _ enabled => ?_
        cases member
        rw [disabled] at enabled
        cases enabled
      rw [if_neg disabled] at after
      cases factor : s.secondFactor env user secret code now with
      | none =>
        rw [factor] at after
        refine iff_of_true (lawful_of_state nothing after) fun _ _ other member _ _ secret' named passed => ?_
        cases member
        rw [hasSecret] at named
        cases named
        rw [factor] at passed
        cases passed
      | some mid =>
        rw [factor] at after
        dsimp only at after
        obtain ⟨quiet, sessions, tokens, roles⟩ := mid_of_secondFactor factor
        rw [roles] at after
        by_cases noRoles : s.getRoleNamesForUser env pending.tenantId user.id = ∅
        · rw [if_pos noRoles] at after
          refine iff_of_true (lawful_of_state quiet after) fun _ _ other member _ _ _ _ _ hasRoles => ?_
          cases member
          exact absurd noRoles hasRoles
        rw [if_neg noRoles] at after
        have admits : (∃ s' result, mid.openSession env user pending.tenantId
            (s.getRoleNamesForUser env pending.tenantId user.id) true fresh now = .ok (s', result)) ↔ _ :=
          Accounts.openSession_ok_iff user pending.tenantId _ true fresh now
        rw [sessions, tokens] at admits
        cases opened : mid.openSession env user pending.tenantId
            (s.getRoleNamesForUser env pending.tenantId user.id) true fresh now with
        | error refused =>
          rw [opened] at after
          obtain ⟨after', error⟩ := refused
          obtain ⟨same, _⟩ := Accounts.openSession_error opened
          refine iff_of_true (lawful_of_state quiet (after.trans same))
            fun _ _ other member _ _ _ _ _ _ newSession newToken => ?_
          obtain ⟨s', result, accepted⟩ := admits.mpr ⟨newSession, newToken⟩
          rw [opened] at accepted
          cases accepted
        | ok accepted =>
          rw [opened] at after
          have opens : OpensFor env s accepted.1 user :=
            ⟨mid, pending.tenantId, _, true, fresh, now, accepted.2, quiet, sessions, opened⟩
          obtain ⟨newSession, newToken⟩ := admits.mp ⟨accepted.1, accepted.2, opened⟩
          have exactly : Lawful env s (.verifyTotpLogin pending code fresh now) ↔
              Admissible s now user.id := lawful_iff_of_opensFor (after ▸ opens)
          rw [exactly]
          constructor
          · rintro ⟨row, inRows, same, _, unlocked⟩ _ _ other member _ _ _ _ _ _ _ _
            cases member
            obtain rfl := s.users.eq_of_key_eq inRows stored same
            exact unlocked
          · intro guard
            refine ⟨user, stored, rfl, active, ?_⟩
            exact guard signed (not_le.mp expired) user rfl active
              (by simpa using disabled) secret hasSecret (by rw [factor]; rfl) noRoles newSession
              newToken

/-- In a sequence of logins, failed attempts and administrative steps every new session belongs to a
user who was active and not locked, and only such a login or an administrator resets a user, exactly
when no accepted second factor belongs to a locked user. -/
theorem sessions_lawful_iff (env : AuthEnvironment) (accounts : Accounts)
    (steps : List SignInStep) :
    Guarded (Lawful env) (step env) accounts steps ↔
      Guarded (FactorUnlocked env) (step env) accounts steps := by
  refine guarded_iff_of_guarded (I := fun _ => True) (fun _ _ _ _ => trivial) ?_ trivial
    (guarded_true (step env) accounts steps)
  intro s a _ _
  cases a with
  | login tenantId email password fresh now =>
    exact iff_of_true (lawful_login tenantId email password fresh now) trivial
  | completeExternalLogin tenantId userId fresh now =>
    exact iff_of_true (lawful_completeExternalLogin tenantId userId fresh now) trivial
  | verifyTotpLogin pending code fresh now => exact lawful_verifyTotpLogin_iff pending code fresh now
  | disableUser tenantId targetUserId actorId now =>
    exact iff_of_true (lawful_disableUser tenantId targetUserId actorId now) trivial
  | reactivateUser tenantId targetUserId actorId now =>
    exact iff_of_true (lawful_reactivateUser tenantId targetUserId actorId now) trivial

/-- A user with a second factor, and an environment that locks after one failed attempt. -/
def oneAttempt : AuthEnvironment where
  settings := ⟨15, 7, 1, 15, []⟩
  lower name := name
  parseUuid _ := none
  verifyPassword password hash := password == hash
  verifyTotp _ code _ := code == "123456"
  hashBackupCode code := code
  hashRefreshToken token := token

def secondFactorUser : Accounts where
  tenants := [1]
  users := .single ⟨1, 1, "ann@corp", "pw", true, 0, none, none, 0, some "secret", true, []⟩
  roles := .single ⟨1, "user"⟩
  userRoles := [⟨1, 1, 1⟩]
  sessions := .empty
  refreshTokens := .empty
  revokedAccessTokens := []
  signedTokens := []
  pendingTokens := []

instance (s s' : Accounts) (userId : Uuid) : Decidable (Opened s s' userId) := by
  delta Opened
  infer_instance

instance (s : Accounts) (now : Time) (userId : Uuid) : Decidable (Admissible s now userId) := by
  delta Admissible
  infer_instance

def lockingSteps : List SignInStep :=
  [.login none "ann@corp" "pw" ⟨5, 6, "t1", 7, "raw"⟩ 0,
    .login none "ann@corp" "guess" ⟨5, 6, "t1", 7, "raw"⟩ 1000000]

def lateFactor : SignInStep :=
  .verifyTotpLogin ⟨1, 1, 300⟩ "123456" ⟨5, 6, "t1", 7, "raw"⟩ 2000000

/-- The locked user gets a session. -/
theorem second_factor_opens_locked_account :
    ¬ ∀ (env : AuthEnvironment) (accounts : Accounts) (steps : List SignInStep),
      Guarded (Lawful env) (step env) accounts steps := by
  intro always
  let locked := run (step oneAttempt) secondFactorUser lockingSteps
  have lawful : Lawful oneAttempt locked lateFactor :=
    (always oneAttempt secondFactorUser (lockingSteps ++ [lateFactor])).2.2.1
  have opened : Opened locked (step oneAttempt locked lateFactor) 1 ∧
      ¬ Admissible locked lateFactor.now 1 := by decide +kernel
  exact opened.2 (lawful.opened 1 opened.1)

end SignIn

end AverQel.Auth
