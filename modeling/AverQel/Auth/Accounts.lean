/- digest: Users, roles, sessions and tokens, and the operations that sign tokens or change roles. -/
import AverQel.Base
import AverQel.Foundation.Table
import AverQel.Auth.Roles

namespace AverQel.Auth

open Foundation

structure User where
  (id tenantId : Uuid)
  (email passwordHash : String)
  isActive : Bool
  failedLoginAttempts : Nat
  (lockedUntil lastLoginAt : Option Time)
  accessTokenVersion : Nat
  totpSecret : Option String
  totpEnabled : Bool
  totpBackupCodes : List String

structure Role where
  id : Uuid
  name : String

structure UserRole where
  (tenantId userId roleId : Uuid)
  deriving DecidableEq

structure AuthSession where
  (id tenantId userId tokenFamilyId : Uuid)
  createdAt : Time
  mfaVerifiedAt : Option Time
  lastSeenAt : Time
  revokedAt : Option Time
  revocationReason : Option String

structure RefreshToken where
  (id tenantId userId : Uuid)
  sessionId : Option Uuid
  tokenHash : String
  tokenFamilyId : Uuid
  expiresAt : Time
  (rotatedAt revokedAt : Option Time)
  revocationReason : Option String

structure RevokedAccessToken where
  tenantId : Uuid
  tokenId : String
  expiresAt : Time

/-- The claims of a signed access token; the times are whole seconds. The role list is sorted when
it is written and read back as a set. -/
structure AccessClaims where
  (sub tenantId : Uuid)
  roles : Finset String
  jti : String
  ver : Nat
  (iat exp : Int)
  sid : Option Uuid
  deriving DecidableEq

/-- The claims of a signed token that waits for the second factor. -/
structure PendingClaims where
  (sub tenantId : Uuid)
  exp : Int
  deriving DecidableEq

structure AuthSettings where
  (jwtAccessTtlMinutes jwtRefreshTtlDays : Int)
  authMaxFailedAttempts : Nat
  authLockoutMinutes : Int
  bootstrapSuperAdminEmails : List String

/-- Hashing, codes and identifiers, as the service calls them. -/
structure AuthEnvironment where
  settings : AuthSettings
  lower : Lower
  parseUuid : String → Option Uuid
  verifyPassword : String → String → Bool
  verifyTotp : String → String → Time → Bool
  hashBackupCode : String → String
  hashRefreshToken : String → String

/-- The tables, and the tokens that carry a valid signature because they were signed here. -/
structure Accounts where
  tenants : List Uuid
  users : Table User User.id
  roles : Table Role Role.id
  userRoles : List UserRole
  sessions : Table AuthSession AuthSession.id
  refreshTokens : Table RefreshToken RefreshToken.id
  revokedAccessTokens : List RevokedAccessToken
  signedTokens : List AccessClaims
  pendingTokens : List PendingClaims

/-- The values that an operation draws at random. -/
structure Fresh where
  (sessionId tokenFamilyId : Uuid)
  tokenId : String
  refreshTokenId : Uuid
  rawRefreshToken : String

structure LoginResult where
  roles : Finset String
  accessToken : Option AccessClaims
  refreshToken : Option String
  pendingToken : Option PendingClaims

/-- `int(moment.timestamp())` -/
def wholeSeconds (moment : Time) : Int := moment / 1000000

def minutes (n : Int) : Time := n * 60000000

namespace Accounts

variable (env : AuthEnvironment) (s : Accounts)

def getUserById (tenantId userId : Uuid) : Option User :=
  (s.users.find? userId).filter (fun user => user.tenantId = tenantId)

/-- `get_role_names_for_user` -/
def getRoleNamesForUser (tenantId userId : Uuid) : Finset String :=
  (s.userRoles.flatMap (fun grant =>
    if grant.tenantId = tenantId ∧ grant.userId = userId then
      (s.roles.rows.filter (fun role => role.id = grant.roleId)).map
        (fun role => canonicalizeRoleName env.lower role.name)
    else [])).toFinset

/-- `_load_live_role_names`, and `_effective_role_names_for_user` -/
def liveRoleNames (tenantId userId : Uuid) : Finset String :=
  canonicalizeRoleNames env.lower (s.getRoleNamesForUser env tenantId userId)

def getRoleByName (name : String) : Option Role :=
  s.roles.rows.find? (fun role => role.name = canonicalizeRoleName env.lower name)

def modifyUser (userId : Uuid) (f : User → User) (hf : ∀ user, (f user).id = user.id) : Accounts :=
  { s with users := s.users.modify userId f hf }

/-- `register_failed_login` -/
def registerFailedLogin (userId : Uuid) (now : Time) : Accounts :=
  s.modifyUser userId (fun user =>
    let attempts := user.failedLoginAttempts + 1
    { user with
      failedLoginAttempts := attempts
      lockedUntil :=
        if env.settings.authMaxFailedAttempts ≤ attempts then
          some (now + minutes env.settings.authLockoutMinutes)
        else user.lockedUntil }) (fun _ => rfl)

/-- `register_successful_login` -/
def registerSuccessfulLogin (userId : Uuid) (now : Time) : Accounts :=
  s.modifyUser userId (fun user =>
    { user with failedLoginAttempts := 0, lockedUntil := none, lastLoginAt := some now })
    (fun _ => rfl)

def revokeSessions (p : AuthSession → Bool) (now : Time) (reason : String) : Accounts :=
  let revoke (session : AuthSession) : AuthSession :=
    if p session ∧ session.revokedAt = none then
      { session with revokedAt := some now, revocationReason := some reason }
    else session
  { s with sessions := s.sessions.mapRows revoke (fun session => by simp only [revoke]; split <;> rfl) }

def revokeRefreshTokens (p : RefreshToken → Bool) (now : Time) (reason : String) : Accounts :=
  let revoke (token : RefreshToken) : RefreshToken :=
    if p token ∧ token.revokedAt = none then
      { token with revokedAt := some now, revocationReason := some reason }
    else token
  { s with refreshTokens :=
      s.refreshTokens.mapRows revoke (fun token => by simp only [revoke]; split <;> rfl) }

/-- `revoke_family` -/
def revokeFamily (tenantId tokenFamilyId : Uuid) (now : Time) (reason : String) : Accounts :=
  (s.revokeRefreshTokens (fun token =>
    token.tenantId = tenantId ∧ token.tokenFamilyId = tokenFamilyId) now reason).revokeSessions
    (fun session => session.tenantId = tenantId ∧ session.tokenFamilyId = tokenFamilyId) now reason

/-- `revoke_all_for_user` -/
def revokeAllForUser (tenantId userId : Uuid) (now : Time) (reason : String) : Accounts :=
  (s.revokeRefreshTokens (fun token =>
    token.tenantId = tenantId ∧ token.userId = userId) now reason).revokeSessions
    (fun session => session.tenantId = tenantId ∧ session.userId = userId) now reason

/-- `revoke_token` -/
def revokeToken (tenantId : Uuid) (token : RefreshToken) (now : Time) (reason : String) :
    Accounts :=
  let revoked := s.refreshTokens.modify token.id (fun row =>
    { row with revokedAt := row.revokedAt.or (some now), revocationReason := some reason })
    (fun _ => rfl)
  match token.sessionId with
  | none => { s with refreshTokens := revoked }
  | some sessionId => { s with refreshTokens := revoked }.revokeSessions
      (fun session => session.id = sessionId ∧ session.tenantId = tenantId) now reason

/-- `session.last_seen_at = now` -/
def touchSession (sessionId : Option Uuid) (now : Time) : Accounts :=
  let touch (session : AuthSession) : AuthSession :=
    if some session.id = sessionId then { session with lastSeenAt := now } else session
  { s with sessions := s.sessions.mapRows touch (fun session => by simp only [touch]; split <;> rfl) }

/-- `create_access_token` -/
def createAccessToken (user : User) (tenantId : Uuid) (roles : Finset String)
    (sessionId : Option Uuid) (tokenId : String) (now : Time) : AccessClaims where
  sub := user.id
  tenantId := tenantId
  roles := canonicalizeRoleNames env.lower roles
  jti := tokenId
  ver := user.accessTokenVersion
  iat := wholeSeconds now
  exp := wholeSeconds (now + minutes env.settings.jwtAccessTtlMinutes)
  sid := sessionId

def refreshExpiry (now : Time) : Time := now + minutes (env.settings.jwtRefreshTtlDays * 1440)

/-- The refresh token row that a session or a rotation stores. -/
def newRefreshToken (userId tenantId tokenFamilyId : Uuid) (sessionId : Option Uuid)
    (fresh : Fresh) (now : Time) : RefreshToken where
  id := fresh.refreshTokenId
  tenantId := tenantId
  userId := userId
  sessionId := sessionId
  tokenHash := env.hashRefreshToken fresh.rawRefreshToken
  tokenFamilyId := tokenFamilyId
  expiresAt := refreshExpiry env now
  rotatedAt := none
  revokedAt := none
  revocationReason := none

/-- The common end of `login`, `complete_external_login` and `verify_totp_login`: a session, an
access token that names the roles, and the first refresh token of the family. -/
def openSession (user : User) (tenantId : Uuid) (roles : Finset String) (mfaVerified : Bool)
    (fresh : Fresh) (now : Time) : Attempt Accounts LoginResult :=
  let session : AuthSession :=
    { id := fresh.sessionId
      tenantId := tenantId
      userId := user.id
      tokenFamilyId := fresh.tokenFamilyId
      createdAt := now
      mfaVerifiedAt := if mfaVerified then some now else none
      lastSeenAt := now
      revokedAt := none
      revocationReason := none }
  let claims := createAccessToken env user tenantId roles (some fresh.sessionId) fresh.tokenId now
  let row := newRefreshToken env user.id tenantId fresh.tokenFamilyId (some fresh.sessionId) fresh now
  let entered := s.registerSuccessfulLogin user.id now
  match entered.sessions.insert? session, entered.refreshTokens.insert? row with
  | some sessions, some refreshTokens =>
    .ok ({ entered with
           sessions := sessions
           refreshTokens := refreshTokens
           signedTokens := entered.signedTokens ++ [claims] },
      ⟨roles, some claims, some fresh.rawRefreshToken, none⟩)
  | _, _ => .error (s, none)

/-- The other end of `login` and `complete_external_login`: the second factor is asked for. -/
def askSecondFactor (user : User) (tenantId : Uuid) (roles : Finset String) (now : Time) :
    Accounts × LoginResult :=
  let pending : PendingClaims := ⟨user.id, tenantId, wholeSeconds (now + minutes 5)⟩
  ({ s with pendingTokens := s.pendingTokens ++ [pending] }, ⟨roles, none, none, some pending⟩)

def invalidCredentials : ApiError := ⟨"INVALID_CREDENTIALS", "Invalid email or password.", 401⟩
def roleAssignmentRequired : ApiError :=
  ⟨"ROLE_ASSIGNMENT_REQUIRED", "User has no assigned roles.", 403⟩
def roleNotConfigured (roleName : String) : ApiError :=
  ⟨"ROLE_ASSIGNMENT_REQUIRED", "Required role '" ++ roleName ++ "' is not configured.", 500⟩
def authUserNotActive : ApiError := ⟨"AUTH_USER_NOT_ACTIVE", "User account is not active.", 401⟩
def authUserLocked : ApiError := ⟨"AUTH_USER_LOCKED", "User account is temporarily locked.", 423⟩
def invalidRefreshToken (message : String) : ApiError := ⟨"INVALID_REFRESH_TOKEN", message, 401⟩

/-- `_replace_user_roles`. The access token version stays. -/
def replaceUserRoles (tenantId userId : Uuid) (roleName : String) : Attempt Accounts Unit :=
  match s.getRoleByName env roleName with
  | none => .error (s, some (roleNotConfigured roleName))
  | some role =>
    let others := s.userRoles.filter (fun grant =>
      ¬(grant.tenantId = tenantId ∧ grant.userId = userId))
    .ok ({ s with userRoles := others ++ [⟨tenantId, userId, role.id⟩] }, ())

/-- `_ensure_bootstrap_admin_role` -/
def ensureBootstrapAdminRole (user : User) : Attempt Accounts Unit :=
  if isPlatformAdminEmail env.lower user.email env.settings.bootstrapSuperAdminEmails = false then
    .ok (s, ())
  else if "admin" ∈ s.liveRoleNames env user.tenantId user.id then .ok (s, ())
  else
    match s.getRoleByName env "admin" with
    | none => .error (s, some (roleNotConfigured "admin"))
    | some role =>
      .ok ({ s with userRoles := s.userRoles ++ [⟨user.tenantId, user.id, role.id⟩] }, ())

/-- `_ensure_user_can_authenticate` -/
def ensureUserCanAuthenticate (user : User) (now : Time) : Option ApiError :=
  if user.isActive = false then some authUserNotActive
  else if user.lockedUntil.any (fun limit => now < limit) then some authUserLocked
  else none

/-- The user that `login` finds; `none` at the outside is more than one row. -/
def findLoginUser (tenantId : Option Uuid) (email : String) : Option (Option User) :=
  match s.users.rows.filter (fun user =>
      user.email = email ∧ tenantId.all (fun tenant => user.tenantId = tenant)) with
  | [] => some none
  | [user] => some (some user)
  | _ :: _ :: _ => none

/-- The common middle of `login` and `complete_external_login`, once the user has proved an
identity. -/
def continueLogin (user : User) (tenantId : Uuid) (fresh : Fresh) (now : Time) :
    Attempt Accounts LoginResult :=
  let roleNames := s.liveRoleNames env tenantId user.id
  if roleNames = ∅ then .error (s, some roleAssignmentRequired)
  else if user.totpEnabled then .ok (s.askSecondFactor user tenantId roleNames now)
  else s.openSession env user tenantId roleNames false fresh now

def login (tenantId : Option Uuid) (email password : String) (fresh : Fresh) (now : Time) :
    Attempt Accounts LoginResult :=
  let normalizedEmail := env.lower (Text.strip email)
  if normalizedEmail = "" ∨ password = "" then .error (s, some invalidCredentials)
  else
    match s.findLoginUser tenantId normalizedEmail with
    | none => .error (s, none)
    | some none => .error (s, some invalidCredentials)
    | some (some user) =>
      match s.ensureBootstrapAdminRole env user with
      | .error refused => .error refused
      | .ok (s, ()) =>
        match ensureUserCanAuthenticate user now with
        | some error => .error (s, some error)
        | none =>
          if env.verifyPassword password user.passwordHash = false then
            .error (s.registerFailedLogin env user.id now, some invalidCredentials)
          else s.continueLogin env user (tenantId.getD user.tenantId) fresh now

def completeExternalLogin (tenantId userId : Uuid) (fresh : Fresh) (now : Time) :
    Attempt Accounts LoginResult :=
  match s.getUserById tenantId userId with
  | none => .error (s, none)
  | some user =>
    match s.ensureBootstrapAdminRole env user with
    | .error refused => .error refused
    | .ok (s, ()) =>
      match ensureUserCanAuthenticate user now with
      | some error => .error (s, some error)
      | none => s.continueLogin env user user.tenantId fresh now

/-- A valid code of the authenticator, or a stored backup code, which is then consumed. -/
def secondFactor (user : User) (secret code : String) (now : Time) : Option Accounts :=
  let codeHash := env.hashBackupCode (Text.strip code)
  if env.verifyTotp secret code now then some s
  else if codeHash ∈ user.totpBackupCodes then
    some (s.modifyUser user.id (fun row =>
      { row with totpBackupCodes := row.totpBackupCodes.erase codeHash }) (fun _ => rfl))
  else none

def verifyTotpLogin (pending : PendingClaims) (code : String) (fresh : Fresh) (now : Time) :
    Attempt Accounts LoginResult :=
  if pending ∉ s.pendingTokens then
    .error (s, some ⟨"INVALID_2FA_TOKEN", "Invalid two-factor authentication token.", 401⟩)
  else if pending.exp * 1000000 ≤ now then
    .error (s, some ⟨"2FA_TOKEN_EXPIRED",
      "Two-factor authentication token has expired. Please log in again.", 401⟩)
  else
    match (s.getUserById pending.tenantId pending.sub).filter User.isActive with
    | none => .error (s, some ⟨"USER_NOT_FOUND", "User not found or inactive.", 401⟩)
    | some user =>
      match Text.nonempty user.totpSecret with
      | none => .error (s, some ⟨"2FA_NOT_ENABLED",
          "Two-factor authentication is not enabled for this account.", 400⟩)
      | some secret =>
        if user.totpEnabled = false then .error (s, some ⟨"2FA_NOT_ENABLED",
          "Two-factor authentication is not enabled for this account.", 400⟩)
        else
          match s.secondFactor env user secret code now with
          | none => .error (s, some ⟨"INVALID_TOTP_CODE",
              "Invalid two-factor authentication code.", 401⟩)
          | some s =>
            let roleNames := s.getRoleNamesForUser env pending.tenantId user.id
            if roleNames = ∅ then .error (s, some roleAssignmentRequired)
            else s.openSession env user pending.tenantId roleNames true fresh now

/-- `_extract_tenant_from_refresh_token` -/
def extractTenantFromRefreshToken (raw : String) : Option Uuid :=
  let tenantPart := raw.toList.takeWhile (fun c => c ≠ '.')
  match raw.toList.dropWhile (fun c => c ≠ '.') with
  | [] => none
  | _ :: rest => if rest.length < 32 then none else env.parseUuid (String.ofList tenantPart)

/-- What `refresh` does with a live row of a live user: the row is rotated, a new one takes its
place and a new access token names the roles. -/
def rotate (token : RefreshToken) (user : User) (tenantId : Uuid) (fresh : Fresh) (now : Time) :
    Attempt Accounts LoginResult :=
  let roleNames := s.liveRoleNames env tenantId user.id
  if roleNames = ∅ then .error (s, some roleAssignmentRequired)
  else
    let rotated := s.refreshTokens.modify token.id (fun row =>
      { row with
        rotatedAt := some now
        revokedAt := some now
        revocationReason := some "rotated" }) (fun _ => rfl)
    let row := newRefreshToken env user.id tenantId token.tokenFamilyId token.sessionId fresh now
    let claims := createAccessToken env user tenantId roleNames token.sessionId fresh.tokenId now
    match rotated.insert? row with
    | none => .error (s, none)
    | some refreshTokens =>
      .ok ({ s.touchSession token.sessionId now with
             refreshTokens := refreshTokens
             signedTokens := s.signedTokens ++ [claims] },
        ⟨roleNames, some claims, some fresh.rawRefreshToken, none⟩)

def refresh (rawRefreshToken : String) (fresh : Fresh) (now : Time) : Attempt Accounts LoginResult :=
  match extractTenantFromRefreshToken env rawRefreshToken with
  | none => .error (s, some (invalidRefreshToken "Refresh token format is invalid."))
  | some tenantId =>
    match s.refreshTokens.rows.find? (fun row =>
        row.tenantId = tenantId ∧ row.tokenHash = env.hashRefreshToken rawRefreshToken) with
    | none => .error (s, some (invalidRefreshToken "Refresh token is invalid."))
    | some token =>
      if token.rotatedAt ≠ none then
        .error (s.revokeFamily tenantId token.tokenFamilyId now "token_reuse_detected",
          some ⟨"REFRESH_TOKEN_REUSED", "Refresh token reuse detected.", 401⟩)
      else if token.revokedAt ≠ none then
        .error (s, some ⟨"REFRESH_TOKEN_REVOKED", "Refresh token has been revoked.", 401⟩)
      else if token.sessionId ≠ none ∧ s.sessions.rows.all (fun session =>
          ¬(some session.id = token.sessionId ∧ session.tenantId = tenantId ∧
            session.userId = token.userId ∧ session.revokedAt = none)) then
        .error (s, some ⟨"SESSION_REVOKED",
          "This account session has been revoked. Please sign in again.", 401⟩)
      else if token.expiresAt ≤ now then
        .error ((s.touchSession token.sessionId now).revokeToken tenantId token now "expired",
          some ⟨"REFRESH_TOKEN_EXPIRED", "Refresh token is expired.", 401⟩)
      else
        match (s.getUserById tenantId token.userId).filter User.isActive with
        | none =>
          .error ((s.touchSession token.sessionId now).revokeFamily tenantId token.tokenFamilyId now
            "user_inactive_or_deleted", some authUserNotActive)
        | some user => s.rotate env token user tenantId fresh now

/-- `_revoke_access_token` -/
def revokeAccessToken (tenantId : Uuid) (tokenId : String) (now : Time) : Accounts :=
  if s.revokedAccessTokens.any (fun row =>
      row.tenantId = tenantId ∧ row.tokenId = tokenId ∧ now < row.expiresAt) then s
  else
    let expiresAt := now + minutes env.settings.jwtAccessTtlMinutes + 30000000
    { s with revokedAccessTokens := s.revokedAccessTokens ++ [⟨tenantId, tokenId, expiresAt⟩] }

def logoutAll (tenantId userId : Uuid) (tokenId : String) (now : Time) : Attempt Accounts Unit :=
  match s.getUserById tenantId userId with
  | none => .error (s, some ⟨"USER_NOT_FOUND", "User not found.", 404⟩)
  | some user =>
    let bumped := s.modifyUser user.id (fun row =>
      { row with accessTokenVersion := row.accessTokenVersion + 1 }) (fun _ => rfl)
    .ok ((bumped.revokeAccessToken env tenantId tokenId now).revokeAllForUser tenantId userId now
      "logout_all", ())

variable {env : AuthEnvironment} {s : Accounts}

theorem mem_modifyUser {userId : Uuid} {f : User → User} {hf : ∀ user, (f user).id = user.id}
    {user' : User} : user' ∈ (s.modifyUser userId f hf).users.rows ↔
      ∃ user ∈ s.users.rows, (if user.id = userId then f user else user) = user' :=
  List.mem_map

theorem mem_registerSuccessfulLogin {userId : Uuid} {now : Time} {user' : User} :
    user' ∈ (s.registerSuccessfulLogin userId now).users.rows ↔
      ∃ user ∈ s.users.rows, (if user.id = userId then
        { user with failedLoginAttempts := 0, lockedUntil := none, lastLoginAt := some now }
      else user) = user' :=
  List.mem_map

theorem openSession_eq_ok {user : User} {tenantId : Uuid} {roles : Finset String}
    {mfaVerified : Bool} {fresh : Fresh} {now : Time} {s' : Accounts} {result : LoginResult}
    (opened : s.openSession env user tenantId roles mfaVerified fresh now = .ok (s', result)) :
    s'.users = (s.registerSuccessfulLogin user.id now).users ∧
      s'.pendingTokens = s.pendingTokens ∧ result.accessToken.isSome ∧
        ∃ session : AuthSession, session.userId = user.id ∧
          s'.sessions.rows = s.sessions.rows ++ [session] := by
  unfold openSession at opened
  generalize (if mfaVerified = true then some now else none) = verified at opened
  dsimp only at opened
  split at opened
  · rename_i sessions refreshTokens inserted _
    cases opened
    exact ⟨rfl, rfl, rfl, _, rfl, Table.rows_of_insert? inserted⟩
  · cases opened

theorem openSession_error {user : User} {tenantId : Uuid} {roles : Finset String}
    {mfaVerified : Bool} {fresh : Fresh} {now : Time} {s' : Accounts} {error : Option ApiError}
    (refused : s.openSession env user tenantId roles mfaVerified fresh now = .error (s', error)) :
    s' = s ∧ error = none := by
  unfold openSession at refused
  generalize (if mfaVerified = true then some now else none) = verified at refused
  dsimp only at refused
  split at refused
  · cases refused
  · cases refused
    exact ⟨rfl, rfl⟩

theorem openSession_ok_iff (user : User) (tenantId : Uuid) (roles : Finset String)
    (mfaVerified : Bool) (fresh : Fresh) (now : Time) :
    (∃ s' result, s.openSession env user tenantId roles mfaVerified fresh now = .ok (s', result)) ↔
      fresh.sessionId ∉ s.sessions.rows.map AuthSession.id ∧
        fresh.refreshTokenId ∉ s.refreshTokens.rows.map RefreshToken.id := by
  unfold openSession
  generalize (if mfaVerified = true then some now else none) = verified
  dsimp only
  constructor
  · rintro ⟨s', result, opened⟩
    split at opened
    · rename_i sessions refreshTokens inserted added
      refine ⟨?_, ?_⟩
      · intro taken
        obtain ⟨session, member, same⟩ := List.mem_map.mp taken
        exact Table.fresh_of_insert? inserted member same
      · intro taken
        obtain ⟨token, member, same⟩ := List.mem_map.mp taken
        exact Table.fresh_of_insert? added member same
    · cases opened
  · rintro ⟨newSession, newToken⟩
    split
    · exact ⟨_, _, rfl⟩
    · rename_i refused
      obtain ⟨sessions, inserted, _⟩ := Table.insert?_of_fresh (t := s.sessions) (a :=
        { id := fresh.sessionId, tenantId := tenantId, userId := user.id
          tokenFamilyId := fresh.tokenFamilyId, createdAt := now, mfaVerifiedAt := verified
          lastSeenAt := now, revokedAt := none, revocationReason := none }) newSession
      obtain ⟨tokens, added, _⟩ := Table.insert?_of_fresh (t := s.refreshTokens) (a :=
        newRefreshToken env user.id tenantId fresh.tokenFamilyId (some fresh.sessionId) fresh now)
        newToken
      exact absurd added (refused sessions tokens inserted)

end Accounts

end AverQel.Auth
