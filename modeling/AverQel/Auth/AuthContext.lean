/- digest: From an access token to the identity and the permissions of a request. -/
import AverQel.Auth.Accounts
import AverQel.Foundation.Fallible

namespace AverQel.Auth

open Foundation

structure AuthContext where
  (userId tenantId : Uuid)
  (roles permissions : Finset String)
  tokenId : String
  sessionId : Option Uuid
  (sessionCreatedAt mfaVerifiedAt : Option Time)

def jwtLeewaySeconds : Int := 5

def effectiveRoles (tokenRoles dbRoles : Finset String) : Finset String :=
  let shared := if tokenRoles ≠ ∅ then tokenRoles ∩ dbRoles else dbRoles
  if shared = ∅ ∧ tokenRoles ≠ ∅ then tokenRoles else shared

/-- `_enforce_platform_admin_allowlist` -/
def enforcePlatformAdminAllowlist (roles : Finset String) : Finset String := roles

namespace Accounts

variable (env : AuthEnvironment) (s : Accounts)

/-- `decode_access_token`: only tokens that were signed here pass the signature check. -/
def decodeAccessToken (claims : AccessClaims) (now : Time) : Except ApiError Unit := do
  let leeway := jwtLeewaySeconds * 1000000
  ensure (claims ∈ s.signedTokens)
    (⟨"INVALID_ACCESS_TOKEN", "Access token is invalid.", 401⟩ : ApiError)
  ensure (claims.iat * 1000000 ≤ now + leeway)
    (⟨"ACCESS_TOKEN_NOT_YET_VALID", "Access token is not yet valid.", 401⟩ : ApiError)
  ensure (now - leeway < claims.exp * 1000000)
    (⟨"ACCESS_TOKEN_EXPIRED", "Access token is expired.", 401⟩ : ApiError)

/-- `_parse_requested_tenant_id` and `_enforce_tenant_scope` -/
def enforceTenantScope (xTenantId : Option String) (actualTenantId : Uuid) :
    Except ApiError Unit :=
  match xTenantId with
  | none => .ok ()
  | some text =>
    match env.parseUuid text with
    | none => .error ⟨"INVALID_TENANT_ID", "X-Tenant-Id must be a valid UUID.", 400⟩
    | some requested =>
      if requested ≠ actualTenantId then
        .error ⟨"TENANT_SCOPE_MISMATCH",
          "Authenticated tenant scope does not match requested tenant.", 403⟩
      else .ok ()

/-- `_check_jwt_not_revoked`; the cache may know the token or not. -/
def checkJwtNotRevoked (tenantId : Uuid) (tokenId : String) (cached : Bool) (now : Time) :
    Except ApiError Unit :=
  ensure (cached = false ∧ ∀ row ∈ s.revokedAccessTokens,
      ¬(row.tenantId = tenantId ∧ row.tokenId = tokenId ∧ now < row.expiresAt))
    ⟨"TOKEN_REVOKED", "Access token has been revoked. Please log in again.", 401⟩

/-- `_validate_live_user_and_tenant` -/
def validateLiveUserAndTenant (userId tenantId : Uuid) : Except ApiError User :=
  match (s.getUserById tenantId userId).filter User.isActive with
  | none => .error ⟨"USER_DISABLED", "User account is inactive.", 401⟩
  | some user =>
    if tenantId ∉ s.tenants then .error ⟨"TENANT_DISABLED", "Tenant is inactive.", 403⟩
    else if user.tenantId ≠ tenantId then
      .error ⟨"TENANT_SCOPE_MISMATCH", "User tenant membership is invalid.", 403⟩
    else .ok user

/-- The session that a token names; a token may name none. -/
def liveSession (claims : AccessClaims) : Except ApiError (Option AuthSession) :=
  match claims.sid with
  | none => .ok none
  | some sessionId =>
    match s.sessions.rows.find? (fun session =>
        session.id = sessionId ∧ session.tenantId = claims.tenantId ∧
          session.userId = claims.sub ∧ session.revokedAt = none) with
    | none => .error ⟨"SESSION_REVOKED",
        "This account session has been revoked. Please sign in again.", 401⟩
    | some session => .ok (some session)

def buildAuthContextFromJwt (claims : AccessClaims) (xTenantId : Option String) (cached : Bool)
    (now : Time) : Except ApiError AuthContext := do
  let tokenId := Text.strip claims.jti
  ensure (tokenId ≠ "")
    (⟨"INVALID_ACCESS_TOKEN", "Access token does not include required claims.", 401⟩ : ApiError)
  enforceTenantScope env xTenantId claims.tenantId
  s.checkJwtNotRevoked claims.tenantId tokenId cached now
  let liveUser ← s.validateLiveUserAndTenant claims.sub claims.tenantId
  ensure (claims.ver = liveUser.accessTokenVersion)
    (⟨"TOKEN_REVOKED", "Access token has been invalidated. Please log in again.", 401⟩ : ApiError)
  let session ← s.liveSession claims
  let roles := enforcePlatformAdminAllowlist (effectiveRoles
    (canonicalizeRoleNames env.lower claims.roles) (s.liveRoleNames env claims.tenantId claims.sub))
  .ok
    { userId := claims.sub
      tenantId := claims.tenantId
      roles := roles
      permissions := resolvePermissions env.lower roles ∅
      tokenId := tokenId
      sessionId := claims.sid
      sessionCreatedAt := session.map AuthSession.createdAt
      mfaVerifiedAt := session.bind AuthSession.mfaVerifiedAt }

/-- `get_auth_context` for a bearer access token. -/
def getAuthContext (claims : AccessClaims) (xTenantId : Option String) (cached : Bool)
    (now : Time) : Except ApiError AuthContext := do
  s.decodeAccessToken claims now
  s.buildAuthContextFromJwt env claims xTenantId cached now

end Accounts

end AverQel.Auth
