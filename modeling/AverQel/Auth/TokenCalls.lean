/- digest: The statements of concurrent refresh, logout and logout_all calls. -/
import AverQel.Auth.AuthContext
import AverQel.Foundation.Interleaving

namespace AverQel.Auth

open Foundation

/-- Which rows an `UPDATE … WHERE revoked_at IS NULL` of the repository selects. -/
inductive RevocationScope where
  | family (tokenFamilyId : Uuid)
  | user (userId : Uuid)
  deriving DecidableEq, Repr

/-- `revoke_family`, and `revoke_all_for_user` -/
structure Revocation where
  tenantId : Uuid
  scope : RevocationScope
  reason : String
  deriving DecidableEq, Repr

namespace Revocation

def selects (r : Revocation) (token : RefreshToken) : Bool :=
  token.tenantId = r.tenantId && match r.scope with
    | .family tokenFamilyId => token.tokenFamilyId = tokenFamilyId
    | .user userId => token.userId = userId

def selectsSession (r : Revocation) (session : AuthSession) : Bool :=
  session.tenantId = r.tenantId && match r.scope with
    | .family tokenFamilyId => session.tokenFamilyId = tokenFamilyId
    | .user userId => session.userId = userId

end Revocation

inductive TokenRequest where
  | refresh (rawRefreshToken : String)
  | logout (auth : AuthContext) (rawRefreshToken : Option String)
  | logoutAll (auth : AuthContext)

/-- What a transaction has decided to commit; `late` tells that the family had been ended when the
call read its row. -/
inductive TokenWrite where
  | rotate (token : RefreshToken) (user : User) (late : Bool)
  | expire (token : RefreshToken)
  | reuse (token : RefreshToken)
  | inactive (token : RefreshToken)
  | logoutAccess (auth : AuthContext)
  | logoutSession (auth : AuthContext) (session : AuthSession)
  | logoutToken (auth : AuthContext) (token : RefreshToken)
  | logoutAll (auth : AuthContext) (user : User)

namespace TokenWrite

/-- The two `UPDATE` statements that the transaction runs before it commits. -/
def revocation : TokenWrite → Option Revocation
  | reuse token => some ⟨token.tenantId, .family token.tokenFamilyId, "token_reuse_detected"⟩
  | inactive token =>
    some ⟨token.tenantId, .family token.tokenFamilyId, "user_inactive_or_deleted"⟩
  | logoutSession auth session =>
    some ⟨auth.tenantId, .family session.tokenFamilyId, "logout"⟩
  | logoutAll auth _ => some ⟨auth.tenantId, .user auth.userId, "logout_all"⟩
  | rotate .. | expire _ | logoutAccess _ | logoutToken .. => none

def ends : TokenWrite → Option Revocation
  | logoutToken auth token => some ⟨auth.tenantId, .family token.tokenFamilyId, "logout"⟩
  | reuse token => (reuse token).revocation
  | logoutSession auth session => (logoutSession auth session).revocation
  | logoutAll auth user => (logoutAll auth user).revocation
  | rotate .. | expire _ | inactive _ | logoutAccess _ => none

def exchange : TokenWrite → Option (Uuid × Bool)
  | rotate token _ late => some (token.id, late)
  | _ => none

/-- The row that `get_by_hash` has locked. -/
def heldTokens : TokenWrite → List Uuid
  | rotate token _ _ | expire token | reuse token | inactive token | logoutToken _ token =>
    [token.id]
  | logoutAccess _ | logoutSession .. | logoutAll .. => []

/-- The row that `logout` has locked with `FOR UPDATE`. -/
def heldSessions : TokenWrite → List Uuid
  | logoutSession _ session => [session.id]
  | rotate .. | expire _ | reuse _ | inactive _ | logoutAccess _ | logoutToken .. | logoutAll .. =>
    []

end TokenWrite

/-- The point that a call has reached. -/
inductive TokenPoint where
  | called (request : TokenRequest)
  /-- `refresh` has locked and read its row. -/
  | holding (token : RefreshToken) (late : Bool)
  /-- Its session check is passed. -/
  | admitted (token : RefreshToken) (late : Bool) (now : Time)
  /-- Its user is active and has roles. -/
  | entitled (token : RefreshToken) (user : User) (late : Bool)
  /-- `logout` has locked the session of the access token. -/
  | loggingOut (auth : AuthContext) (session : AuthSession)
  /-- `logout` has locked the row of the refresh token. -/
  | presenting (auth : AuthContext) (token : RefreshToken)
  /-- `logout_all` has read the user. -/
  | leaving (auth : AuthContext) (user : User)
  /-- The `UPDATE` of the tokens has found rows and waits for their locks. -/
  | selecting (write : TokenWrite) (found : List Uuid)
  /-- It has revoked `tokens`. -/
  | revoking (write : TokenWrite) (tokens : List Uuid)
  /-- The sessions are revoked too and only the commit is left. -/
  | finishing (write : TokenWrite) (tokens sessions : List Uuid)
  | returned (error : Option ApiError)
  | aborted

namespace TokenPoint

def tokenLocks : TokenPoint → List Uuid
  | holding token _ | admitted token _ _ | entitled token _ _ | presenting _ token => [token.id]
  | selecting write _ => write.heldTokens
  | revoking write tokens | finishing write tokens _ => write.heldTokens ++ tokens
  | called _ | loggingOut .. | leaving .. | returned _ | aborted => []

def sessionLocks : TokenPoint → List Uuid
  | loggingOut _ session => [session.id]
  | selecting write _ | revoking write _ => write.heldSessions
  | finishing write _ sessions => write.heldSessions ++ sessions
  | called _ | holding .. | admitted .. | entitled .. | presenting .. | leaving .. | returned _
  | aborted => []

def abort : TokenPoint → TokenPoint
  | returned error => returned error
  | _ => aborted

def excludes (p q : TokenPoint) : Bool :=
  p.tokenLocks.any (fun id => id ∈ q.tokenLocks) || p.sessionLocks.any (fun id => id ∈ q.sessionLocks)

end TokenPoint

structure TokenHistory where
  accounts : Accounts
  exchanged : List (Uuid × Bool)
  endings : List Revocation

structure TokenTurn where
  now : Time
  fresh : Fresh
  aborts : Bool

namespace Accounts

variable (env : AuthEnvironment) (s : Accounts)

/-- `get_by_hash`, less the lock. -/
def tokenByHash (tenantId : Uuid) (tokenHash : String) : Option RefreshToken :=
  s.refreshTokens.rows.find? fun row => row.tenantId = tenantId ∧ row.tokenHash = tokenHash

/-- The session check of `refresh`; a token without a session id has none to check. -/
def sessionLive (token : RefreshToken) : Bool :=
  token.sessionId.all fun sessionId => s.sessions.rows.any fun session =>
    session.id = sessionId ∧ session.tenantId = token.tenantId ∧ session.userId = token.userId ∧
      session.revokedAt = none

def selected (r : Revocation) : List Uuid :=
  (s.refreshTokens.rows.filter fun token => r.selects token && token.revokedAt = none).map
    RefreshToken.id

def selectedSessions (r : Revocation) : List Uuid :=
  (s.sessions.rows.filter fun session =>
    r.selectsSession session && session.revokedAt = none).map AuthSession.id

/-- The rows of a waiting `UPDATE` that still meet its condition. -/
def stillUnrevoked (found : List Uuid) : List Uuid :=
  found.filter fun id => s.refreshTokens.rows.any fun token =>
    token.id = id ∧ token.revokedAt = none

/-- What the two `UPDATE` statements have written. -/
def revokeRows (tokens sessions : List Uuid) (now : Time) (reason : String) : Accounts :=
  (s.revokeRefreshTokens (fun token => token.id ∈ tokens) now reason).revokeSessions
    (fun session => session.id ∈ sessions) now reason

/-- `logout` with a refresh token and no session id. -/
def logoutToken (auth : AuthContext) (token : RefreshToken) (now : Time) : Accounts :=
  let revoked := (s.revokeAccessToken env auth.tenantId auth.tokenId now).revokeToken auth.tenantId
    token now "logout"
  let close (session : AuthSession) : AuthSession :=
    if some session.id = token.sessionId ∧ session.userId = auth.userId then
      { session with revokedAt := some now, revocationReason := some "logout" }
    else session
  { revoked with sessions :=
      revoked.sessions.mapRows close (fun session => by simp only [close]; split <;> rfl) }

/-- The commit of a transaction; `none` is a violated unique constraint. -/
def commitWrite (turn : TokenTurn) (tokens sessions : List Uuid) : TokenWrite → Option Accounts
  | .rotate token user _ =>
    if (s.tokenByHash token.tenantId (env.hashRefreshToken turn.fresh.rawRefreshToken)).isSome then
      none
    else
      match s.rotate env token user token.tenantId turn.fresh turn.now with
      | .ok (rotated, _) => some rotated
      | .error _ => none
  | .expire token =>
    some ((s.touchSession token.sessionId turn.now).revokeToken token.tenantId token turn.now
      "expired")
  | .reuse _ => some (s.revokeRows tokens sessions turn.now "token_reuse_detected")
  | .inactive token =>
    some ((s.touchSession token.sessionId turn.now).revokeRows tokens sessions turn.now
      "user_inactive_or_deleted")
  | .logoutAccess auth => some (s.revokeAccessToken env auth.tenantId auth.tokenId turn.now)
  | .logoutSession auth _ =>
    some ((s.revokeAccessToken env auth.tenantId auth.tokenId turn.now).revokeRows tokens sessions
      turn.now "logout")
  | .logoutToken auth token => some (s.logoutToken env auth token turn.now)
  | .logoutAll auth user =>
    let bumped := s.modifyUser user.id (fun row =>
      { row with accessTokenVersion := user.accessTokenVersion + 1 }) (fun _ => rfl)
    some ((bumped.revokeAccessToken env auth.tenantId auth.tokenId turn.now).revokeRows tokens
      sessions turn.now "logout_all")

end Accounts

namespace TokenHistory

variable (env : AuthEnvironment) (h : TokenHistory)

/-- `get_by_hash` at the start of `refresh`. -/
def beginRefresh (rawRefreshToken : String) : TokenPoint :=
  match Accounts.extractTenantFromRefreshToken env rawRefreshToken with
  | none =>
    .returned (some (Accounts.invalidRefreshToken "Refresh token format is invalid."))
  | some tenantId =>
    match h.accounts.tokenByHash tenantId (env.hashRefreshToken rawRefreshToken) with
    | none => .returned (some (Accounts.invalidRefreshToken "Refresh token is invalid."))
    | some token => .holding token (h.endings.any fun r => r.selects token)

def beginLogout (auth : AuthContext) (rawRefreshToken : Option String) : TokenPoint :=
  match auth.sessionId with
  | some sessionId =>
    match h.accounts.sessions.rows.find? (fun session =>
        session.id = sessionId ∧ session.tenantId = auth.tenantId ∧
          session.userId = auth.userId) with
    | none => .finishing (.logoutAccess auth) [] []
    | some session => .loggingOut auth session
  | none =>
    match rawRefreshToken with
    | none => .returned none
    | some raw =>
      match Accounts.extractTenantFromRefreshToken env raw with
      | none => .returned (some (Accounts.invalidRefreshToken "Refresh token format is invalid."))
      | some tenantId =>
        if tenantId ≠ auth.tenantId then
          .returned (some ⟨"TENANT_SCOPE_MISMATCH",
            "Refresh token tenant does not match authenticated tenant.", 403⟩)
        else
          match h.accounts.tokenByHash tenantId (env.hashRefreshToken raw) with
          | none => .returned none
          | some token =>
            if token.userId ≠ auth.userId then
              .returned (some ⟨"FORBIDDEN", "Cannot revoke another user's refresh token.", 403⟩)
            else .presenting auth token

def begin (request : TokenRequest) : TokenPoint :=
  match request with
  | .refresh rawRefreshToken => h.beginRefresh env rawRefreshToken
  | .logout auth rawRefreshToken => h.beginLogout env auth rawRefreshToken
  | .logoutAll auth =>
    match h.accounts.getUserById auth.tenantId auth.userId with
    | none => .returned (some ⟨"USER_NOT_FOUND", "User not found.", 404⟩)
    | some user => .leaving auth user

/-- The first `UPDATE` of a revocation finds its rows among those that are committed now. -/
def select (write : TokenWrite) : TokenPoint :=
  .selecting write (write.revocation.elim [] h.accounts.selected)

/-- What `refresh` does with the row that it has locked. -/
def examine (token : RefreshToken) (late : Bool) (now : Time) : TokenPoint :=
  if token.rotatedAt ≠ none then h.select (.reuse token)
  else if token.revokedAt ≠ none then
    .returned (some ⟨"REFRESH_TOKEN_REVOKED", "Refresh token has been revoked.", 401⟩)
  else if h.accounts.sessionLive token = false then
    .returned (some ⟨"SESSION_REVOKED",
      "This account session has been revoked. Please sign in again.", 401⟩)
  else .admitted token late now

/-- The expiry of the row, and the checks of its user. -/
def entitle (token : RefreshToken) (late : Bool) (now : Time) : TokenPoint :=
  if token.expiresAt ≤ now then .finishing (.expire token) [] token.sessionId.toList
  else
    match (h.accounts.getUserById token.tenantId token.userId).filter User.isActive with
    | none => h.select (.inactive token)
    | some user =>
      if h.accounts.liveRoleNames env token.tenantId user.id = ∅ then
        .returned (some Accounts.roleAssignmentRequired)
      else .entitled token user late

/-- The error that `refresh` raises after it has committed. -/
def result : TokenWrite → Option ApiError
  | .expire _ => some ⟨"REFRESH_TOKEN_EXPIRED", "Refresh token is expired.", 401⟩
  | .reuse _ => some ⟨"REFRESH_TOKEN_REUSED", "Refresh token reuse detected.", 401⟩
  | .inactive _ => some Accounts.authUserNotActive
  | .rotate .. | .logoutAccess _ | .logoutSession .. | .logoutToken .. | .logoutAll .. => none

/-- A commit, with what it means for the history. -/
def commit (turn : TokenTurn) (write : TokenWrite) (tokens sessions : List Uuid) :
    TokenHistory × TokenPoint :=
  match h.accounts.commitWrite env turn tokens sessions write with
  | none => (h, .aborted)
  | some accounts =>
    ({ accounts := accounts
       exchanged := write.exchange.toList ++ h.exchanged
       endings := write.ends.toList ++ h.endings },
      .returned (result write))

/-- The next statement of a call; a transaction may be aborted at any point before its commit. -/
def next (turn : TokenTurn) (h : TokenHistory) (point : TokenPoint) : TokenHistory × TokenPoint :=
  if turn.aborts then (h, point.abort)
  else
    match point with
    | .called request => (h, h.begin env request)
    | .holding token late => (h, h.examine token late turn.now)
    | .admitted token late now => (h, h.entitle env token late now)
    | .entitled token user late =>
      (h, .finishing (.rotate token user late) [] token.sessionId.toList)
    | .loggingOut auth session =>
      if session.revokedAt = none then (h, h.select (.logoutSession auth session))
      else (h, .finishing (.logoutSession auth session) [] [])
    | .presenting auth token => (h, .finishing (.logoutToken auth token) [] token.sessionId.toList)
    | .leaving auth user => (h, h.select (.logoutAll auth user))
    | .selecting write found => (h, .revoking write (h.accounts.stillUnrevoked found))
    | .revoking write tokens =>
      (h, .finishing write tokens (write.revocation.elim [] h.accounts.selectedSessions))
    | .finishing write tokens sessions => h.commit env turn write tokens sessions
    | .returned error => (h, .returned error)
    | .aborted => (h, .aborted)

end TokenHistory

end AverQel.Auth
