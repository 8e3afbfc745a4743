/- digest: What the commits of refresh, logout and logout_all do to tokens and sessions. -/
import AverQel.Auth.TokenCalls

namespace AverQel.Auth

open Foundation

namespace Accounts

def OneUnrevoked (s : Accounts) : Prop :=
  ∀ t ∈ s.refreshTokens.rows, ∀ u ∈ s.refreshTokens.rows, t.tenantId = u.tenantId →
    t.tokenFamilyId = u.tokenFamilyId → t.revokedAt = none → u.revokedAt = none → t.id = u.id

instance (s : Accounts) : Decidable s.OneUnrevoked := by
  delta OneUnrevoked
  infer_instance

/-- What the login paths and the unique constraints give: one unrevoked token and one session for
a family, and the session that a token names belongs to its family. -/
structure WellFormed (s : Accounts) : Prop where
  one_unrevoked : s.OneUnrevoked
  one_session : ∀ x ∈ s.sessions.rows, ∀ y ∈ s.sessions.rows, x.tenantId = y.tenantId →
    x.tokenFamilyId = y.tokenFamilyId → x.id = y.id
  linked : ∀ t ∈ s.refreshTokens.rows, ∀ x ∈ s.sessions.rows, t.sessionId = some x.id →
    x.tenantId = t.tenantId → x.tokenFamilyId = t.tokenFamilyId

/-- The row of a token after some commits: an unrevoked row is the row that it was. -/
structure TokenKept (t t' : RefreshToken) : Prop where
  id : t'.id = t.id
  tenantId : t'.tenantId = t.tenantId
  userId : t'.userId = t.userId
  sessionId : t'.sessionId = t.sessionId
  tokenFamilyId : t'.tokenFamilyId = t.tokenFamilyId
  unrevoked : t'.revokedAt = none → t' = t

/-- The row of a session after some commits: a revoked session stays revoked. -/
structure SessionKept (x x' : AuthSession) : Prop where
  id : x'.id = x.id
  tenantId : x'.tenantId = x.tenantId
  userId : x'.userId = x.userId
  tokenFamilyId : x'.tokenFamilyId = x.tokenFamilyId
  unrevoked : x'.revokedAt = none → x.revokedAt = none

/-- Rows are only revoked, and of the tokens only those with the given ids are written. -/
structure Later (ids : List Uuid) (a a' : Accounts) : Prop where
  tokens : ∃ f : RefreshToken → RefreshToken, a'.refreshTokens.rows = a.refreshTokens.rows.map f ∧
    ∀ t, TokenKept t (f t) ∧ (t.id ∉ ids → f t = t)
  sessions : ∃ g : AuthSession → AuthSession, a'.sessions.rows = a.sessions.rows.map g ∧
    ∀ x, SessionKept x (g x)

theorem TokenKept.refl (t : RefreshToken) : TokenKept t t := ⟨rfl, rfl, rfl, rfl, rfl, fun _ => rfl⟩

theorem SessionKept.refl (x : AuthSession) : SessionKept x x :=
  ⟨rfl, rfl, rfl, rfl, fun live => live⟩

theorem TokenKept.of_revoked {t t' : RefreshToken} (id : t'.id = t.id)
    (tenantId : t'.tenantId = t.tenantId) (userId : t'.userId = t.userId)
    (sessionId : t'.sessionId = t.sessionId) (family : t'.tokenFamilyId = t.tokenFamilyId)
    (revoked : t'.revokedAt ≠ none) : TokenKept t t' :=
  ⟨id, tenantId, userId, sessionId, family, fun live => absurd live revoked⟩

theorem SessionKept.trans {x y z : AuthSession} (first : SessionKept x y)
    (second : SessionKept y z) : SessionKept x z where
  id := second.id.trans first.id
  tenantId := second.tenantId.trans first.tenantId
  userId := second.userId.trans first.userId
  tokenFamilyId := second.tokenFamilyId.trans first.tokenFamilyId
  unrevoked live := first.unrevoked (second.unrevoked live)

theorem TokenKept.trans {t u v : RefreshToken} (first : TokenKept t u)
    (second : TokenKept u v) : TokenKept t v where
  id := second.id.trans first.id
  tenantId := second.tenantId.trans first.tenantId
  userId := second.userId.trans first.userId
  sessionId := second.sessionId.trans first.sessionId
  tokenFamilyId := second.tokenFamilyId.trans first.tokenFamilyId
  unrevoked live := by
    have middle := second.unrevoked live
    rw [middle]
    exact first.unrevoked (middle ▸ live)

theorem SessionKept.selectsSession {x x' : AuthSession} (kept : SessionKept x x')
    (r : Revocation) : r.selectsSession x' = r.selectsSession x := by
  simp only [Revocation.selectsSession, kept.tenantId, kept.tokenFamilyId, kept.userId]

namespace Later

variable {ids : List Uuid} {a a' a'' : Accounts}

theorem of_same (tokens : a'.refreshTokens.rows = a.refreshTokens.rows)
    (sessions : a'.sessions.rows = a.sessions.rows) : Later ids a a' where
  tokens := ⟨id, by rw [tokens, List.map_id], fun t => ⟨.refl t, fun _ => rfl⟩⟩
  sessions := ⟨id, by rw [sessions, List.map_id], fun x => .refl x⟩

theorem trans (first : Later ids a a') (second : Later ids a' a'') : Later ids a a'' := by
  obtain ⟨f, tokens, keptF⟩ := first.tokens
  obtain ⟨g, tokens', keptG⟩ := second.tokens
  obtain ⟨k, sessions, keptK⟩ := first.sessions
  obtain ⟨l, sessions', keptL⟩ := second.sessions
  refine ⟨⟨g ∘ f, ?_, ?_⟩, ⟨l ∘ k, ?_, ?_⟩⟩
  · rw [tokens', tokens, List.map_map]
  · intro t
    refine ⟨(keptF t).1.trans (keptG (f t)).1, ?_⟩
    intro other
    have same : f t = t := (keptF t).2 other
    show g (f t) = t
    rw [same]
    exact (keptG t).2 other
  · rw [sessions', sessions, List.map_map]
  · intro x
    exact (keptK x).trans (keptL (k x))

theorem mono {more : List Uuid} (later : Later ids a a') (fewer : ids ⊆ more) : Later more a a' := by
  obtain ⟨f, tokens, kept⟩ := later.tokens
  exact ⟨⟨f, tokens, fun t => ⟨(kept t).1, fun other => (kept t).2 fun hit => other (fewer hit)⟩⟩,
    later.sessions⟩

theorem token_of (later : Later ids a a') {t' : RefreshToken} (member : t' ∈ a'.refreshTokens.rows) :
    ∃ t ∈ a.refreshTokens.rows, TokenKept t t' := by
  obtain ⟨f, tokens, kept⟩ := later.tokens
  rw [tokens] at member
  obtain ⟨t, old, rfl⟩ := List.mem_map.mp member
  exact ⟨t, old, (kept t).1⟩

theorem session_of (later : Later ids a a') {x' : AuthSession} (member : x' ∈ a'.sessions.rows) :
    ∃ x ∈ a.sessions.rows, SessionKept x x' := by
  obtain ⟨g, sessions, kept⟩ := later.sessions
  rw [sessions] at member
  obtain ⟨x, old, rfl⟩ := List.mem_map.mp member
  exact ⟨x, old, kept x⟩

theorem session_to (later : Later ids a a') {x : AuthSession} (member : x ∈ a.sessions.rows) :
    ∃ x' ∈ a'.sessions.rows, SessionKept x x' := by
  obtain ⟨g, sessions, kept⟩ := later.sessions
  exact ⟨g x, by rw [sessions]; exact List.mem_map_of_mem member, kept x⟩

theorem ids_eq (later : Later ids a a') :
    a'.refreshTokens.rows.map RefreshToken.id = a.refreshTokens.rows.map RefreshToken.id := by
  obtain ⟨f, tokens, kept⟩ := later.tokens
  rw [tokens, List.map_map]
  exact List.map_congr_left fun t _ => (kept t).1.id

theorem find?_of (later : Later ids a a') {token : RefreshToken} (other : token.id ∉ ids)
    (found : a.refreshTokens.find? token.id = some token) :
    a'.refreshTokens.find? token.id = some token := by
  obtain ⟨f, tokens, kept⟩ := later.tokens
  have member := (Table.find?_eq_some_iff.mp found).1
  refine Table.find?_eq_some_iff.mpr ⟨?_, rfl⟩
  rw [tokens]
  refine List.mem_map.mpr ⟨token, member, ?_⟩
  exact (kept token).2 other

theorem sessionLive_of (later : Later ids a a') {t : RefreshToken}
    (live : a'.sessionLive t = true) : a.sessionLive t = true := by
  simp only [sessionLive, Option.all_eq_true, List.any_eq_true, decide_eq_true_eq] at live ⊢
  intro sessionId named
  obtain ⟨x', member, id, tenantId, userId, unrevoked⟩ := live sessionId named
  obtain ⟨x, old, kept⟩ := later.session_of member
  exact ⟨x, old, kept.id ▸ id, kept.tenantId ▸ tenantId, kept.userId ▸ userId,
    kept.unrevoked unrevoked⟩

theorem wellFormed (later : Later ids a a') (wf : a.WellFormed) : a'.WellFormed where
  one_unrevoked t' member u' member' tenant family liveT liveU := by
    obtain ⟨t, old, kept⟩ := later.token_of member
    obtain ⟨u, old', kept'⟩ := later.token_of member'
    have sameT : t' = t := kept.unrevoked liveT
    have sameU : u' = u := kept'.unrevoked liveU
    subst sameT sameU
    exact wf.one_unrevoked t' old u' old' tenant family liveT liveU
  one_session x' member y' member' tenant family := by
    obtain ⟨x, old, kept⟩ := later.session_of member
    obtain ⟨y, old', kept'⟩ := later.session_of member'
    rw [kept.tenantId, kept'.tenantId] at tenant
    rw [kept.tokenFamilyId, kept'.tokenFamilyId] at family
    rw [kept.id, kept'.id]
    exact wf.one_session x old y old' tenant family
  linked t' member x' member' named tenant := by
    obtain ⟨t, old, kept⟩ := later.token_of member
    obtain ⟨x, old', kept'⟩ := later.session_of member'
    rw [kept.sessionId, kept'.id] at named
    rw [kept.tenantId, kept'.tenantId] at tenant
    rw [kept.tokenFamilyId, kept'.tokenFamilyId]
    exact wf.linked t old x old' named tenant

end Later

variable {env : AuthEnvironment} {s s' : Accounts}

theorem later_revokeRefreshTokens {ids : List Uuid} {p : RefreshToken → Bool}
    (only : ∀ t, p t = true → t.id ∈ ids) (now : Time) (reason : String) :
    Later ids s (s.revokeRefreshTokens p now reason) where
  tokens := by
    refine ⟨_, rfl, fun t => ?_⟩
    by_cases hit : p t = true ∧ t.revokedAt = none
    · rw [if_pos hit]
      exact ⟨.of_revoked rfl rfl rfl rfl rfl (by simp), fun other => absurd (only t hit.1) other⟩
    · rw [if_neg hit]
      exact ⟨.refl t, fun _ => rfl⟩
  sessions := ⟨id, (List.map_id _).symm, fun x => .refl x⟩

theorem later_revokeSessions {ids : List Uuid} (p : AuthSession → Bool) (now : Time)
    (reason : String) : Later ids s (s.revokeSessions p now reason) where
  tokens := ⟨id, (List.map_id _).symm, fun t => ⟨.refl t, fun _ => rfl⟩⟩
  sessions := by
    refine ⟨_, rfl, fun x => ?_⟩
    split
    · exact ⟨rfl, rfl, rfl, rfl, fun live => by simp at live⟩
    · exact .refl x

theorem later_touchSession {ids : List Uuid} (sessionId : Option Uuid) (now : Time) :
    Later ids s (s.touchSession sessionId now) where
  tokens := ⟨id, (List.map_id _).symm, fun t => ⟨.refl t, fun _ => rfl⟩⟩
  sessions := by
    refine ⟨_, rfl, fun x => ?_⟩
    split
    · exact ⟨rfl, rfl, rfl, rfl, fun live => live⟩
    · exact .refl x

theorem later_revokeAccessToken {ids : List Uuid} (tenantId : Uuid) (tokenId : String)
    (now : Time) : Later ids s (s.revokeAccessToken env tenantId tokenId now) := by
  unfold revokeAccessToken
  split <;> exact .of_same rfl rfl

theorem later_revokeRows {tokens ids : List Uuid} (only : tokens ⊆ ids) (sessions : List Uuid)
    (now : Time) (reason : String) : Later ids s (s.revokeRows tokens sessions now reason) := by
  refine (later_revokeRefreshTokens ?_ now reason).trans (later_revokeSessions _ now reason)
  intro t hit
  exact only (of_decide_eq_true hit)

variable {t : RefreshToken}

theorem token_revokeRows {tokens sessions : List Uuid} {now : Time} {reason : String}
    (member : t ∈ (s.revokeRows tokens sessions now reason).refreshTokens.rows)
    (hit : t.id ∈ tokens) : t.revokedAt ≠ none := by
  obtain ⟨before, _, rfl⟩ := List.mem_map.mp member
  intro live
  split at hit
  · rename_i selected
    rw [if_pos selected] at live
    cases live
  · rename_i selected
    rw [if_neg selected] at live
    exact selected ⟨decide_eq_true hit, live⟩

theorem session_revokeRows {tokens sessions : List Uuid} {now : Time} {reason : String}
    {x : AuthSession} (member : x ∈ (s.revokeRows tokens sessions now reason).sessions.rows)
    (hit : x.id ∈ sessions) : x.revokedAt ≠ none := by
  obtain ⟨before, _, rfl⟩ := List.mem_map.mp member
  intro live
  split at hit
  · rename_i selected
    rw [if_pos selected] at live
    cases live
  · rename_i selected
    rw [if_neg selected] at live
    exact selected ⟨decide_eq_true hit, live⟩

variable {f : RefreshToken → RefreshToken}

theorem later_modify {id : Uuid} (kept : ∀ t, (f t).id = t.id) (revokes : ∀ t, TokenKept t (f t))
    (tokens : s'.refreshTokens = s.refreshTokens.modify id f kept)
    (sessions : ∃ g : AuthSession → AuthSession, s'.sessions.rows = s.sessions.rows.map g ∧
      ∀ x, SessionKept x (g x)) :
    Later [id] s s' := by
  refine ⟨⟨_, by rw [tokens]; rfl, fun t => ?_⟩, sessions⟩
  by_cases hit : t.id = id
  · rw [if_pos hit]
    exact ⟨revokes t, fun other => absurd (List.mem_singleton.mpr hit) other⟩
  · rw [if_neg hit]
    exact ⟨.refl t, fun _ => rfl⟩

theorem revoked_of_modify {id : Uuid} {kept : ∀ t, (f t).id = t.id}
    (revokes : ∀ t, (f t).revokedAt ≠ none) (member : t ∈ (s.refreshTokens.modify id f kept).rows)
    (same : t.id = id) :
    t.revokedAt ≠ none := by
  obtain ⟨before, _, written⟩ := Table.mem_modify.mp member
  by_cases hit : before.id = id
  · rw [if_pos hit] at written
    rw [← written]
    exact revokes before
  · rw [if_neg hit] at written
    exact absurd (written ▸ same) hit

theorem later_revokeToken (tenantId : Uuid) (token : RefreshToken) (now : Time)
    (reason : String) : Later [token.id] s (s.revokeToken tenantId token now reason) := by
  have modified : ∀ a : Accounts,
      a.refreshTokens = s.refreshTokens.modify token.id (fun row =>
        { row with revokedAt := row.revokedAt.or (some now), revocationReason := some reason })
        (fun _ => rfl) → a.sessions = s.sessions → Later [token.id] s a := by
    intro a tokens sessions
    refine later_modify _ ?_ tokens ?_
    · intro t
      exact .of_revoked rfl rfl rfl rfl rfl (by simp)
    · exact ⟨id, by rw [sessions, List.map_id], fun x => .refl x⟩
  cases named : token.sessionId with
  | none =>
    simp only [revokeToken, named]
    exact modified _ rfl rfl
  | some =>
    simp only [revokeToken, named]
    exact (modified { s with refreshTokens := _ } rfl rfl).trans (later_revokeSessions _ now reason)

theorem token_revokeToken {tenantId : Uuid} {token : RefreshToken} {now : Time} {reason : String}
    (member : t ∈ (s.revokeToken tenantId token now reason).refreshTokens.rows)
    (same : t.id = token.id) : t.revokedAt ≠ none := by
  have rows : (s.revokeToken tenantId token now reason).refreshTokens =
      s.refreshTokens.modify token.id (fun row =>
        { row with revokedAt := row.revokedAt.or (some now), revocationReason := some reason })
        (fun _ => rfl) := by
    unfold revokeToken
    split <;> rfl
  rw [rows] at member
  exact revoked_of_modify (fun t => by simp) member same

theorem session_revokeToken {tenantId : Uuid} {token : RefreshToken} {now : Time} {reason : String}
    {x : AuthSession} (member : x ∈ (s.revokeToken tenantId token now reason).sessions.rows)
    (named : token.sessionId = some x.id) (tenant : x.tenantId = tenantId) : x.revokedAt ≠ none := by
  simp only [revokeToken, named] at member
  obtain ⟨before, _, written⟩ := List.mem_map.mp member
  by_cases hit : before.id = x.id ∧ before.tenantId = tenantId ∧ before.revokedAt = none
  · rw [if_pos ⟨decide_eq_true ⟨hit.1, hit.2.1⟩, hit.2.2⟩] at written
    rw [← written]
    simp
  · have missed : ¬ (decide (before.id = x.id ∧ before.tenantId = tenantId) = true ∧
        before.revokedAt = none) := by
      rintro ⟨keys, live⟩
      exact hit ⟨(of_decide_eq_true keys).1, (of_decide_eq_true keys).2, live⟩
    rw [if_neg missed] at written
    subst written
    intro live
    exact hit ⟨rfl, tenant, live⟩

theorem later_logoutToken (auth : AuthContext) (token : RefreshToken) (now : Time) :
    Later [token.id] s (s.logoutToken env auth token now) := by
  have access : Later [token.id] s (s.revokeAccessToken env auth.tenantId auth.tokenId now) :=
    later_revokeAccessToken auth.tenantId auth.tokenId now
  have revoked := access.trans (later_revokeToken auth.tenantId token now "logout")
  refine revoked.trans ⟨⟨id, (List.map_id _).symm, fun t => ⟨.refl t, fun _ => rfl⟩⟩, ⟨_, rfl, fun x => ?_⟩⟩
  split
  · exact ⟨rfl, rfl, rfl, rfl, fun live => by simp at live⟩
  · exact .refl x

variable {turn : TokenTurn} {tokens sessions : List Uuid}

theorem later_commitWrite {write : TokenWrite}
    (committed : s.commitWrite env turn tokens sessions write = some s')
    (settles : ∀ token user late, write ≠ .rotate token user late) :
    Later (write.heldTokens ++ tokens) s s' := by
  have rows : ∀ (a : Accounts) (reason : String),
      Later (write.heldTokens ++ tokens) a (a.revokeRows tokens sessions turn.now reason) :=
    fun a reason => later_revokeRows (List.subset_append_right _ _) sessions turn.now reason
  cases write with
  | rotate token user late => exact absurd rfl (settles token user late)
  | expire token =>
    cases committed
    have revoked : Later [token.id] s ((s.touchSession token.sessionId turn.now).revokeToken
        token.tenantId token turn.now "expired") :=
      (later_touchSession _ _).trans (later_revokeToken _ _ _ _)
    exact revoked.mono (List.subset_append_left _ _)
  | reuse =>
    cases committed
    exact rows s _
  | inactive =>
    cases committed
    exact (later_touchSession _ _).trans (rows _ _)
  | logoutAccess auth =>
    cases committed
    exact later_revokeAccessToken auth.tenantId auth.tokenId turn.now
  | logoutSession auth =>
    cases committed
    exact (later_revokeAccessToken auth.tenantId auth.tokenId turn.now).trans (rows _ _)
  | logoutToken auth token =>
    cases committed
    exact (later_logoutToken auth token turn.now).mono (List.subset_append_left _ _)
  | logoutAll auth user =>
    cases committed
    have bumped : Later (TokenWrite.heldTokens (.logoutAll auth user) ++ tokens) s
        (s.modifyUser user.id (fun row =>
          { row with accessTokenVersion := user.accessTokenVersion + 1 }) (fun _ => rfl)) :=
      .of_same rfl rfl
    exact bumped.trans ((later_revokeAccessToken auth.tenantId auth.tokenId turn.now).trans
      (rows _ _))

theorem rotated_of_commitWrite {token : RefreshToken} {user : User} {late : Bool}
    (committed : s.commitWrite env turn tokens sessions (.rotate token user late) = some s') :
    ∃ (mid : Accounts) (row : RefreshToken), Later [token.id] s mid ∧
      (∀ t ∈ mid.refreshTokens.rows, t.id = token.id → t.revokedAt ≠ none) ∧
      mid.refreshTokens.insert? row = some s'.refreshTokens ∧ s'.sessions = mid.sessions ∧
      row.tenantId = token.tenantId ∧ row.userId = user.id ∧ row.sessionId = token.sessionId ∧
      row.tokenFamilyId = token.tokenFamilyId := by
  simp only [commitWrite, rotate] at committed
  split at committed
  · cases committed
  split at committed
  · rename_i result accepted
    cases committed
    split at accepted
    · cases accepted
    split at accepted
    · cases accepted
    · rename_i refreshTokens inserted
      cases accepted
      have touched : Later [] s (s.touchSession token.sessionId turn.now) :=
        later_touchSession _ _
      let rotated (row : RefreshToken) : RefreshToken :=
        { row with
          rotatedAt := some turn.now
          revokedAt := some turn.now
          revocationReason := some "rotated" }
      have revokes : ∀ t, TokenKept t (rotated t) := fun t =>
        .of_revoked rfl rfl rfl rfl rfl (by simp [rotated])
      have mid : ∃ mid : Accounts, mid.refreshTokens =
          s.refreshTokens.modify token.id rotated (fun _ => rfl) ∧
            mid.sessions = (s.touchSession token.sessionId turn.now).sessions :=
        ⟨{ s.touchSession token.sessionId turn.now with
            refreshTokens := s.refreshTokens.modify token.id rotated (fun _ => rfl) }, rfl, rfl⟩
      obtain ⟨mid, modified, same⟩ := mid
      let row := newRefreshToken env user.id token.tenantId token.tokenFamilyId token.sessionId
        turn.fresh turn.now
      refine ⟨mid, row, later_modify _ revokes modified (same ▸ touched.sessions), ?_,
        modified ▸ inserted, same.symm, rfl, rfl, rfl, rfl⟩
      intro t member atToken
      rw [modified] at member
      exact revoked_of_modify (fun t => by simp [rotated]) member atToken
  · cases committed

end Accounts

end AverQel.Auth
