/- digest: Refresh tokens form a chain, and a family that has been ended is not refreshed again. -/
import AverQel.Auth.TokenRows

namespace AverQel.Auth

open Foundation Transition Accounts

namespace TokenPoint

def late : TokenPoint → Bool
  | admitted _ late _ | entitled _ _ late | finishing (.rotate _ _ late) _ _ => late
  | _ => false

theorem excludes_symm (p q : TokenPoint) : excludes p q = excludes q p := by
  have meets : ∀ l m : List Uuid, l.any (fun id => id ∈ m) = m.any (fun id => id ∈ l) := by
    intro l m
    rw [Bool.eq_iff_iff]
    simp only [List.any_eq_true, decide_eq_true_eq]
    constructor <;> exact fun ⟨id, left, right⟩ => ⟨id, right, left⟩
  rw [excludes, excludes, meets, meets q.sessionLocks]

theorem tokens_apart {p q : TokenPoint} (apart : excludes p q = false) {id : Uuid}
    (mine : id ∈ p.tokenLocks) : id ∉ q.tokenLocks := by
  intro theirs
  have meets : p.tokenLocks.any (fun id => id ∈ q.tokenLocks) = true :=
    List.any_eq_true.mpr ⟨id, mine, decide_eq_true theirs⟩
  rw [excludes, meets, Bool.true_or] at apart
  cases apart

end TokenPoint

namespace TokenHistory

def ExchangedOnce (h : TokenHistory) : Prop := (h.exchanged.map Prod.fst).Nodup

def NoneLate (h : TokenHistory) : Prop := ∀ exchange ∈ h.exchanged, exchange.2 = false

instance (h : TokenHistory) : Decidable h.NoneLate :=
  inferInstanceAs (Decidable (∀ exchange ∈ h.exchanged, _))

def Unspent (h : TokenHistory) (token : RefreshToken) : Prop :=
  h.accounts.refreshTokens.find? token.id = some token ∧ token.revokedAt = none

/-- What a call knows of the committed rows at its point. -/
def Holds (h : TokenHistory) : TokenPoint → Prop
  | .holding token late => h.accounts.refreshTokens.find? token.id = some token ∧
      (late = true → ∃ r ∈ h.endings, r.selects token = true)
  | .admitted token _ _ => h.Unspent token
  | .entitled token user _ => h.Unspent token ∧ user.id = token.userId
  | .loggingOut auth session => session.tenantId = auth.tenantId ∧
      ∃ row ∈ h.accounts.sessions.rows, SessionKept session row
  | .selecting write _ | .revoking write _ => write.revocation.isSome
  | .finishing (.rotate token user _) _ _ => h.Unspent token ∧ user.id = token.userId
  | .finishing write _ sessions => ∀ r ∈ write.revocation, ∀ x ∈ h.accounts.sessions.rows,
      r.selectsSession x = true → x.revokedAt = none → x.id ∈ sessions
  | _ => True

/-- The commit of an ending leaves no token of the family to refresh: an unrevoked token without a
session id is among the rows that the `UPDATE` has found, and a logout by refresh token presents
the unrevoked token or one of its session. -/
def reaches (h : TokenHistory) (tokens : List Uuid) (t : RefreshToken) : TokenWrite → Bool
  | .logoutToken _ token => t.id = token.id ||
      (t.sessionId.isSome && t.sessionId = token.sessionId) || !h.accounts.sessionLive t
  | _ => t.sessionId.isSome || t.id ∈ tokens

def CommitReaches (h : TokenHistory) : TokenPoint → Prop
  | .finishing write tokens _ => ∀ r ∈ write.ends, ∀ t ∈ h.accounts.refreshTokens.rows,
      r.selects t = true → t.revokedAt = none → h.reaches tokens t write = true
  | _ => True

def Stopped (h : TokenHistory) : Prop :=
  ∀ r ∈ h.endings, ∀ t ∈ h.accounts.refreshTokens.rows, r.selects t = true →
    t.revokedAt = none → h.accounts.sessionLive t = false

variable {env : AuthEnvironment} {h : TokenHistory} {turn : TokenTurn}

theorem holds_abort (p : TokenPoint) : h.Holds p.abort := by
  cases p <;> trivial

theorem holds_select {write : TokenWrite} (revokes : write.revocation.isSome) :
    h.Holds (h.select write) := revokes

theorem holds_beginRefresh (raw : String) : h.Holds (h.beginRefresh env raw) := by
  unfold beginRefresh
  split
  · trivial
  split
  · trivial
  · rename_i token found
    refine ⟨Table.find?_eq_some_iff.mpr ⟨List.mem_of_find?_eq_some found, rfl⟩, ?_⟩
    intro late
    exact List.any_eq_true.mp late

theorem holds_beginLogout (auth : AuthContext) (raw : Option String) :
    h.Holds (h.beginLogout env auth raw) := by
  unfold beginLogout
  split
  · split
    · intro r revokes
      cases revokes
    · rename_i session found
      have tenant : session.tenantId = auth.tenantId := by
        have keys := List.find?_some found
        simp only [decide_eq_true_eq] at keys
        exact keys.2.1
      exact ⟨tenant, session, List.mem_of_find?_eq_some found, .refl session⟩
  split
  · trivial
  split
  · trivial
  split
  · trivial
  split
  · trivial
  split <;> trivial

theorem holds_examine {token : RefreshToken} {late : Bool} (holds : h.Holds (.holding token late))
    (now : Time) : h.Holds (h.examine token late now) := by
  unfold examine
  split
  · exact holds_select rfl
  split
  · trivial
  · rename_i unrevoked
    split
    · trivial
    · exact ⟨holds.1, not_not.mp unrevoked⟩

theorem holds_entitle {token : RefreshToken} {late : Bool} {now : Time}
    (holds : h.Holds (.admitted token late now)) : h.Holds (h.entitle env token late now) := by
  unfold entitle
  split
  · intro r revokes
    cases revokes
  split
  · exact holds_select rfl
  · rename_i user found
    split
    · trivial
    · refine ⟨holds, ?_⟩
      have first := (Option.filter_eq_some_iff.mp found).1
      have second := (Option.filter_eq_some_iff.mp first).1
      exact (Table.find?_eq_some_iff.mp second).2

/-- A session that `logout` finds revoked is the only one of its family. -/
theorem holds_loggedOut (wf : h.accounts.WellFormed) {auth : AuthContext} {session : AuthSession}
    (holds : h.Holds (.loggingOut auth session)) (revoked : session.revokedAt ≠ none) :
    h.Holds (.finishing (.logoutSession auth session) [] []) := by
  obtain ⟨tenant, row, member, kept⟩ := holds
  intro r revokes x stored selected live
  obtain rfl : _ = r := Option.some.inj revokes
  simp only [Revocation.selectsSession, Bool.and_eq_true, decide_eq_true_eq] at selected
  have same : x.id = row.id := wf.one_session x stored row member
    (by rw [selected.1, kept.tenantId, tenant]) (by rw [selected.2, kept.tokenFamilyId])
  obtain rfl := h.accounts.sessions.eq_of_key_eq stored member same
  exact absurd (kept.unrevoked live) revoked

/-- The second `UPDATE` finds every session that the revocation is for. -/
theorem holds_revoked {write : TokenWrite} (revokes : write.revocation.isSome)
    (tokens : List Uuid) :
    h.Holds (.finishing write tokens (write.revocation.elim [] h.accounts.selectedSessions)) := by
  have covers : ∀ r ∈ write.revocation, ∀ x ∈ h.accounts.sessions.rows,
      r.selectsSession x = true → x.revokedAt = none →
        x.id ∈ write.revocation.elim [] h.accounts.selectedSessions := by
    intro r found x stored selected live
    rw [Option.mem_def.mp found]
    refine List.mem_map_of_mem (List.mem_filter.mpr ⟨stored, ?_⟩)
    rw [selected, live]
    rfl
  cases write with
  | rotate => cases revokes
  | _ => exact covers

/-- A statement leaves the rows as they are, or it commits. -/
theorem next_cases (wf : h.accounts.WellFormed) {p : TokenPoint} (holds : h.Holds p) :
    (next env turn h p).1 = h ∧ h.Holds (next env turn h p).2 ∨
      ∃ write tokens sessions a', p = .finishing write tokens sessions ∧ turn.aborts = false ∧
        h.accounts.commitWrite env turn tokens sessions write = some a' ∧
        next env turn h p = (⟨a', write.exchange.toList ++ h.exchanged,
          write.ends.toList ++ h.endings⟩, .returned (result write)) := by
  unfold next
  split
  · exact .inl ⟨rfl, holds_abort p⟩
  rename_i commits
  cases p with
  | called request =>
    refine .inl ⟨rfl, ?_⟩
    cases request with
    | refresh raw => exact holds_beginRefresh raw
    | logout auth raw => exact holds_beginLogout auth raw
    | logoutAll =>
      dsimp only [begin]
      split <;> trivial
  | holding => exact .inl ⟨rfl, holds_examine holds turn.now⟩
  | admitted => exact .inl ⟨rfl, holds_entitle holds⟩
  | entitled => exact .inl ⟨rfl, holds⟩
  | loggingOut auth session =>
    dsimp only
    split
    · exact .inl ⟨rfl, holds_select rfl⟩
    · rename_i revoked
      exact .inl ⟨rfl, holds_loggedOut wf holds revoked⟩
  | presenting =>
    refine .inl ⟨rfl, ?_⟩
    intro r revokes
    cases revokes
  | leaving => exact .inl ⟨rfl, holds_select rfl⟩
  | selecting => exact .inl ⟨rfl, holds⟩
  | revoking write tokens => exact .inl ⟨rfl, holds_revoked holds tokens⟩
  | finishing write tokens sessions =>
    dsimp only [commit]
    cases committed : h.accounts.commitWrite env turn tokens sessions write with
    | none => exact .inl ⟨rfl, trivial⟩
    | some a' =>
      exact .inr ⟨write, tokens, sessions, a', rfl, by simpa using commits, committed, rfl⟩
  | returned | aborted => exact .inl ⟨rfl, trivial⟩

theorem late_next {p : TokenPoint} (stopped : h.Stopped) (holds : h.Holds p)
    (prompt : p.late = false) : (next env turn h p).2.late = false := by
  unfold next
  split
  · cases p <;> rfl
  cases p with
  | called request =>
    cases request with
    | refresh =>
      dsimp only [begin, beginRefresh]
      split
      · rfl
      split <;> rfl
    | logout =>
      dsimp only [begin, beginLogout]
      repeat' split
      all_goals rfl
    | logoutAll =>
      dsimp only [begin]
      split <;> rfl
  | holding token late =>
    dsimp only [examine]
    split
    · rfl
    split
    · rfl
    rename_i unrevoked
    split
    · rfl
    rename_i live
    cases late with
    | false => rfl
    | true =>
      obtain ⟨r, ended, selects⟩ := holds.2 rfl
      have stored := (Table.find?_eq_some_iff.mp holds.1).1
      exact absurd (stopped r ended token stored selects (not_not.mp unrevoked)) live
  | admitted =>
    dsimp only [entitle]
    split
    · rfl
    split
    · rfl
    split
    · rfl
    · exact prompt
  | entitled => exact prompt
  | loggingOut =>
    dsimp only
    split <;> rfl
  | revoking write =>
    cases write with
    | rotate => cases holds
    | _ => rfl
  | finishing =>
    dsimp only [commit]
    split <;> rfl
  | presenting | leaving | selecting | returned | aborted => rfl

/-- A point goes on to hold while its token is as it was and each session row is kept. -/
theorem holds_transfer {h' : TokenHistory} {p : TokenPoint}
    (found : ∀ token : RefreshToken, token.id ∈ p.tokenLocks →
      h.accounts.refreshTokens.find? token.id = some token →
        h'.accounts.refreshTokens.find? token.id = some token)
    (more : h.endings ⊆ h'.endings)
    (old : ∀ x' ∈ h'.accounts.sessions.rows, ∃ x ∈ h.accounts.sessions.rows, SessionKept x x')
    (new : ∀ x ∈ h.accounts.sessions.rows, ∃ x' ∈ h'.accounts.sessions.rows, SessionKept x x')
    (holds : h.Holds p) : h'.Holds p := by
  have unspent (token : RefreshToken) (locked : token.id ∈ p.tokenLocks)
      (before : h.Unspent token) : h'.Unspent token :=
    ⟨found token locked before.1, before.2⟩
  cases p with
  | holding token =>
    refine ⟨found token List.mem_cons_self holds.1, ?_⟩
    intro isLate
    obtain ⟨r, ended, selects⟩ := holds.2 isLate
    exact ⟨r, more ended, selects⟩
  | admitted token => exact unspent token List.mem_cons_self holds
  | entitled token => exact ⟨unspent token List.mem_cons_self holds.1, holds.2⟩
  | loggingOut =>
    obtain ⟨tenant, row, member, kept⟩ := holds
    obtain ⟨row', member', kept'⟩ := new row member
    exact ⟨tenant, row', member', kept.trans kept'⟩
  | finishing write tokens sessions =>
    cases write with
    | rotate token => exact ⟨unspent token List.mem_cons_self holds.1, holds.2⟩
    | _ =>
      intro r revokes x' member selected live
      obtain ⟨x, before, kept⟩ := old x' member
      rw [kept.id]
      exact holds r revokes x before (kept.selectsSession r ▸ selected) (kept.unrevoked live)
  | selecting | revoking => exact holds
  | called | presenting | leaving | returned | aborted => trivial

theorem holds_later {ids : List Uuid} {a' : Accounts} (later : Later ids h.accounts a')
    {endings : List Revocation} (more : h.endings ⊆ endings) (exchanged : List (Uuid × Bool))
    {p : TokenPoint} (apart : ∀ id ∈ p.tokenLocks, id ∉ ids) (holds : h.Holds p) :
    (TokenHistory.mk a' exchanged endings).Holds p :=
  holds_transfer (fun token locked before => later.find?_of (apart token.id locked) before) more
    (fun _ member => later.session_of member) (fun _ member => later.session_to member) holds

theorem holds_inserted {a a' : Accounts} {row : RefreshToken} {exchanged : List (Uuid × Bool)}
    {endings : List Revocation} (inserted : a.refreshTokens.insert? row = some a'.refreshTokens)
    (sessions : a'.sessions = a.sessions) {p : TokenPoint}
    (holds : (TokenHistory.mk a exchanged endings).Holds p) :
    (TokenHistory.mk a' exchanged endings).Holds p := by
  have same : ∀ x, x ∈ a'.sessions.rows ↔ x ∈ a.sessions.rows := by simp [sessions]
  refine holds_transfer (h := ⟨a, exchanged, endings⟩) (fun token _ before => ?_) (fun _ => id)
    (fun x member => ⟨x, (same x).mp member, .refl x⟩)
    (fun x member => ⟨x, (same x).mpr member, .refl x⟩) holds
  have other := Table.fresh_of_insert? inserted (Table.find?_eq_some_iff.mp before).1
  exact (Table.find?_of_insert? inserted _).trans ((if_neg other).trans before)

/-- A commit of an ending that leaves no token behind stops its family. -/
theorem stopped_of_ends {a' : Accounts} {write : TokenWrite} {tokens sessions : List Uuid}
    {r : Revocation} (wf : h.accounts.WellFormed)
    (holds : h.Holds (.finishing write tokens sessions))
    (committed : h.accounts.commitWrite env turn tokens sessions write = some a')
    (ends : write.ends = some r)
    (guard : ∀ t ∈ h.accounts.refreshTokens.rows, r.selects t = true → t.revokedAt = none →
      h.reaches tokens t write = true) :
    ∀ t ∈ a'.refreshTokens.rows, r.selects t = true → t.revokedAt = none →
      a'.sessionLive t = false := by
  have later : Later (write.heldTokens ++ tokens) h.accounts a' := by
    refine later_commitWrite committed ?_
    rintro token user late rfl
    cases ends
  intro t member selects live
  obtain ⟨before, old, kept⟩ := later.token_of member
  have same : t = before := kept.unrevoked live
  subst same
  have reached := guard t old selects live
  rw [Bool.eq_false_iff]
  intro sessionLive
  -- the two `UPDATE` statements have written every row that they selected
  have rows : ∀ (reason : String) (a : Accounts), write.revocation = some r →
      a' = a.revokeRows tokens sessions turn.now reason →
      (t.sessionId.isSome || decide (t.id ∈ tokens)) = true →
      (∀ x ∈ h.accounts.sessions.rows, r.selectsSession x = true → x.revokedAt = none →
        x.id ∈ sessions) → False := by
    intro reason a _ written found covers
    subst written
    have missed : t.id ∉ tokens := fun hit => token_revokeRows member hit live
    have linked : t.sessionId.isSome := by simpa [missed] using found
    obtain ⟨sessionId, named⟩ := Option.isSome_iff_exists.mp linked
    simp only [Accounts.sessionLive, named, Option.all_some, List.any_eq_true,
      decide_eq_true_eq] at sessionLive
    obtain ⟨x', stored, id, tenant, user, unrevoked⟩ := sessionLive
    obtain ⟨x, oldX, keptX⟩ := later.session_of stored
    have family : x.tokenFamilyId = t.tokenFamilyId := wf.linked t old x oldX
      (by rw [named, ← id, keptX.id]) (by rw [← keptX.tenantId, tenant])
    have chosen : r.selectsSession x = true := by
      simp only [Revocation.selects, Bool.and_eq_true, decide_eq_true_eq] at selects
      rw [← keptX.selectsSession r]
      simp only [Revocation.selectsSession, Bool.and_eq_true, decide_eq_true_eq]
      refine ⟨tenant.trans selects.1, ?_⟩
      have second := selects.2
      revert second
      cases r.scope with
      | family tokenFamilyId =>
        intro second
        rw [decide_eq_true_eq] at second ⊢
        rw [keptX.tokenFamilyId, family, second]
      | user =>
        intro second
        rw [decide_eq_true_eq] at second ⊢
        rw [user, second]
    have locked := covers x oldX chosen (keptX.unrevoked unrevoked)
    exact session_revokeRows stored (keptX.id ▸ locked) unrevoked
  cases write with
  | reuse | logoutSession | logoutAll =>
    cases committed
    exact rows _ _ ends rfl reached (holds r ends)
  | logoutToken auth token =>
    cases committed
    obtain rfl : _ = r := Option.some.inj ends
    simp only [reaches, Bool.or_eq_true, Bool.and_eq_true, decide_eq_true_eq,
      Bool.not_eq_true'] at reached
    simp only [Revocation.selects, Bool.and_eq_true, decide_eq_true_eq] at selects
    rcases reached with (own | ⟨some_, shared⟩) | gone
    · exact token_revokeToken member own live
    · obtain ⟨sessionId, named⟩ := Option.isSome_iff_exists.mp some_
      simp only [Accounts.sessionLive, named, Option.all_some, List.any_eq_true,
        decide_eq_true_eq] at sessionLive
      obtain ⟨x', stored, id, tenant, user, unrevoked⟩ := sessionLive
      obtain ⟨x, oldX, written⟩ := List.mem_map.mp stored
      have close : x.revokedAt = none ∧ x.id = x'.id ∧ x.tenantId = x'.tenantId := by
        rw [← written] at unrevoked ⊢
        split at unrevoked
        · cases unrevoked
        · rename_i missed
          rw [if_neg missed]
          exact ⟨unrevoked, rfl, rfl⟩
      refine session_revokeToken oldX ?_ ?_ close.1
      · rw [← shared, named, close.2.1, id]
      · rw [close.2.2, tenant, selects.1]
    · rw [later.sessionLive_of sessionLive] at gone
      cases gone
  | rotate | expire | inactive | logoutAccess => cases ends

end TokenHistory

/-- Calls of `refresh`, `logout` and `logout_all` that take their statements in turn. -/
abbrev TokenSystem := Interleaving.CallSystem TokenHistory TokenPoint

namespace TokenSystem

variable (env : AuthEnvironment)

def start (accounts : Accounts) (requests : List TokenRequest) : TokenSystem :=
  ⟨⟨accounts, [], []⟩, requests.map TokenPoint.called⟩

def step (s : TokenSystem) (turn : Nat × TokenTurn) : TokenSystem :=
  Interleaving.advance TokenPoint.excludes (TokenHistory.next env) s turn

/-- What every state of a run has. -/
structure Sound (s : TokenSystem) : Prop where
  wellFormed : s.shared.accounts.WellFormed
  exclusive : s.Exclusive TokenPoint.excludes
  holds : ∀ (i : Nat) (p : TokenPoint), s.calls[i]? = some p → s.shared.Holds p
  once : s.shared.ExchangedOnce
  spent : ∀ exchange ∈ s.shared.exchanged,
    exchange.1 ∈ s.shared.accounts.refreshTokens.rows.map RefreshToken.id ∧
      ∀ t ∈ s.shared.accounts.refreshTokens.rows, t.id = exchange.1 → t.revokedAt ≠ none

structure Settled (s : TokenSystem) : Prop where
  stopped : s.shared.Stopped
  prompt : ∀ p ∈ s.calls, p.late = false
  none_late : s.shared.NoneLate

def ReachesFamily (s : TokenSystem) (turn : Nat × TokenTurn) : Prop :=
  turn.2.aborts = false → ∀ p ∈ s.calls[turn.1]?, s.shared.CommitReaches p

variable {env} {s : TokenSystem} {turn : Nat × TokenTurn}

theorem holds_others (sound : s.Sound) {i : Nat} {p new : TokenPoint}
    (here : s.calls[i]? = some p) {h' : TokenHistory} (fresh : h'.Holds new)
    (keep : ∀ q, (∀ id ∈ q.tokenLocks, id ∉ p.tokenLocks) → s.shared.Holds q → h'.Holds q) :
    ∀ (j : Nat) (q : TokenPoint), (s.calls.set i new)[j]? = some q → h'.Holds q := by
  intro j q at_
  rcases (Interleaving.getElem?_set_iff here).mp at_ with ⟨_, rfl⟩ | ⟨other, old⟩
  · exact fresh
  · have apart := sound.exclusive i j p q (fun same => other same.symm) here old
    refine keep q ?_ (sound.holds j q old)
    intro id theirs mine
    exact TokenPoint.tokens_apart apart mine theirs

variable {a' : Accounts}

theorem sound_later (sound : s.Sound) {i : Nat} {p : TokenPoint} {error : Option ApiError}
    (here : s.calls[i]? = some p) (later : Later p.tokenLocks s.shared.accounts a')
    {endings : List Revocation} (more : s.shared.endings ⊆ endings)
    (exclusive : (Interleaving.CallSystem.mk (TokenHistory.mk a' s.shared.exchanged endings)
      (s.calls.set i (.returned error))).Exclusive TokenPoint.excludes) :
    Sound ⟨⟨a', s.shared.exchanged, endings⟩, s.calls.set i (.returned error)⟩ where
  wellFormed := later.wellFormed sound.wellFormed
  exclusive := exclusive
  holds := holds_others sound here trivial fun q apart before =>
    TokenHistory.holds_later later more _ apart before
  once := sound.once
  spent exchange member := by
    obtain ⟨stored, revoked⟩ := sound.spent exchange member
    refine ⟨by rw [later.ids_eq]; exact stored, ?_⟩
    intro t' inAfter same live
    obtain ⟨t, old, kept⟩ := later.token_of inAfter
    have unchanged : t' = t := kept.unrevoked live
    exact revoked t old (kept.id ▸ same) (unchanged ▸ live)

theorem wellFormed_of_insert {mid a' : Accounts} {row token : RefreshToken} (wf : mid.WellFormed)
    (inserted : mid.refreshTokens.insert? row = some a'.refreshTokens)
    (sessions : a'.sessions = mid.sessions)
    (alone : ∀ t ∈ mid.refreshTokens.rows, t.tenantId = row.tenantId →
      t.tokenFamilyId = row.tokenFamilyId → t.revokedAt ≠ none)
    (like : token ∈ mid.refreshTokens.rows ∨ ∃ t ∈ mid.refreshTokens.rows, TokenKept token t)
    (tenant : row.tenantId = token.tenantId) (session : row.sessionId = token.sessionId)
    (family : row.tokenFamilyId = token.tokenFamilyId) : a'.WellFormed where
  one_unrevoked t member u member' sameTenant sameFamily liveT liveU := by
    rcases (Table.mem_of_insert? inserted).mp member with old | rfl
    · rcases (Table.mem_of_insert? inserted).mp member' with old' | rfl
      · exact wf.one_unrevoked t old u old' sameTenant sameFamily liveT liveU
      · exact absurd liveT (alone t old sameTenant sameFamily)
    · rcases (Table.mem_of_insert? inserted).mp member' with old' | rfl
      · exact absurd liveU (alone u old' sameTenant.symm sameFamily.symm)
      · rfl
  one_session := by
    rw [sessions]
    exact wf.one_session
  linked t member x stored named sameTenant := by
    rw [sessions] at stored
    rcases (Table.mem_of_insert? inserted).mp member with old | rfl
    · exact wf.linked t old x stored named sameTenant
    · rw [family]
      rcases like with old | ⟨t, old, kept⟩
      · exact wf.linked token old x stored (session ▸ named) (tenant ▸ sameTenant)
      · rw [← kept.tokenFamilyId]
        refine wf.linked t old x stored ?_ ?_
        · rw [kept.sessionId, ← session]
          exact named
        · rw [kept.tenantId, ← tenant]
          exact sameTenant

theorem sound_rotated (sound : s.Sound) {i : Nat} {token : RefreshToken} {user : User}
    {late : Bool} {tokens sessions : List Uuid} {error : Option ApiError} {turn : TokenTurn}
    (here : s.calls[i]? = some (.finishing (.rotate token user late) tokens sessions))
    (committed : s.shared.accounts.commitWrite env turn tokens sessions (.rotate token user late) = some a')
    (exclusive : (Interleaving.CallSystem.mk
      (TokenHistory.mk a' ((token.id, late) :: s.shared.exchanged) s.shared.endings)
      (s.calls.set i (.returned error))).Exclusive TokenPoint.excludes) :
    Sound ⟨⟨a', (token.id, late) :: s.shared.exchanged, s.shared.endings⟩,
      s.calls.set i (.returned error)⟩ := by
  obtain ⟨⟨found, live⟩, owner⟩ := sound.holds i _ here
  obtain ⟨mid, row, later, spent, inserted, same, tenant, _, session, family⟩ :=
    rotated_of_commitWrite committed
  have stored : token ∈ s.shared.accounts.refreshTokens.rows := (Table.find?_eq_some_iff.mp found).1
  have midWf := later.wellFormed sound.wellFormed
  have ids : ∀ id, id ∈ s.shared.accounts.refreshTokens.rows.map RefreshToken.id →
      id ∈ mid.refreshTokens.rows.map RefreshToken.id ∧ id ≠ row.id := by
    intro id member
    rw [← later.ids_eq] at member
    refine ⟨member, ?_⟩
    obtain ⟨t, inMid, rfl⟩ := List.mem_map.mp member
    exact Table.fresh_of_insert? inserted inMid
  have after : ∀ id, id ∈ mid.refreshTokens.rows.map RefreshToken.id →
      id ∈ a'.refreshTokens.rows.map RefreshToken.id := by
    intro id member
    rw [Table.rows_of_insert? inserted, List.map_append]
    exact List.mem_append_left _ member
  have own := ids token.id (List.mem_map_of_mem stored)
  refine ⟨?_, exclusive, ?_, ?_, ?_⟩
  · obtain ⟨t, inMid, atToken⟩ := List.mem_map.mp own.1
    obtain ⟨before, old, kept⟩ := later.token_of inMid
    have isToken : before = token :=
      s.shared.accounts.refreshTokens.eq_of_key_eq old stored (kept.id.symm.trans atToken)
    refine wellFormed_of_insert midWf inserted same ?_ (.inr ⟨t, inMid, isToken ▸ kept⟩) tenant
      session family
    intro u inMid' sameTenant sameFamily liveU
    obtain ⟨before', old', kept'⟩ := later.token_of inMid'
    have unchanged : u = before' := kept'.unrevoked liveU
    subst unchanged
    have atToken' := sound.wellFormed.one_unrevoked u old' token stored (sameTenant.trans tenant)
      (sameFamily.trans family) liveU live
    exact spent u inMid' atToken' liveU
  · refine holds_others sound here trivial ?_
    intro q apart before
    have midHolds := TokenHistory.holds_later later (List.Subset.refl _)
      ((token.id, late) :: s.shared.exchanged) (p := q) ?_ before
    · exact TokenHistory.holds_inserted inserted same midHolds
    · intro id theirs mine
      refine apart id theirs ?_
      rw [List.mem_singleton.mp mine]
      exact List.mem_cons_self
  · refine List.nodup_cons.mpr ⟨?_, sound.once⟩
    intro again
    obtain ⟨exchange, member, atToken⟩ := List.mem_map.mp again
    exact (sound.spent exchange member).2 token stored atToken.symm live
  · intro exchange member
    rcases List.mem_cons.mp member with rfl | older
    · refine ⟨after _ own.1, ?_⟩
      intro t inAfter atToken
      rcases (Table.mem_of_insert? inserted).mp inAfter with inMid | rfl
      · exact spent t inMid atToken
      · exact absurd atToken.symm own.2
    · obtain ⟨known, revoked⟩ := sound.spent exchange older
      refine ⟨after _ (ids _ known).1, ?_⟩
      intro t inAfter atId
      rcases (Table.mem_of_insert? inserted).mp inAfter with inMid | rfl
      · intro liveT
        obtain ⟨before, old, kept⟩ := later.token_of inMid
        have unchanged : t = before := kept.unrevoked liveT
        exact revoked before old (unchanged ▸ atId) (unchanged ▸ liveT)
      · exact absurd atId.symm (ids _ known).2

theorem sound_step (sound : s.Sound) (turn : Nat × TokenTurn) : (step env s turn).Sound := by
  have exclusive : (step env s turn).Exclusive TokenPoint.excludes :=
    Interleaving.exclusive_advance _ _ TokenPoint.excludes_symm sound.exclusive turn
  rcases Interleaving.advance_cases TokenPoint.excludes (TokenHistory.next env) s turn with
    same | ⟨p, here, _, moved⟩
  · rw [step, same]
    exact sound
  rw [step, moved] at exclusive ⊢
  rcases TokenHistory.next_cases sound.wellFormed (sound.holds turn.1 p here) with
    ⟨kept, fresh⟩ | ⟨write, tokens, sessions, a', rfl, _, committed, next⟩
  · rw [kept] at exclusive ⊢
    exact ⟨sound.wellFormed, exclusive, holds_others sound here fresh fun q _ before => before,
      sound.once, sound.spent⟩
  · rw [next] at exclusive ⊢
    by_cases settles : ∀ token user late, write ≠ .rotate token user late
    · have nothing : write.exchange = none := by
        cases write with
        | rotate token user late => exact absurd rfl (settles token user late)
        | _ => rfl
      rw [nothing] at exclusive ⊢
      exact sound_later sound here (later_commitWrite committed settles)
        (List.subset_append_right _ _) exclusive
    · push Not at settles
      obtain ⟨token, user, late, rfl⟩ := settles
      exact sound_rotated sound here committed exclusive

theorem stopped_of_later {ids : List Uuid} {a a' : Accounts} (later : Later ids a a')
    {r : Revocation} (stopped : ∀ t ∈ a.refreshTokens.rows, r.selects t = true →
      t.revokedAt = none → a.sessionLive t = false) :
    ∀ t ∈ a'.refreshTokens.rows, r.selects t = true → t.revokedAt = none →
      a'.sessionLive t = false := by
  intro t' member selects live
  obtain ⟨t, old, kept⟩ := later.token_of member
  have unchanged : t' = t := kept.unrevoked live
  subst unchanged
  have gone := stopped t' old selects live
  rw [Bool.eq_false_iff] at gone ⊢
  exact fun sessionLive => gone (later.sessionLive_of sessionLive)

theorem stopped_of_rotated (sound : s.Sound) (settled : s.Settled) {i : Nat}
    {token : RefreshToken} {user : User} {late : Bool} {tokens sessions : List Uuid}
    {turn : TokenTurn}
    (here : s.calls[i]? = some (.finishing (.rotate token user late) tokens sessions))
    (committed : s.shared.accounts.commitWrite env turn tokens sessions (.rotate token user late) = some a') :
    ∀ r ∈ s.shared.endings, ∀ t ∈ a'.refreshTokens.rows, r.selects t = true →
      t.revokedAt = none → a'.sessionLive t = false := by
  obtain ⟨⟨found, live⟩, owner⟩ := sound.holds i _ here
  obtain ⟨mid, row, later, _, inserted, same, tenant, user_, session, family⟩ :=
    rotated_of_commitWrite committed
  have stored := (Table.find?_eq_some_iff.mp found).1
  have sameLive : ∀ t : RefreshToken, a'.sessionLive t = mid.sessionLive t := by
    intro t
    simp only [sessionLive, same]
  intro r ended t member selects unrevoked
  rw [sameLive]
  rcases (Table.mem_of_insert? inserted).mp member with old | rfl
  · exact stopped_of_later later (settled.stopped r ended) t old selects unrevoked
  · have selectsToken : r.selects token = true := by
      rw [← selects]
      simp only [Revocation.selects, tenant, family, user_, owner]
    have gone := settled.stopped r ended token stored selectsToken live
    have likeToken : mid.sessionLive t = mid.sessionLive token := by
      simp only [sessionLive, session, tenant, user_, owner]
    rw [likeToken]
    rw [Bool.eq_false_iff] at gone ⊢
    exact fun sessionLive => gone (later.sessionLive_of sessionLive)

theorem settled_step (sound : s.Sound) (settled : s.Settled) (guard : s.ReachesFamily turn) :
    (step env s turn).Settled := by
  rcases Interleaving.advance_cases TokenPoint.excludes (TokenHistory.next env) s turn with
    same | ⟨p, here, _, moved⟩
  · rw [step, same]
    exact settled
  have holds := sound.holds turn.1 p here
  have promptNew : (TokenHistory.next env turn.2 s.shared p).2.late = false :=
    TokenHistory.late_next settled.stopped holds
      (settled.prompt p (List.mem_of_getElem? here))
  have prompt : ∀ q ∈ s.calls.set turn.1 (TokenHistory.next env turn.2 s.shared p).2,
      q.late = false := by
    intro q member
    rcases List.mem_or_eq_of_mem_set member with old | rfl
    · exact settled.prompt q old
    · exact promptNew
  rw [step, moved]
  rcases TokenHistory.next_cases sound.wellFormed holds with
    ⟨kept, _⟩ | ⟨write, tokens, sessions, a', rfl, aborts, committed, next⟩
  · exact ⟨by rw [kept]; exact settled.stopped, prompt, by rw [kept]; exact settled.none_late⟩
  · refine ⟨?_, prompt, ?_⟩
    · rw [next]
      intro r member
      rcases List.mem_append.mp member with new | old
      · have ends : write.ends = some r := Option.mem_toList.mp new
        exact TokenHistory.stopped_of_ends sound.wellFormed holds committed ends
          (guard aborts _ here r ends)
      · by_cases settles : ∀ token user late, write ≠ .rotate token user late
        · exact stopped_of_later (later_commitWrite committed settles) (settled.stopped r old)
        · push Not at settles
          obtain ⟨token, user, late, rfl⟩ := settles
          exact stopped_of_rotated sound settled here committed r old
    · rw [next]
      intro exchange member
      rcases List.mem_append.mp member with new | old
      · have own := settled.prompt _ (List.mem_of_getElem? here)
        cases write with
        | rotate token user late =>
          obtain rfl : (token.id, late) = exchange := Option.some.inj (Option.mem_toList.mp new)
          exact own
        | _ => cases new
      · exact settled.none_late exchange old

theorem sound_start {accounts : Accounts} (wf : accounts.WellFormed)
    (requests : List TokenRequest) : (start accounts requests).Sound := by
  have called : ∀ (i : Nat) (p : TokenPoint), (start accounts requests).calls[i]? = some p →
      ∃ request, p = .called request := by
    intro i p at_
    obtain ⟨request, _, rfl⟩ := List.mem_map.mp (List.mem_of_getElem? at_)
    exact ⟨request, rfl⟩
  refine ⟨wf, ?_, ?_, List.nodup_nil, ?_⟩
  · intro i j p q _ atI atJ
    obtain ⟨request, rfl⟩ := called i p atI
    rfl
  · intro i p at_
    obtain ⟨request, rfl⟩ := called i p at_
    trivial
  · intro exchange member
    cases member

theorem settled_start (accounts : Accounts) (requests : List TokenRequest) :
    (start accounts requests).Settled := by
  refine ⟨?_, ?_, ?_⟩
  · intro r member
    cases member
  · intro p member
    obtain ⟨request, _, rfl⟩ := List.mem_map.mp member
    rfl
  · intro exchange member
    cases member

/-- In every run each token is exchanged at most once and a family has at most one unrevoked token.
In every run whose endings reach each unrevoked token of their family, no refresh that begins after
an ending exchanges a token of that family. -/
theorem refresh_tokens_form_a_chain (env : AuthEnvironment) {accounts : Accounts}
    (wf : accounts.WellFormed) (requests : List TokenRequest) (turns : List (Nat × TokenTurn)) :
    (∀ s ∈ trace (step env) (start accounts requests) turns,
      s.shared.ExchangedOnce ∧ s.shared.accounts.OneUnrevoked) ∧
      (Guarded ReachesFamily (step env) (start accounts requests) turns →
        ∀ s ∈ trace (step env) (start accounts requests) turns, s.shared.NoneLate) := by
  constructor
  · have sound : ∀ s ∈ trace (step env) (start accounts requests) turns, Sound s :=
      invariant_of_keeps (I := Sound) (fun s turn before => sound_step before turn)
        (sound_start wf requests) turns
    intro s member
    exact ⟨(sound s member).once, (sound s member).wellFormed.one_unrevoked⟩
  · intro guarded
    have both : ∀ s ∈ trace (step env) (start accounts requests) turns, Sound s ∧ Settled s :=
      invariant_of_guarded (I := fun s => Sound s ∧ Settled s) (fun s turn before reaches =>
        ⟨sound_step before.1 turn, settled_step before.1 before.2 reaches⟩)
        ⟨sound_start wf requests, settled_start accounts requests⟩ guarded
    exact fun s member => (both s member).2.none_late

instance (h : TokenHistory) : ∀ p : TokenPoint, Decidable (h.CommitReaches p)
  | .finishing .. => by dsimp only [TokenHistory.CommitReaches]; infer_instance
  | .called _ | .holding .. | .admitted .. | .entitled .. | .loggingOut .. | .presenting ..
  | .leaving .. | .selecting .. | .revoking .. | .returned _ | .aborted => .isTrue trivial

instance (s : TokenSystem) (turn : Nat × TokenTurn) : Decidable (s.ReachesFamily turn) := by
  delta ReachesFamily
  infer_instance

def oneTenant : AuthEnvironment where
  settings := ⟨15, 7, 5, 15, []⟩
  lower name := name
  parseUuid _ := some 1
  verifyPassword _ _ := false
  verifyTotp _ _ _ := false
  hashBackupCode code := code
  hashRefreshToken token := token

def rawTokenA : String := "1.aaaaaaaaaaaaaaaaaaaaaaaaaaaaaaaa"
def rawTokenB : String := "1.bbbbbbbbbbbbbbbbbbbbbbbbbbbbbbbb"
def rawTokenC : String := "1.cccccccccccccccccccccccccccccccc"
def rawTokenD : String := "1.dddddddddddddddddddddddddddddddd"

/-- A family without session ids: its first token is rotated, its second one is not. -/
def legacyFamily : Accounts where
  tenants := [1]
  users := .single ⟨1, 1, "ann@corp", "pw", true, 0, none, none, 0, none, false, []⟩
  roles := .single ⟨1, "user"⟩
  userRoles := [⟨1, 1, 1⟩]
  sessions := .empty
  refreshTokens := ⟨
    [ ⟨10, 1, 1, none, rawTokenA, 5, 1000, some 0, some 0, some "rotated"⟩
    , ⟨11, 1, 1, none, rawTokenB, 5, 1000, none, none, none⟩ ], by decide⟩
  revokedAccessTokens := []
  signedTokens := []
  pendingTokens := []

theorem wellFormed_legacyFamily : legacyFamily.WellFormed where
  one_unrevoked := by decide
  one_session x member := by cases member
  linked t _ x member := by cases member

/-- Call `i` takes `n` statements; a rotation draws the row id and the raw token. -/
def statements (i n : Nat) (rowId : Uuid) (raw : String) : List (Nat × TokenTurn) :=
  List.replicate n (i, ⟨10, ⟨0, 0, "jti", rowId, raw⟩, false⟩)

/-- The second token is exchanged and then presented again; the third one is refused. -/
theorem reuse_ends_legacy_family :
    Guarded ReachesFamily (step oneTenant)
        (start legacyFamily [.refresh rawTokenB, .refresh rawTokenB, .refresh rawTokenC])
        (statements 0 5 12 rawTokenC ++ statements 1 5 13 rawTokenD ++
          statements 2 5 14 rawTokenD) ∧
      ∀ s ∈ trace (step oneTenant)
          (start legacyFamily [.refresh rawTokenB, .refresh rawTokenB, .refresh rawTokenC])
          (statements 0 5 12 rawTokenC ++ statements 1 5 13 rawTokenD ++
            statements 2 5 14 rawTokenD),
        s.shared.NoneLate :=
  have guarded : Guarded ReachesFamily (step oneTenant)
      (start legacyFamily [.refresh rawTokenB, .refresh rawTokenB, .refresh rawTokenC])
      (statements 0 5 12 rawTokenC ++ statements 1 5 13 rawTokenD ++
        statements 2 5 14 rawTokenD) := by decide +kernel
  ⟨guarded, (refresh_tokens_form_a_chain oneTenant wellFormed_legacyFamily _ _).2 guarded⟩

/-- The `UPDATE` of a reuse detection starts before an open refresh commits the successor, and the
successor is exchanged after the reuse detection has committed. -/
theorem successor_outlives_reuse_detection :
    ¬ ∀ (env : AuthEnvironment) (accounts : Accounts) (requests : List TokenRequest)
        (turns : List (Nat × TokenTurn)), accounts.WellFormed →
      ∀ s ∈ trace (step env) (start accounts requests) turns,
        s.shared.ExchangedOnce ∧ s.shared.accounts.OneUnrevoked ∧ s.shared.NoneLate := by
  intro always
  let requests : List TokenRequest := [.refresh rawTokenA, .refresh rawTokenB, .refresh rawTokenC]
  let turns := statements 1 4 12 rawTokenC ++ statements 0 2 13 rawTokenD ++
    statements 1 1 12 rawTokenC ++ statements 0 3 13 rawTokenD ++ statements 2 5 14 rawTokenD
  have late : ¬ (run (step oneTenant) (start legacyFamily requests) turns).shared.NoneLate := by
    decide +kernel
  exact late (always oneTenant legacyFamily requests turns wellFormed_legacyFamily _
    (run_mem_trace _ _ turns)).2.2

end TokenSystem

end AverQel.Auth
