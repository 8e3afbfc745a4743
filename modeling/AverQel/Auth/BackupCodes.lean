/- digest: Concurrent second factors of one account, and the backup codes that they use up. -/
import AverQel.Auth.Accounts
import AverQel.Foundation.Interleaving

namespace AverQel.Auth

open Foundation Transition Accounts

/-- The point that a `verify_totp_login` call has reached; `used` is the hash of the backup code
that it has taken out of the list in memory. -/
inductive SecondFactorPoint where
  | called (pending : PendingClaims) (code : String)
  /-- The user row is read. -/
  | loaded (pending : PendingClaims) (user : User) (secret code : String)
  /-- The code is right and the user has roles; the commit follows. -/
  | matched (pending : PendingClaims) (user : User) (used : Option String) (roles : Finset String)
  /-- `_record_auth_failure` commits before the call raises. -/
  | refused (user : User) (used : Option String) (error : ApiError)
  | returned
  | raised (error : Option ApiError)

namespace SecondFactorPoint

def hasRaised : SecondFactorPoint → Bool
  | raised _ => true
  | _ => false

def finished : SecondFactorPoint → Bool
  | returned | raised _ => true
  | _ => false

end SecondFactorPoint

structure SecondFactorHistory where
  accounts : Accounts
  accepted : List (Uuid × String)

structure SecondFactorTurn where
  now : Time
  fresh : Fresh

namespace Accounts

variable (env : AuthEnvironment) (s : Accounts)

def storedCodes : List (Uuid × List String) :=
  s.users.rows.map fun user => (user.id, user.totpBackupCodes)

/-- The write of `_use_backup_code`: the list that the call has read, less the code. -/
def writeCodes (user : User) : Option String → Accounts
  | none => s
  | some codeHash => s.modifyUser user.id (fun row =>
      { row with totpBackupCodes := user.totpBackupCodes.erase codeHash }) (fun _ => rfl)

end Accounts

namespace SecondFactorHistory

variable (env : AuthEnvironment) (h : SecondFactorHistory)

/-- The pending token, and the user that it names. -/
def load (pending : PendingClaims) (code : String) (now : Time) : SecondFactorPoint :=
  if pending ∉ h.accounts.pendingTokens then
    .raised (some ⟨"INVALID_2FA_TOKEN", "Invalid two-factor authentication token.", 401⟩)
  else if pending.exp * 1000000 ≤ now then
    .raised (some ⟨"2FA_TOKEN_EXPIRED",
      "Two-factor authentication token has expired. Please log in again.", 401⟩)
  else
    match (h.accounts.getUserById pending.tenantId pending.sub).filter User.isActive with
    | none => .raised (some ⟨"USER_NOT_FOUND", "User not found or inactive.", 401⟩)
    | some user =>
      match Text.nonempty user.totpSecret with
      | none => .raised (some ⟨"2FA_NOT_ENABLED",
          "Two-factor authentication is not enabled for this account.", 400⟩)
      | some secret =>
        if user.totpEnabled = false then .raised (some ⟨"2FA_NOT_ENABLED",
          "Two-factor authentication is not enabled for this account.", 400⟩)
        else .loaded pending user secret code

def usedCode (user : User) (secret code : String) (now : Time) : Option String :=
  let codeHash := env.hashBackupCode (Text.strip code)
  if env.verifyTotp secret code now = false ∧ codeHash ∈ user.totpBackupCodes then some codeHash
  else none

/-- The code, and then the roles of the user. -/
def check (pending : PendingClaims) (user : User) (secret code : String) (now : Time) :
    SecondFactorPoint :=
  let used := usedCode env user secret code now
  let roleNames := h.accounts.getRoleNamesForUser env pending.tenantId user.id
  if env.verifyTotp secret code now = false ∧ used = none then
    .refused user none ⟨"INVALID_TOTP_CODE", "Invalid two-factor authentication code.", 401⟩
  else if roleNames = ∅ then .refused user used roleAssignmentRequired
  else .matched pending user used roleNames

def next (turn : SecondFactorTurn) (h : SecondFactorHistory) :
    SecondFactorPoint → SecondFactorHistory × SecondFactorPoint
  | .called pending code => (h, h.load pending code turn.now)
  | .loaded pending user secret code => (h, h.check env pending user secret code turn.now)
  | .refused user used error =>
    ({ h with accounts := h.accounts.writeCodes user used }, .raised (some error))
  | .matched pending user used roles =>
    match (h.accounts.writeCodes user used).openSession env user pending.tenantId roles true
        turn.fresh turn.now with
    | .error _ => (h, .raised none)
    | .ok (accounts, _) =>
      (⟨accounts, (used.map fun codeHash => (user.id, codeHash)).toList ++ h.accepted⟩, .returned)
  | .returned => (h, .returned)
  | .raised error => (h, .raised error)

end SecondFactorHistory

/-- Calls of `verify_totp_login` that take their steps in turn; no row is locked. -/
abbrev SecondFactorSystem := Interleaving.CallSystem SecondFactorHistory SecondFactorPoint

namespace SecondFactorSystem

variable (env : AuthEnvironment)

def start (accounts : Accounts) (requests : List (PendingClaims × String)) : SecondFactorSystem :=
  ⟨⟨accounts, []⟩, requests.map fun request => .called request.1 request.2⟩

def step (s : SecondFactorSystem) (turn : Nat × SecondFactorTurn) : SecondFactorSystem :=
  Interleaving.advance (fun _ _ => false) (SecondFactorHistory.next env) s turn

def Finished (s : SecondFactorSystem) : Prop :=
  ∀ p ∈ s.calls, p.finished = true

def AcceptedOnce (s : SecondFactorSystem) : Prop := s.shared.accepted.Nodup

def AcceptedGone (s : SecondFactorSystem) : Prop :=
  ∀ accepted ∈ s.shared.accepted, ∀ stored ∈ s.shared.accounts.storedCodes,
    stored.1 = accepted.1 → accepted.2 ∉ stored.2

def RaisesClean (s : SecondFactorSystem) (turn : Nat × SecondFactorTurn) : Prop :=
  ∀ p ∈ s.calls[turn.1]?, (SecondFactorHistory.next env turn.2 s.shared p).2.hasRaised = true →
    (SecondFactorHistory.next env turn.2 s.shared p).1.accounts.storedCodes =
      s.shared.accounts.storedCodes

/-- A call that matches a backup code belongs to a user with roles, and when it commits, the
stored list is still the one that it has read. -/
def Undisturbed (h : SecondFactorHistory) (turn : SecondFactorTurn) : SecondFactorPoint → Prop
  | .loaded pending user secret code =>
    (SecondFactorHistory.usedCode env user secret code turn.now).isSome →
      h.accounts.getRoleNamesForUser env pending.tenantId user.id ≠ ∅
  | .matched _ user used _ => used.isSome →
      (h.accounts.users.find? user.id).map User.totpBackupCodes = some user.totpBackupCodes
  | _ => True

def UndisturbedTurn (s : SecondFactorSystem) (turn : Nat × SecondFactorTurn) : Prop :=
  ∀ p ∈ s.calls[turn.1]?, Undisturbed env s.shared turn.2 p

/-- What the undisturbed turns keep. -/
structure Sound (s : SecondFactorSystem) : Prop where
  distinct : ∀ stored ∈ s.shared.accounts.storedCodes, stored.2.Nodup
  once : s.AcceptedOnce
  gone : s.AcceptedGone
  refused : ∀ (user : User) (used : Option String) (error : ApiError),
    SecondFactorPoint.refused user used error ∈ s.calls → used = none
  matched : ∀ (pending : PendingClaims) (user : User) (codeHash : String) (roles : Finset String),
    SecondFactorPoint.matched pending user (some codeHash) roles ∈ s.calls →
      codeHash ∈ user.totpBackupCodes

variable {env} {s : SecondFactorSystem} {turn : Nat × SecondFactorTurn}

theorem storedCodes_registerSuccessfulLogin (a : Accounts) (userId : Uuid) (now : Time) :
    (a.registerSuccessfulLogin userId now).storedCodes = a.storedCodes := by
  show ((a.users.rows.map _).map _) = a.users.rows.map _
  rw [List.map_map]
  refine List.map_congr_left fun user _ => ?_
  simp only [Function.comp_apply]
  split <;> rfl

theorem storedCodes_openSession {a a' : Accounts} {user : User} {tenantId : Uuid}
    {roles : Finset String} {mfaVerified : Bool} {fresh : Fresh} {now : Time} {result : LoginResult}
    (opened : a.openSession env user tenantId roles mfaVerified fresh now = .ok (a', result)) :
    a'.storedCodes = a.storedCodes := by
  rw [← storedCodes_registerSuccessfulLogin a user.id now]
  simp only [storedCodes, (openSession_eq_ok opened).1]

theorem mem_storedCodes_writeCodes {a : Accounts} {user : User} {codeHash : String}
    {stored : Uuid × List String}
    (written : stored ∈ (a.writeCodes user (some codeHash)).storedCodes) :
    stored = (user.id, user.totpBackupCodes.erase codeHash) ∨
      (stored.1 ≠ user.id ∧ stored ∈ a.storedCodes) := by
  obtain ⟨row, member, rfl⟩ := List.mem_map.mp written
  have mapped : row ∈ a.users.rows.map (fun before => if before.id = user.id then
      { before with totpBackupCodes := user.totpBackupCodes.erase codeHash } else before) := member
  obtain ⟨before, old, rewritten⟩ := List.mem_map.mp mapped
  by_cases own : before.id = user.id
  · rw [if_pos own] at rewritten
    rw [← rewritten]
    exact .inl (Prod.ext own rfl)
  · rw [if_neg own] at rewritten
    subst rewritten
    exact .inr ⟨own, List.mem_map_of_mem old⟩

theorem mem_usedCode {user : User} {secret code codeHash : String} {now : Time}
    (used : SecondFactorHistory.usedCode env user secret code now = some codeHash) :
    codeHash ∈ user.totpBackupCodes := by
  simp only [SecondFactorHistory.usedCode] at used
  split at used
  · rename_i found
    cases used
    exact found.2
  · cases used

theorem check_cases (h : SecondFactorHistory) (pending : PendingClaims) (user : User)
    (secret code : String) (now : Time) :
    (∃ error, h.check env pending user secret code now =
        .refused user (SecondFactorHistory.usedCode env user secret code now) error ∧
        ((SecondFactorHistory.usedCode env user secret code now).isSome →
          h.accounts.getRoleNamesForUser env pending.tenantId user.id = ∅)) ∨
      ∃ roles, h.check env pending user secret code now =
        .matched pending user (SecondFactorHistory.usedCode env user secret code now) roles := by
  simp only [SecondFactorHistory.check]
  split
  · rename_i refused
    rw [refused.2]
    exact .inl ⟨_, rfl, fun some_ => by cases some_⟩
  split
  · rename_i none_
    exact .inl ⟨_, rfl, fun _ => none_⟩
  · exact .inr ⟨_, rfl⟩

theorem sound_of_same (sound : s.Sound) {p new : SecondFactorPoint}
    (here : s.calls[turn.1]? = some p)
    (refused : ∀ user used error, new = .refused user used error → used = none)
    (matched : ∀ pending user codeHash roles, new = .matched pending user (some codeHash) roles →
      codeHash ∈ user.totpBackupCodes) :
    Sound ⟨s.shared, s.calls.set turn.1 new⟩ where
  distinct := sound.distinct
  once := sound.once
  gone := sound.gone
  refused user used error member := by
    rcases List.mem_or_eq_of_mem_set member with old | same
    · exact sound.refused user used error old
    · exact refused user used error same.symm
  matched pending user codeHash roles member := by
    rcases List.mem_or_eq_of_mem_set member with old | same
    · exact sound.matched pending user codeHash roles old
    · exact matched pending user codeHash roles same.symm

theorem load_cases (h : SecondFactorHistory) (pending : PendingClaims) (code : String)
    (now : Time) :
    (∃ error, h.load pending code now = .raised error) ∨
      ∃ user secret, h.load pending code now = .loaded pending user secret code := by
  unfold SecondFactorHistory.load
  repeat' split
  all_goals first
    | exact .inl ⟨_, rfl⟩
    | exact .inr ⟨_, _, rfl⟩

theorem sound_accepted (sound : s.Sound) {pending : PendingClaims} {user : User}
    {codeHash : String} {roles : Finset String} {a' : Accounts}
    (here : s.calls[turn.1]? = some (.matched pending user (some codeHash) roles))
    (unchanged : (s.shared.accounts.users.find? user.id).map User.totpBackupCodes =
      some user.totpBackupCodes)
    (codes : a'.storedCodes = (s.shared.accounts.writeCodes user (some codeHash)).storedCodes) :
    Sound ⟨⟨a', (user.id, codeHash) :: s.shared.accepted⟩, s.calls.set turn.1 .returned⟩ := by
  have listed := sound.matched pending user codeHash roles (List.mem_of_getElem? here)
  obtain ⟨row, found, same⟩ := Option.map_eq_some_iff.mp unchanged
  obtain ⟨stored, own⟩ := Table.find?_eq_some_iff.mp found
  have current : (user.id, user.totpBackupCodes) ∈ s.shared.accounts.storedCodes :=
    List.mem_map.mpr ⟨row, stored, Prod.ext own same⟩
  refine ⟨?_, ?_, ?_, ?_, ?_⟩
  · intro after member
    have written : after ∈ (s.shared.accounts.writeCodes user (some codeHash)).storedCodes :=
      codes ▸ member
    rcases mem_storedCodes_writeCodes written with rfl | ⟨_, old⟩
    · exact (sound.distinct _ current).erase codeHash
    · exact sound.distinct after old
  · refine List.nodup_cons.mpr ⟨?_, sound.once⟩
    intro again
    exact sound.gone _ again _ current rfl listed
  · intro accepted member after stored' sameUser
    have written : after ∈ (s.shared.accounts.writeCodes user (some codeHash)).storedCodes :=
      codes ▸ stored'
    rcases List.mem_cons.mp member with rfl | older
    · rcases mem_storedCodes_writeCodes written with rfl | ⟨other, _⟩
      · exact (sound.distinct _ current).not_mem_erase
      · exact absurd sameUser other
    · rcases mem_storedCodes_writeCodes written with rfl | ⟨_, old⟩
      · intro still
        exact sound.gone accepted older _ current sameUser (List.mem_of_mem_erase still)
      · exact sound.gone accepted older after old sameUser
  · intro user' used error member
    rcases List.mem_or_eq_of_mem_set member with old | same'
    · exact sound.refused user' used error old
    · cases same'
  · intro pending' user' codeHash' roles' member
    rcases List.mem_or_eq_of_mem_set member with old | same'
    · exact sound.matched pending' user' codeHash' roles' old
    · cases same'

theorem sound_of_codes (sound : s.Sound) {a' : Accounts}
    (codes : a'.storedCodes = s.shared.accounts.storedCodes) :
    Sound ⟨⟨a', s.shared.accepted⟩, s.calls⟩ where
  distinct := by
    show ∀ stored ∈ a'.storedCodes, _
    rw [codes]
    exact sound.distinct
  once := sound.once
  gone := by
    show ∀ accepted ∈ s.shared.accepted, ∀ stored ∈ a'.storedCodes, _
    rw [codes]
    exact sound.gone
  refused := sound.refused
  matched := sound.matched

theorem sound_step (sound : s.Sound) (guard : UndisturbedTurn env s turn) :
    (step env s turn).Sound := by
  cases here : s.calls[turn.1]? with
  | none =>
    rw [step, Interleaving.advance_of_none _ _ here]
    exact sound
  | some p =>
    rw [step, Interleaving.advance_of_free _ _ here (Interleaving.blocked_of_lockFree _ _ _)]
    have undisturbed := guard p here
    cases p with
    | called pending code =>
      simp only [SecondFactorHistory.next]
      rcases load_cases s.shared pending code turn.2.now with ⟨error, raised⟩ | ⟨user, secret, loaded⟩
      · rw [raised]
        exact sound_of_same sound here (fun _ _ _ same => by cases same)
          (fun _ _ _ _ same => by cases same)
      · rw [loaded]
        exact sound_of_same sound here (fun _ _ _ same => by cases same)
          (fun _ _ _ _ same => by cases same)
    | loaded pending user secret code =>
      simp only [SecondFactorHistory.next]
      have outcome : _ ∨ ∃ roles, s.shared.check env pending user secret code turn.2.now = _ :=
        check_cases s.shared pending user secret code turn.2.now
      rcases outcome with ⟨error, refused, noRoles⟩ | ⟨roles, matched⟩
      · rw [refused]
        refine sound_of_same sound here ?_ (fun _ _ _ _ same => by cases same)
        rintro user' used error' same
        cases same
        by_contra some_
        have used := Option.isSome_iff_ne_none.mpr some_
        exact undisturbed used (noRoles used)
      · rw [matched]
        refine sound_of_same sound here (fun _ _ _ same => by cases same) ?_
        intro pending' user' codeHash roles' same
        injection same with _ sameUser used _
        rw [← sameUser]
        exact mem_usedCode used
    | matched pending user used roles =>
      simp only [SecondFactorHistory.next]
      split
      · exact sound_of_same sound here (fun _ _ _ same => by cases same)
          (fun _ _ _ _ same => by cases same)
      · rename_i a' result opened
        have codes := storedCodes_openSession opened
        cases used with
        | some => exact sound_accepted sound here (undisturbed rfl) codes
        | none =>
          exact sound_of_same (sound_of_codes sound codes) here (fun _ _ _ same => by cases same)
            (fun _ _ _ _ same => by cases same)
    | refused user used error =>
      simp only [SecondFactorHistory.next]
      rw [sound.refused user used error (List.mem_of_getElem? here)]
      exact sound_of_same sound here (fun _ _ _ same => by cases same)
        (fun _ _ _ _ same => by cases same)
    | returned | raised =>
      exact sound_of_same sound here (fun _ _ _ same => by cases same)
        (fun _ _ _ _ same => by cases same)

theorem raisesClean_of_sound (sound : s.Sound) : RaisesClean env s turn := by
  intro p here raises
  cases p with
  | called | loaded => rfl
  | matched =>
    simp only [SecondFactorHistory.next] at raises ⊢
    split at raises
    · rfl
    · cases raises
  | refused user used error =>
    simp only [SecondFactorHistory.next]
    rw [sound.refused user used error (List.mem_of_getElem? here)]
    rfl
  | returned | raised => rfl

theorem sound_start {accounts : Accounts}
    (distinct : ∀ stored ∈ accounts.storedCodes, stored.2.Nodup)
    (requests : List (PendingClaims × String)) : (start accounts requests).Sound := by
  have called : ∀ p ∈ (start accounts requests).calls, ∃ pending code, p = .called pending code := by
    intro p member
    obtain ⟨request, _, rfl⟩ := List.mem_map.mp member
    exact ⟨request.1, request.2, rfl⟩
  refine ⟨distinct, List.nodup_nil, ?_, ?_, ?_⟩
  · intro accepted member
    cases member
  · intro user used error member
    obtain ⟨_, _, same⟩ := called _ member
    cases same
  · intro pending user codeHash roles member
    obtain ⟨_, _, same⟩ := called _ member
    cases same

/-- In every run of undisturbed turns each backup code lets one call return a session, an accepted
code is gone from the list, and a call that raises leaves the lists as they were. -/
theorem backup_codes_used_once (env : AuthEnvironment) {accounts : Accounts}
    (distinct : ∀ stored ∈ accounts.storedCodes, stored.2.Nodup)
    (requests : List (PendingClaims × String)) (turns : List (Nat × SecondFactorTurn))
    (undisturbed : Guarded (UndisturbedTurn env) (step env) (start accounts requests) turns) :
    (∀ s ∈ trace (step env) (start accounts requests) turns, s.AcceptedOnce ∧ s.AcceptedGone) ∧
      Guarded (RaisesClean env) (step env) (start accounts requests) turns := by
  have keep : ∀ s turn, Sound s → UndisturbedTurn env s turn → (step env s turn).Sound :=
    fun s turn sound guard => sound_step sound guard
  have first := sound_start distinct requests
  constructor
  · intro s member
    have sound := invariant_of_guarded keep first undisturbed s member
    exact ⟨sound.once, sound.gone⟩
  · refine guarded_mono_of_guarded keep ?_ first undisturbed undisturbed
    intro s turn sound _ _
    exact raisesClean_of_sound sound

instance (s : SecondFactorSystem) : Decidable s.Finished :=
  inferInstanceAs (Decidable (∀ p ∈ s.calls, _ = true))

instance (s : SecondFactorSystem) : Decidable s.AcceptedOnce :=
  inferInstanceAs (Decidable (List.Nodup _))

instance (s : SecondFactorSystem) : Decidable s.AcceptedGone := by
  delta AcceptedGone
  infer_instance

instance (env : AuthEnvironment) (s : SecondFactorSystem) (turn : Nat × SecondFactorTurn) :
    Decidable (RaisesClean env s turn) := by
  delta RaisesClean
  infer_instance

instance (env : AuthEnvironment) (h : SecondFactorHistory) (turn : SecondFactorTurn) :
    ∀ p : SecondFactorPoint, Decidable (Undisturbed env h turn p)
  | .loaded .. => inferInstanceAs (Decidable (_ → _ ≠ ∅))
  | .matched _ _ used _ => inferInstanceAs (Decidable (used.isSome → _ = some _))
  | .called .. | .refused .. | .returned | .raised _ => .isTrue trivial

instance (env : AuthEnvironment) (s : SecondFactorSystem) (turn : Nat × SecondFactorTurn) :
    Decidable (UndisturbedTurn env s turn) :=
  inferInstanceAs (Decidable (∀ p ∈ s.calls[turn.1]?, _))

def codesOnly : AuthEnvironment where
  settings := ⟨15, 7, 5, 15, []⟩
  lower name := name
  parseUuid _ := none
  verifyPassword _ _ := false
  verifyTotp _ _ _ := false
  hashBackupCode code := code
  hashRefreshToken token := token

/-- User 1 has the backup codes `a` and `b` and two pending tokens. -/
def twoCodes (userRoles : List UserRole) : Accounts where
  tenants := [1]
  users := .single ⟨1, 1, "ann@corp", "pw", true, 0, none, none, 0, some "secret", true, ["a", "b"]⟩
  roles := .single ⟨1, "user"⟩
  userRoles := userRoles
  sessions := .empty
  refreshTokens := .empty
  revokedAccessTokens := []
  signedTokens := []
  pendingTokens := [⟨1, 1, 300⟩]

/-- The three steps of call `i`; its session and its token take the ids `id`. -/
def steps (i n : Nat) (id : Uuid) : List (Nat × SecondFactorTurn) :=
  List.replicate n (i, ⟨0, ⟨id, id, "jti", id, "raw"⟩⟩)

/-- The two codes one after the other. -/
theorem both_codes_used_once :
    Guarded (UndisturbedTurn codesOnly) (step codesOnly)
        (start (twoCodes [⟨1, 1, 1⟩]) [(⟨1, 1, 300⟩, "a"), (⟨1, 1, 300⟩, "b")])
        (steps 0 3 5 ++ steps 1 3 6) ∧
      ∀ s ∈ trace (step codesOnly)
          (start (twoCodes [⟨1, 1, 1⟩]) [(⟨1, 1, 300⟩, "a"), (⟨1, 1, 300⟩, "b")])
          (steps 0 3 5 ++ steps 1 3 6), s.AcceptedOnce ∧ s.AcceptedGone :=
  have guarded : Guarded (UndisturbedTurn codesOnly) (step codesOnly)
      (start (twoCodes [⟨1, 1, 1⟩]) [(⟨1, 1, 300⟩, "a"), (⟨1, 1, 300⟩, "b")])
      (steps 0 3 5 ++ steps 1 3 6) := by decide +kernel
  ⟨guarded, (backup_codes_used_once codesOnly (by decide) _ _ guarded).1⟩

/-- Two calls that both read before either commits: with one code both return a session, with two
codes the second commit brings the first code back. A call of a user without roles raises and
still uses up its code. -/
theorem overlapping_calls_share_a_code :
    (¬ ∀ (requests : List (PendingClaims × String)) (turns : List (Nat × SecondFactorTurn)),
      ∀ s ∈ trace (step codesOnly) (start (twoCodes [⟨1, 1, 1⟩]) requests) turns,
        s.AcceptedOnce) ∧
    (¬ ∀ (requests : List (PendingClaims × String)) (turns : List (Nat × SecondFactorTurn)),
      ∀ s ∈ trace (step codesOnly) (start (twoCodes [⟨1, 1, 1⟩]) requests) turns,
        s.Finished → s.AcceptedGone) ∧
    ¬ ∀ (requests : List (PendingClaims × String)) (turns : List (Nat × SecondFactorTurn)),
      Guarded (RaisesClean codesOnly) (step codesOnly) (start (twoCodes []) requests) turns := by
  let overlapping := steps 0 2 5 ++ steps 1 2 6 ++ steps 0 1 5 ++ steps 1 1 6
  refine ⟨?_, ?_, ?_⟩
  · intro always
    have twice : ¬ (run (step codesOnly) (start (twoCodes [⟨1, 1, 1⟩])
        [(⟨1, 1, 300⟩, "a"), (⟨1, 1, 300⟩, "a")]) overlapping).AcceptedOnce := by decide +kernel
    exact twice (always _ overlapping _ (run_mem_trace _ _ overlapping))
  · intro always
    have back : let s := run (step codesOnly) (start (twoCodes [⟨1, 1, 1⟩])
        [(⟨1, 1, 300⟩, "a"), (⟨1, 1, 300⟩, "b")]) overlapping
        s.Finished ∧ ¬ s.AcceptedGone := by decide +kernel
    exact back.2 (always _ overlapping _ (run_mem_trace _ _ overlapping) back.1)
  · intro always
    have spoiled : ¬ Guarded (RaisesClean codesOnly) (step codesOnly)
        (start (twoCodes []) [(⟨1, 1, 300⟩, "a")]) (steps 0 3 5) := by decide +kernel
    exact spoiled (always _ (steps 0 3 5))

end SecondFactorSystem

end AverQel.Auth
