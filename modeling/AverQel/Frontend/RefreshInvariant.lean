/- digest: What the lock, the waits and the tokens of a careful run have in common. -/
import AverQel.Frontend.OneRefresh

namespace AverQel.Frontend.Session

open Foundation

universe u
variable {κ : Type u} {expiry : κ → Option Time}

namespace Browser

section Invariant

variable (s : Browser κ)

def Waits (owner : Nat) (replaced : Option κ) : Prop :=
  ∀ token, replaced = some token → token ∈ s.granted ∧
    ((s.tabs owner).refreshPromise = some (.inFlight (some token)) ∨ s.token ≠ some token) ∧
      ∀ tab, (s.tabs tab).activity ≠ .announcing (some token)

def PointSound : Point κ → Prop
  | .waiting _ owner replaced inbox => s.Waits owner replaced ∧
      ∀ token, .tokenRefreshed token ∈ inbox → replaced ≠ some token
  | .resumed _ replaced result => ∀ token, replaced = some token → result ≠ some token
  | _ => True

def ActivitySound (tab : Nat) (refreshPromise : Option (Refresh κ)) : Activity κ → Prop
  | .idle | .asking _ => True
  | .clearing _ seen => refreshPromise = none ∧ seen.expiresAt ≤ s.now ∧
      (s.lock = some seen → (s.tabs seen.owner).refreshPromise = none)
  | .writing _ seen => refreshPromise = none ∧ ∀ lock, seen = some lock → lock.owner = tab
  | .checking _ owner replaced => s.Waits owner replaced
  | .announcing result => ∃ replaces, refreshPromise = some (.answered replaces) ∧
      ∀ token, result = some token → token ∈ s.granted ∧ replaces ≠ some token
  | .releasing _ | .removing _ _ | .discarding _ _ =>
    ∃ replaces, refreshPromise = some (.answered replaces)

def RefreshSound : Option (Refresh κ) → Prop
  | none => True
  | some (.inFlight replaces) => ∀ token, replaces = some token → token ∈ s.granted
  | some (.answered replaces) => ∀ token, replaces = some token →
      token ∈ s.granted ∧ s.token ≠ some token

structure TabSound (tab : Nat) (t : Tab κ) : Prop where
  activity : s.ActivitySound tab t.refreshPromise t.activity
  refresh : s.RefreshSound t.refreshPromise
  calls : ∀ point ∈ t.calls, s.PointSound point
  notes : ∀ token, some token ∈ t.notes → token ∈ s.granted

/-- The lock is of the tab that refreshes. -/
structure Sound : Prop where
  owned : ∀ tab, (s.tabs tab).refreshPromise.isSome →
    ∃ lock, s.lock = some lock ∧ lock.owner = tab
  stored : ∀ token, s.token = some token → token ∈ s.granted
  tabs : ∀ tab, s.TabSound tab (s.tabs tab)

end Invariant

section Transfer

/-- What a step may change without disturbing the tabs that it leaves alone. -/
structure Keeps (s s' : Browser κ) : Prop where
  now : s.now ≤ s'.now
  granted : ∀ token ∈ s.granted, token ∈ s'.granted
  token : ∀ token ∈ s.granted, s.token ≠ some token → s'.token ≠ some token
  flights : ∀ owner, ∀ token ∈ s.granted,
    (s.tabs owner).refreshPromise = some (.inFlight (some token)) →
      (s'.tabs owner).refreshPromise = some (.inFlight (some token)) ∨ s'.token ≠ some token
  announced : ∀ tab, ∀ token ∈ s.granted, (s'.tabs tab).activity = .announcing (some token) →
    (s.tabs tab).activity = .announcing (some token)
  locks : ∀ seen, seen.expiresAt ≤ s.now →
    (s.lock = some seen → (s.tabs seen.owner).refreshPromise = none) →
      s'.lock = some seen → (s'.tabs seen.owner).refreshPromise = none

variable {s s' : Browser κ} (keeps : s.Keeps s')
include keeps

theorem Keeps.waits {owner : Nat} {replaced : Option κ} (waits : s.Waits owner replaced) :
    s'.Waits owner replaced := by
  intro token same
  obtain ⟨known, flight, quiet⟩ := waits token same
  refine ⟨keeps.granted token known, ?_, fun tab loud => quiet tab (keeps.announced tab token known loud)⟩
  rcases flight with flying | gone
  · exact keeps.flights owner token known flying
  · exact .inr (keeps.token token known gone)

theorem Keeps.pointSound {point : Point κ} (sound : s.PointSound point) : s'.PointSound point := by
  cases point with
  | waiting => exact ⟨keeps.waits sound.1, sound.2⟩
  | resumed => exact sound
  | _ => trivial

theorem Keeps.refreshSound {refresh : Option (Refresh κ)} (sound : s.RefreshSound refresh) :
    s'.RefreshSound refresh := by
  match refresh with
  | none => trivial
  | some (.inFlight replaces) => exact fun token same => keeps.granted token (sound token same)
  | some (.answered replaces) =>
    intro token same
    obtain ⟨known, gone⟩ := sound token same
    exact ⟨keeps.granted token known, keeps.token token known gone⟩

theorem Keeps.activitySound {tab : Nat} {refresh : Option (Refresh κ)} {activity : Activity κ}
    (sound : s.ActivitySound tab refresh activity) : s'.ActivitySound tab refresh activity := by
  cases activity with
  | clearing call seen =>
    obtain ⟨free, expired, unused⟩ := sound
    exact ⟨free, Int.le_trans expired keeps.now, keeps.locks seen expired unused⟩
  | checking => exact keeps.waits sound
  | announcing =>
    obtain ⟨replaces, answered, fresh⟩ := sound
    refine ⟨replaces, answered, fun token same => ?_⟩
    exact ⟨keeps.granted token (fresh token same).1, (fresh token same).2⟩
  | _ => exact sound

theorem Keeps.tabSound {tab : Nat} {t : Tab κ} (sound : s.TabSound tab t) : s'.TabSound tab t where
  activity := keeps.activitySound sound.activity
  refresh := keeps.refreshSound sound.refresh
  calls point member := keeps.pointSound (sound.calls point member)
  notes token member := keeps.granted token (sound.notes token member)

theorem Sound.next
    (owned : ∀ tab, (s'.tabs tab).refreshPromise.isSome →
      ∃ lock, s'.lock = some lock ∧ lock.owner = tab)
    (stored : ∀ token, s'.token = some token → token ∈ s'.granted)
    (tabs : ∀ tab, s.TabSound tab (s'.tabs tab) ∨ s'.TabSound tab (s'.tabs tab)) : s'.Sound where
  owned := owned
  stored := stored
  tabs tab := (tabs tab).elim keeps.tabSound id

end Transfer

section Fields

variable (s : Browser κ)

theorem setTab_tabs (tab other : Nat) (t : Tab κ) :
    (s.setTab tab t).tabs other = if other = tab then t else s.tabs other := by
  simp only [setTab, Function.update_apply]

@[simp] theorem setTab_self (tab : Nat) (t : Tab κ) : (s.setTab tab t).tabs tab = t := by
  rw [setTab_tabs, if_pos rfl]

theorem setTab_of_ne {tab other : Nat} (different : other ≠ tab) (t : Tab κ) :
    (s.setTab tab t).tabs other = s.tabs other := by
  rw [setTab_tabs, if_neg different]

variable [DecidableEq κ]

theorem store_tabs (tab other : Nat) (value : Option κ) :
    ((s.store tab value).tabs other).refreshPromise = (s.tabs other).refreshPromise ∧
      ((s.store tab value).tabs other).activity = (s.tabs other).activity ∧
      ((s.store tab value).tabs other).calls = (s.tabs other).calls ∧
      ((s.store tab value).tabs other).authSessionInvalidated =
        (s.tabs other).authSessionInvalidated ∧
      ∀ note ∈ ((s.store tab value).tabs other).notes,
        note ∈ (s.tabs other).notes ∨ note = value := by
  simp only [store]
  split
  · exact ⟨rfl, rfl, rfl, rfl, fun note member => .inl member⟩
  · refine ⟨rfl, rfl, rfl, rfl, fun note member => ?_⟩
    simpa using member

@[simp] theorem store_self (tab : Nat) (value : Option κ) :
    (s.store tab value).tabs tab = s.tabs tab := by
  simp [store]

end Fields

section Moves

variable {s : Browser κ}

theorem TabSound.at_ {tab : Nat} {t : Tab κ} (sound : s.TabSound tab t) (call : Nat)
    {point : Point κ} (fits : s.PointSound point) : s.TabSound tab (t.at_ call point) where
  activity := sound.activity
  refresh := sound.refresh
  calls other member := by
    rcases List.mem_or_eq_of_mem_set member with old | rfl
    · exact sound.calls other old
    · exact fits
  notes := sound.notes

theorem TabSound.turnsTo {tab : Nat} {t : Tab κ} (sound : s.TabSound tab t) {activity : Activity κ}
    (fits : s.ActivitySound tab t.refreshPromise activity) :
    s.TabSound tab (t.turnsTo activity) where
  activity := fits
  refresh := sound.refresh
  calls := sound.calls
  notes := sound.notes

theorem TabSound.push {tab : Nat} {t : Tab κ} (sound : s.TabSound tab t) {point : Point κ}
    (fits : s.PointSound point) : s.TabSound tab { t with calls := t.calls ++ [point] } where
  activity := sound.activity
  refresh := sound.refresh
  calls other member := by
    rcases List.mem_append.mp member with old | new
    · exact sound.calls other old
    · rw [List.mem_singleton.mp new]
      exact fits
  notes := sound.notes

/-- One tab moves, and with it perhaps the lock. -/
theorem Sound.withLock (sound : s.Sound) {lock : Option RefreshLock} {tab : Nat} {t : Tab κ}
    (owned : t.refreshPromise.isSome → ∃ held, lock = some held ∧ held.owner = tab)
    (others : ∀ other, other ≠ tab → (s.tabs other).refreshPromise.isSome →
      ∃ held, lock = some held ∧ held.owner = other)
    (flight : ∀ token, (s.tabs tab).refreshPromise = some (.inFlight token) →
      t.refreshPromise = some (.inFlight token))
    (silent : ∀ token, t.activity = .announcing (some token) →
      (s.tabs tab).activity = .announcing (some token))
    (locks : ∀ seen, seen.expiresAt ≤ s.now →
      (s.lock = some seen → (s.tabs seen.owner).refreshPromise = none) → lock = some seen →
        ((s.setTab tab t).tabs seen.owner).refreshPromise = none)
    (fits : s.TabSound tab t) : ({ s with lock := lock }.setTab tab t : Browser κ).Sound := by
  refine Sound.next (s := s) ⟨Int.le_refl _, fun _ known => known, fun _ _ gone => gone, ?_, ?_,
    locks⟩ ?_ sound.stored ?_
  · intro owner token _ flying
    rw [setTab_tabs]
    split
    · rename_i here
      exact .inl (flight _ (here ▸ flying))
    · exact .inl flying
  · intro other token _ loud
    rw [setTab_tabs] at loud
    split at loud
    · rename_i here
      exact here ▸ silent token loud
    · exact loud
  · intro other held
    rw [setTab_tabs] at held
    split at held
    · rename_i here
      exact here ▸ owned held
    · rename_i different
      exact others other different held
  · intro other
    rw [setTab_tabs]
    split
    · rename_i here
      exact .inl (here ▸ fits)
    · exact .inl (sound.tabs other)

theorem Sound.setTab (sound : s.Sound) {tab : Nat} {t : Tab κ}
    (refresh : t.refreshPromise = (s.tabs tab).refreshPromise)
    (silent : ∀ token, t.activity = .announcing (some token) →
      (s.tabs tab).activity = .announcing (some token)) (fits : s.TabSound tab t) :
    (s.setTab tab t).Sound := by
  refine sound.withLock (fun held => sound.owned tab (refresh ▸ held))
    (fun other _ held => sound.owned other held) (fun token flying => refresh.trans flying) silent
    ?_ fits
  intro seen _ unused held
  rw [setTab_tabs]
  split
  · rename_i here
    rw [refresh, ← here]
    exact unused held
  · exact unused held

def Plainly (t t' : Tab κ) (call : Nat) : Prop :=
  ∃ point : Point κ, (t' = t.at_ call point ∨ t' = (t.at_ call point).turnsTo (.asking call)) ∧
    ∀ s : Browser κ, s.PointSound point

theorem plainly_enter (t : Tab κ) (now : Time) (token : Option κ) (call : Nat) (options : Options) :
    Plainly t (t.enter expiry now token call options) call := by
  unfold Tab.enter
  split
  · exact ⟨_, .inl rfl, fun _ => trivial⟩
  · split
    · exact ⟨_, .inr rfl, fun _ => trivial⟩
    · exact ⟨_, .inl rfl, fun _ => trivial⟩

theorem plainly_respond (t : Tab κ) (call : Nat) (options : Options) (response : Response) :
    Plainly t (t.respond call options response) call := by
  cases response with
  | unauthorized =>
    simp only [Tab.respond]
    split
    · exact ⟨_, .inr rfl, fun _ => trivial⟩
    · exact ⟨_, .inl rfl, fun _ => trivial⟩
  | overloaded =>
    simp only [Tab.respond]
    split
    · exact ⟨_, .inl rfl, fun _ => trivial⟩
    · exact ⟨_, .inl rfl, fun _ => trivial⟩
  | other | failed => exact ⟨_, .inl rfl, fun _ => trivial⟩

theorem plainly_resume (t : Tab κ) (now : Time) (token : Option κ) (call : Nat) (result : Option κ)
    (caller : Caller) : Plainly t (t.resume expiry now token call result caller) call := by
  cases caller with
  | page => exact ⟨_, .inl rfl, fun _ => trivial⟩
  | early => cases result <;> exact ⟨_, .inl rfl, fun _ => trivial⟩
  | unauthorized =>
    cases result with
    | none => exact ⟨_, .inl rfl, fun _ => trivial⟩
    | some => exact plainly_enter t now token call _

theorem TabSound.plainly {tab call : Nat} {t t' : Tab κ} (sound : s.TabSound tab t)
    (moved : Plainly t t' call) : s.TabSound tab t' := by
  obtain ⟨point, rfl | rfl, plain⟩ := moved
  · exact sound.at_ call (plain s)
  · exact (sound.at_ call (plain s)).turnsTo trivial

theorem Sound.plainly (sound : s.Sound) {tab call : Nat} {t t' : Tab κ}
    (fits : s.TabSound tab t) (refresh : t.refreshPromise = (s.tabs tab).refreshPromise)
    (idle : t.activity = .idle) (moved : Plainly t t' call) : (s.setTab tab t').Sound := by
  refine sound.setTab ?_ ?_ (fits.plainly moved)
  · obtain ⟨point, rfl | rfl, _⟩ := moved
    · exact refresh
    · exact refresh
  · intro token loud
    obtain ⟨point, rfl | rfl, _⟩ := moved
    · have same : t.activity = .announcing (some token) := loud
      rw [idle] at same
      cases same
    · cases loud

theorem replacedBy_waits (sound : s.Sound) {lock : RefreshLock} (held : s.lock = some lock) :
    s.Waits lock.owner (s.replacedBy lock.owner) := by
  intro token replaced
  have refresh := (sound.tabs lock.owner).refresh
  cases promise : (s.tabs lock.owner).refreshPromise with
  | none => simp [replacedBy, promise] at replaced
  | some flight =>
    have owner : ∀ tab, (s.tabs tab).activity = .announcing (some token) → tab = lock.owner := by
      intro tab loud
      have active := (sound.tabs tab).activity
      rw [loud] at active
      obtain ⟨replaces, answered, _⟩ := active
      obtain ⟨other, held', own⟩ := sound.owned tab (by rw [answered]; rfl)
      rw [held] at held'
      cases held'
      exact own.symm
    have quiet : ∀ tab, (s.tabs tab).activity ≠ .announcing (some token) := by
      intro tab loud
      have active := (sound.tabs tab).activity
      rw [loud] at active
      obtain ⟨replaces, answered, fresh⟩ := active
      rw [owner tab loud, promise] at answered
      cases answered
      simp only [replacedBy, promise, Option.bind_some, Refresh.replaces] at replaced
      exact (fresh token rfl).2 replaced
    rw [promise] at refresh
    cases flight with
    | inFlight replaces =>
      simp only [replacedBy, promise, Option.bind_some, Refresh.replaces] at replaced
      exact ⟨refresh token replaced, .inl (by rw [replaced]), quiet⟩
    | answered replaces =>
      simp only [replacedBy, promise, Option.bind_some, Refresh.replaces] at replaced
      exact ⟨(refresh token replaced).1, .inr (refresh token replaced).2, quiet⟩

theorem activitySound_readLock (sound : s.Sound) (tab call : Nat)
    (careful : s.lock.all fun lock =>
      lock.expiresAt ≤ s.now → (s.tabs lock.owner).refreshPromise.isNone) :
    s.ActivitySound tab none (s.readLock tab call) := by
  unfold readLock
  cases held : s.lock with
  | none => exact ⟨rfl, fun lock seen => by cases seen⟩
  | some lock =>
    simp only
    split
    · rename_i expired
      refine ⟨rfl, expired, fun _ => ?_⟩
      rw [held, Option.all_some, decide_eq_true_eq] at careful
      exact Option.isNone_iff_eq_none.mp (careful expired)
    · split
      · rename_i own
        exact ⟨rfl, fun seen same => by cases same; exact own⟩
      · exact replacedBy_waits sound held

theorem sound_write (sound : s.Sound) {tab call : Nat} {seen : Option RefreshLock}
    (writing : (s.tabs tab).activity = .writing call seen) (same : s.lock = seen)
    {point : Point κ} (plain : s.PointSound point) :
    ({ s with lock := some ⟨tab, s.now + refreshLockTtl⟩ }.setTab tab
      { (s.tabs tab).at_ call point with
        refreshPromise := some (.inFlight s.token)
        activity := .idle } : Browser κ).Sound := by
  have active := (sound.tabs tab).activity
  rw [writing] at active
  obtain ⟨free, own⟩ := active
  have alone : ∀ other, (s.tabs other).refreshPromise.isSome → False := by
    intro other held
    obtain ⟨lock, there, owner⟩ := sound.owned other held
    have mine := own lock (same.symm.trans there)
    rw [← owner, mine, free] at held
    cases held
  have fits := (sound.tabs tab).at_ call plain
  refine sound.withLock (fun _ => ⟨_, rfl, rfl⟩) (fun other _ held => absurd held (alone other))
    (fun token flying => absurd (by rw [flying]; rfl) (alone tab)) (fun token loud => by cases loud)
    ?_ ⟨trivial, sound.stored, fits.calls, fits.notes⟩
  intro seen expired _ held
  cases held
  exact absurd expired (Int.not_le.mpr (Int.lt_add_of_pos_right s.now (by decide)))

theorem sound_settle (sound : s.Sound) {tab : Nat} {replaces : Option κ}
    (answered : (s.tabs tab).refreshPromise = some (.answered replaces)) (result : Option κ) :
    ({ s with lock := none }.settle tab result : Browser κ).Sound := by
  have alone : ∀ other, (s.tabs other).refreshPromise.isSome → other = tab := by
    intro other held
    obtain ⟨lock, there, owner⟩ := sound.owned other held
    obtain ⟨lock', there', owner'⟩ := sound.owned tab (by rw [answered]; rfl)
    rw [there] at there'
    cases there'
    exact owner.symm.trans owner'
  refine sound.withLock (fun held => by cases held)
    (fun other different held => absurd (alone other held) different)
    (fun token flying => by rw [answered] at flying; cases flying) (fun token loud => by cases loud)
    (fun seen _ _ held => by cases held) ⟨trivial, trivial, ?_, (sound.tabs tab).notes⟩
  intro point member
  obtain ⟨old, before, rfl⟩ := List.mem_map.mp member
  cases old with
  | joined => exact fun token same => by cases same
  | _ => exact (sound.tabs tab).calls _ before

theorem sound_clear (sound : s.Sound) {tab call : Nat} {seen : RefreshLock}
    (clearing : (s.tabs tab).activity = .clearing call seen)
    (same : s.lock = none ∨ s.lock = some seen) :
    ({ s with lock := none }.setTab tab ((s.tabs tab).turnsTo (.writing call none)) :
      Browser κ).Sound := by
  have active := (sound.tabs tab).activity
  rw [clearing] at active
  obtain ⟨free, _, unused⟩ := active
  have alone : ∀ other, (s.tabs other).refreshPromise.isSome → False := by
    intro other held
    obtain ⟨lock, there, owner⟩ := sound.owned other held
    rcases same with absent | there'
    · rw [absent] at there
      cases there
    · rw [there'] at there
      cases there
      rw [← owner, unused there'] at held
      cases held
  exact sound.withLock (fun held => absurd held (alone tab))
    (fun other _ held => absurd held (alone other)) (fun token flying => flying)
    (fun token loud => by cases loud) (fun other _ _ held => by cases held)
    ((sound.tabs tab).turnsTo ⟨free, fun lock held => by cases held⟩)

theorem sound_announce (sound : s.Sound) {tab : Nat} {result : Option κ}
    (announcing : (s.tabs tab).activity = .announcing result) :
    ((s.broadcast (result.elim .logout .tokenRefreshed)).setTab tab
      ((s.broadcast (result.elim .logout .tokenRefreshed)).tabs tab |>.turnsTo
        (.releasing result))).Sound := by
  have heard : ∀ other, ∀ point ∈ ((s.broadcast (result.elim .logout .tokenRefreshed)).tabs
      other).calls, s.PointSound point := by
    intro other point member
    obtain ⟨old, before, rfl⟩ := List.mem_map.mp member
    have fits := (sound.tabs other).calls old before
    cases old with
    | waiting =>
      refine ⟨fits.1, fun token brought same => ?_⟩
      rcases List.mem_append.mp brought with early | now
      · exact fits.2 token early same
      · cases result with
        | none => simp at now
        | some announced =>
          have this_one : token = announced := by simpa using now
          rw [this_one] at same
          exact (fits.1 announced same).2.2 tab announcing
    | _ => exact fits
  have active := (sound.tabs tab).activity
  rw [announcing] at active
  obtain ⟨replaces, answered, _⟩ := active
  have told : (s.broadcast (result.elim .logout .tokenRefreshed)).Sound :=
    Sound.next (s := s) ⟨Int.le_refl _, fun _ known => known, fun _ _ gone => gone,
      fun _ _ _ flying => .inl flying, fun _ _ _ loud => loud, fun _ _ unused => unused⟩
      sound.owned sound.stored fun other => .inl ⟨(sound.tabs other).activity,
        (sound.tabs other).refresh, heard other, (sound.tabs other).notes⟩
  exact told.setTab rfl (fun token loud => by cases loud)
    ((told.tabs tab).turnsTo ⟨replaces, answered⟩)

end Moves

section Tokens

variable [DecidableEq κ] {s : Browser κ}

/-- A token is stored, or the stored one is removed, by a tab that answers, logs in or is
invalidated. -/
structure Stores (s s' : Browser κ) (tab : Nat) (value : Option κ) : Prop where
  now : s'.now = s.now
  lock : s'.lock = s.lock
  token : s'.token = value
  granted : ∀ token, token ∈ s'.granted ↔ token ∈ s.granted ∨ value = some token
  others : ∀ other, other ≠ tab →
    (s'.tabs other).refreshPromise = (s.tabs other).refreshPromise ∧
      (s'.tabs other).activity = (s.tabs other).activity ∧
      (s'.tabs other).calls = (s.tabs other).calls ∧
      ∀ note ∈ (s'.tabs other).notes, note ∈ (s.tabs other).notes ∨ note = value

omit [DecidableEq κ] in
theorem Sound.stores (sound : s.Sound) {s' : Browser κ} {tab : Nat} {value : Option κ}
    (stores : Stores s s' tab value) (fresh : ∀ token, value = some token → token ∉ s.granted)
    (refresh : (s'.tabs tab).refreshPromise = (s.tabs tab).refreshPromise ∨
      ∃ replaces, (s.tabs tab).refreshPromise = some (.inFlight replaces) ∧
        (s'.tabs tab).refreshPromise = some (.answered replaces))
    (silent : (s'.tabs tab).activity = .idle ∨ (s'.tabs tab).activity = .announcing value)
    (fits : s.Keeps s' → s'.TabSound tab (s'.tabs tab)) : s'.Sound := by
  have promise : ∀ other, (s'.tabs other).refreshPromise.isSome →
      (s.tabs other).refreshPromise.isSome := by
    intro other held
    by_cases here : other = tab
    · rw [here] at held ⊢
      rcases refresh with same | ⟨replaces, flying, _⟩
      · rwa [same] at held
      · rw [flying]
        rfl
    · rwa [(stores.others other here).1] at held
  have keeps : s.Keeps s' := by
    refine ⟨?_, ?_, ?_, ?_, ?_, ?_⟩
    · exact Int.le_of_eq stores.now.symm
    · exact fun token known => (stores.granted token).mpr (.inl known)
    · intro token known _ same
      rw [stores.token] at same
      exact fresh token same known
    · intro owner token known _
      right
      intro same
      rw [stores.token] at same
      exact fresh token same known
    · intro other token known loud
      by_cases here : other = tab
      · rw [here] at loud
        rcases silent with idle | announced
        · rw [idle] at loud
          cases loud
        · rw [announced] at loud
          cases loud
          exact absurd known (fresh token rfl)
      · rwa [(stores.others other here).2.1] at loud
    · intro seen _ unused held
      rw [stores.lock] at held
      by_contra busy
      have held' := promise seen.owner (Option.isSome_iff_ne_none.mpr busy)
      rw [unused held] at held'
      cases held'
  refine Sound.next keeps ?_ ?_ ?_
  · intro other held
    rw [stores.lock]
    exact sound.owned other (promise other held)
  · intro token same
    rw [stores.token] at same
    exact (stores.granted token).mpr (.inr same)
  · intro other
    right
    by_cases here : other = tab
    · rw [here]
      exact fits keeps
    · obtain ⟨sameRefresh, sameActivity, sameCalls, notes⟩ := stores.others other here
      have before := keeps.tabSound (sound.tabs other)
      refine ⟨?_, ?_, ?_, ?_⟩
      · rw [sameRefresh, sameActivity]
        exact before.activity
      · rw [sameRefresh]
        exact before.refresh
      · rw [sameCalls]
        exact before.calls
      · intro token member
        rcases notes _ member with old | new
        · exact before.notes token old
        · exact (stores.granted token).mpr (.inr new.symm)

theorem stores_store {s' : Browser κ} {tab : Nat} {value : Option κ} {t : Tab κ}
    (same : s' = (s.setTab tab t).store tab value ∧ value = none ∨
      ∃ token, value = some token ∧
        s' = { (s.setTab tab t).store tab value with granted := token :: s.granted }) :
    Stores s s' tab value ∧ s'.tabs tab = t := by
  have others (other : Nat) (different : other ≠ tab) :
      (((s.setTab tab t).store tab value).tabs other).refreshPromise =
          (s.tabs other).refreshPromise ∧
        (((s.setTab tab t).store tab value).tabs other).activity = (s.tabs other).activity ∧
        (((s.setTab tab t).store tab value).tabs other).calls = (s.tabs other).calls ∧
        ∀ note ∈ (((s.setTab tab t).store tab value).tabs other).notes,
          note ∈ (s.tabs other).notes ∨ note = value := by
    obtain ⟨refresh, activity, calls, _, notes⟩ := (s.setTab tab t).store_tabs tab other value
    rw [setTab_of_ne s different] at refresh activity calls notes
    exact ⟨refresh, activity, calls, notes⟩
  rcases same with ⟨rfl, rfl⟩ | ⟨token, rfl, rfl⟩
  · refine ⟨⟨rfl, rfl, rfl, ?_, others⟩, ?_⟩
    · intro token
      simp [store, setTab]
    · rw [store_self, setTab_self]
  · refine ⟨⟨rfl, rfl, rfl, ?_, others⟩, ?_⟩
    · intro other
      simp [or_comm, eq_comm]
    · exact (store_self (s.setTab tab t) tab _).trans (setTab_self s tab t)

theorem sound_invalidate (sound : s.Sound) {tab : Nat} {t : Tab κ}
    (refresh : t.refreshPromise = (s.tabs tab).refreshPromise ∨
      ∃ replaces, (s.tabs tab).refreshPromise = some (.inFlight replaces) ∧
        t.refreshPromise = some (.answered replaces))
    (silent : t.activity = .idle ∨ t.activity = .announcing none)
    (calls : t.calls = (s.tabs tab).calls)
    (notes : ∀ note ∈ t.notes, note ∈ (s.tabs tab).notes)
    (active : s.ActivitySound tab t.refreshPromise t.activity) : (s.invalidate tab t).Sound := by
  have both : Stores s (s.invalidate tab t) tab none ∧
      (s.invalidate tab t).tabs tab = { t with authSessionInvalidated := true } :=
    stores_store (.inl ⟨rfl, rfl⟩)
  obtain ⟨stores, here⟩ := both
  have before := sound.tabs tab
  refine sound.stores stores (fun token same => by cases same) ?_ ?_ ?_
  · rw [here]
    exact refresh
  · rw [here]
    exact silent
  · intro keeps
    rw [here]
    refine ⟨keeps.activitySound active, ?_, ?_, ?_⟩
    · rcases refresh with same | ⟨replaces, flying, answered⟩
      · change RefreshSound _ t.refreshPromise
        rw [same]
        exact keeps.refreshSound before.refresh
      · change RefreshSound _ t.refreshPromise
        have known := before.refresh
        rw [flying] at known
        rw [answered]
        intro token same
        refine ⟨keeps.granted token (known token same), ?_⟩
        rw [stores.token]
        intro equal
        cases equal
    · intro point member
      exact keeps.pointSound (before.calls point (calls ▸ member))
    · intro token member
      exact keeps.granted token (before.notes token (notes _ member))

theorem sound_grant (sound : s.Sound) {tab : Nat} {t : Tab κ} {token : κ} (fresh : token ∉ s.granted)
    (refresh : t.refreshPromise = (s.tabs tab).refreshPromise ∧ t.activity = .idle ∨
      ∃ replaces, (s.tabs tab).refreshPromise = some (.inFlight replaces) ∧
        t.refreshPromise = some (.answered replaces) ∧ t.activity = .announcing (some token))
    (calls : t.calls = (s.tabs tab).calls) (notes : t.notes = (s.tabs tab).notes) :
    ({ (s.setTab tab t).store tab (some token) with granted := token :: s.granted } :
      Browser κ).Sound := by
  have both : Stores s { (s.setTab tab t).store tab (some token) with
      granted := token :: s.granted } tab (some token) ∧
        ({ (s.setTab tab t).store tab (some token) with granted := token :: s.granted } :
          Browser κ).tabs tab = t :=
    stores_store (.inr ⟨token, rfl, rfl⟩)
  obtain ⟨stores, here⟩ := both
  have before := sound.tabs tab
  refine sound.stores stores ?_ ?_ ?_ ?_
  · intro other same known
    cases same
    exact fresh known
  · rw [here]
    rcases refresh with ⟨same, _⟩ | ⟨replaces, flying, answered, _⟩
    · exact .inl same
    · exact .inr ⟨replaces, flying, answered⟩
  · rw [here]
    rcases refresh with ⟨_, idle⟩ | ⟨_, _, _, loud⟩
    · exact .inl idle
    · exact .inr loud
  · intro keeps
    rw [here]
    have other : ∀ replaced, s.RefreshSound (some (.inFlight replaced)) → ∀ old,
        replaced = some old → old ∈ s.granted ∧ some token ≠ some old := by
      intro replaced known old same
      have listed := known old same
      exact ⟨listed, fun equal => fresh (Option.some.inj equal ▸ listed)⟩
    refine ⟨?_, ?_, ?_, ?_⟩
    · rcases refresh with ⟨_, idle⟩ | ⟨replaces, flying, answered, loud⟩
      · rw [idle]
        trivial
      · have known := before.refresh
        rw [flying] at known
        rw [loud]
        refine ⟨replaces, answered, fun new same => ?_⟩
        cases same
        refine ⟨List.mem_cons_self, fun equal => ?_⟩
        exact (other replaces known token equal).2 rfl
    · rcases refresh with ⟨same, _⟩ | ⟨replaces, flying, answered, _⟩
      · rw [same]
        exact keeps.refreshSound before.refresh
      · have known := before.refresh
        rw [flying] at known
        rw [answered]
        intro old same
        exact ⟨List.mem_cons_of_mem _ (other replaces known old same).1,
          (other replaces known old same).2⟩
    · intro point member
      exact keeps.pointSound (before.calls point (calls ▸ member))
    · intro old member
      exact keeps.granted old (before.notes old (notes ▸ member))

omit [DecidableEq κ] in
theorem sound_proceed (sound : s.Sound) (tab : Nat)
    (careful : CarefulOperation expiry s tab (s.tabs tab).activity) :
    (s.proceed expiry tab).Sound := by
  have before := sound.tabs tab
  have active := before.activity
  cases doing : (s.tabs tab).activity with
  | idle =>
    simp only [proceed, doing]
    exact sound
  | asking call =>
    rw [doing] at careful
    simp only [proceed, doing]
    split
    · have joined : s.PointSound (.joined ((s.tabs tab).caller call)) := trivial
      exact sound.setTab rfl (fun token loud => by cases loud)
        ((before.at_ call joined).turnsTo trivial)
    · rename_i free
      have none_held : (s.tabs tab).refreshPromise = none := by simpa using free
      have next := activitySound_readLock sound tab call
        (careful (by rw [none_held]; rfl))
      refine sound.setTab rfl ?_ (before.turnsTo (none_held ▸ next))
      intro token loud
      change s.readLock tab call = _ at loud
      simp only [readLock] at loud
      split at loud
      · cases loud
      · split at loud
        · cases loud
        · split at loud <;> cases loud
  | clearing =>
    rw [doing] at careful
    simp only [proceed, doing]
    exact sound_clear sound doing careful
  | writing =>
    rw [doing] at careful
    simp only [proceed, doing]
    exact sound_write sound doing careful trivial
  | checking call owner replaced =>
    rw [doing] at careful active
    simp only [proceed, doing]
    split
    · rename_i fresh
      refine sound.setTab rfl (fun token loud => by cases loud)
        ((before.at_ call ?_).turnsTo trivial)
      intro token same stored
      have late := careful (by rw [same]; rfl) (by rw [stored, same])
      rw [stored, ← same, late] at fresh
      simp at fresh
    · refine sound.setTab rfl (fun token loud => by cases loud)
        ((before.at_ call ?_).turnsTo trivial)
      exact ⟨active, fun token brought => by cases brought⟩
  | announcing =>
    simp only [proceed, doing]
    exact sound_announce sound doing
  | releasing =>
    rw [doing] at active
    obtain ⟨replaces, answered⟩ := active
    obtain ⟨lock, held, own⟩ := sound.owned tab (by rw [answered]; rfl)
    simp only [proceed, doing, held, if_pos own]
    split
    · exact sound.setTab rfl (fun token loud => by cases loud)
        (before.turnsTo ⟨replaces, answered⟩)
    · exact sound.setTab rfl (fun token loud => by cases loud)
        (before.turnsTo ⟨replaces, answered⟩)
  | removing result seen | discarding result seen =>
    rw [doing] at active
    obtain ⟨replaces, answered⟩ := active
    simp only [proceed, doing]
    exact sound_settle sound answered result

theorem sound_idleStep (sound : s.Sound) {tab : Nat} {moved : Tab κ → Browser κ}
    (next : (s.tabs tab).activity = .idle → (moved (s.tabs tab)).Sound) :
    (s.idleStep tab moved).Sound := by
  unfold idleStep
  split
  · rename_i idle
    exact next idle
  · exact sound

/-- A careful turn keeps the invariant. -/
theorem sound_step (turn : Turn κ) (sound : s.Sound) (careful : Careful expiry s turn) :
    (s.step expiry turn).Sound := by
  cases turn with
  | passes delay =>
    have keeps : s.Keeps { s with now := s.now + delay } :=
      ⟨Int.le_add_of_nonneg_right (Int.natCast_nonneg delay), fun _ known => known,
        fun _ _ gone => gone, fun _ _ _ flying => .inl flying, fun _ _ _ loud => loud,
        fun _ _ unused => unused⟩
    exact Sound.next keeps sound.owned sound.stored fun tab => .inl (sound.tabs tab)
  | proceeds tab => exact sound_proceed sound tab careful
  | fetches tab options =>
    simp only [step]
    refine sound_idleStep sound fun idle => ?_
    exact sound.plainly ((sound.tabs tab).push (show s.PointSound (.delaying options) from trivial)) rfl idle
      (plainly_enter _ _ _ _ _)
  | refreshes tab =>
    simp only [step]
    refine sound_idleStep sound fun idle => ?_
    exact sound.setTab rfl (fun token loud => by cases loud)
      (((sound.tabs tab).push (show s.PointSound (.asking .page) from trivial)).turnsTo
        (show s.ActivitySound tab _ (.asking (s.tabs tab).calls.length) from trivial))
  | answers tab token =>
    simp only [step]
    refine sound_idleStep sound fun idle => ?_
    cases promise : (s.tabs tab).refreshPromise with
    | none => exact sound
    | some flight =>
      cases flight with
      | answered => exact sound
      | inFlight replaces =>
        cases token with
        | none =>
          refine sound_invalidate sound (.inr ⟨replaces, promise, rfl⟩) (.inr rfl) rfl
            (fun note member => member) ⟨replaces, rfl, fun token same => by cases same⟩
        | some =>
          exact sound_grant sound careful (.inr ⟨replaces, promise, rfl, rfl⟩) rfl rfl
  | hears tab call =>
    simp only [step]
    refine sound_idleStep sound fun idle => ?_
    have before := sound.tabs tab
    split
    · rename_i caller owner replaced token inbox found
      have waits := before.calls _ (List.mem_of_getElem? found)
      refine sound.setTab rfl (fun other loud => loud) (before.at_ call ?_)
      intro old same result
      exact waits.2 token List.mem_cons_self (same.trans result.symm)
    · refine sound.setTab rfl (fun other loud => loud) (before.at_ call ?_)
      intro old _ result
      cases result
    · exact sound
  | timesOut tab call =>
    simp only [step]
    refine sound_idleStep sound fun idle => ?_
    have before := sound.tabs tab
    split
    · rename_i caller owner replaced inbox found
      have waits := before.calls _ (List.mem_of_getElem? found)
      refine sound.setTab rfl (fun other loud => loud) (before.at_ call ?_)
      intro token same stored
      have over_ : CarefulTimeout s (s.tabs tab).calls[call]? := careful
      rw [found] at over_
      rcases (waits.1 token same).2.1 with flying | gone
      · exact over_ (by rw [same]; rfl) (same ▸ flying)
      · exact gone stored
    · exact sound
  | resumes tab =>
    simp only [step]
    refine sound_idleStep sound fun idle => ?_
    split
    · exact sound.plainly (sound.tabs tab) rfl idle (plainly_resume _ _ _ _ _ _)
    · exact sound
  | responds tab =>
    simp only [step]
    refine sound_idleStep sound fun idle => ?_
    split
    · exact sound.plainly (sound.tabs tab) rfl idle (plainly_respond _ _ _ _)
    · exact sound
  | retries tab =>
    simp only [step]
    refine sound_idleStep sound fun idle => ?_
    split
    · exact sound.plainly (sound.tabs tab) rfl idle (plainly_enter _ _ _ _ _)
    · exact sound
  | notified tab =>
    simp only [step]
    refine sound_idleStep sound fun idle => ?_
    have before := sound.tabs tab
    split
    · rename_i token notes pending
      refine sound.setTab rfl (fun other loud => loud)
        ⟨before.activity, before.refresh, before.calls, fun other member => ?_⟩
      exact before.notes other (pending ▸ List.mem_cons_of_mem _ member)
    · rename_i notes pending
      refine sound_invalidate sound (.inl rfl) (.inl idle) rfl ?_ before.activity
      intro note member
      exact pending ▸ List.mem_cons_of_mem _ member
    · exact sound
  | logsIn =>
    simp only [step]
    refine sound_idleStep sound fun idle => ?_
    exact sound_grant sound careful (.inl ⟨rfl, idle⟩) rfl rfl
  | logsOut tab =>
    simp only [step]
    refine sound_idleStep sound fun idle => ?_
    exact sound_invalidate sound (.inl rfl) (.inl idle) rfl (fun note member => member)
      (sound.tabs tab).activity

end Tokens

section Licences

variable {s : Browser κ}

def Steady (s s' : Browser κ) : Prop :=
  ∀ tab, (s'.tabs tab).authSessionInvalidated = (s.tabs tab).authSessionInvalidated

theorem steady_setTab {tab : Nat} {t : Tab κ}
    (same : t.authSessionInvalidated = (s.tabs tab).authSessionInvalidated) :
    s.Steady (s.setTab tab t) := by
  intro other
  by_cases here : other = tab
  · rw [here, setTab_self, same]
  · rw [setTab_of_ne s here]

theorem steady_plainly {tab call : Nat} {t t' : Tab κ} (moved : Plainly t t' call)
    (same : t.authSessionInvalidated = (s.tabs tab).authSessionInvalidated) :
    s.Steady (s.setTab tab t') := by
  refine steady_setTab ?_
  obtain ⟨point, rfl | rfl, _⟩ := moved
  · exact same
  · exact same

theorem steady_proceed (tab : Nat) : s.Steady (s.proceed expiry tab) := by
  cases doing : (s.tabs tab).activity with
  | idle =>
    simp only [proceed, doing]
    exact fun other => rfl
  | asking | checking =>
    simp only [proceed, doing]
    split
    · exact steady_setTab rfl
    · exact steady_setTab rfl
  | clearing | removing | discarding =>
    simp only [proceed, doing]
    exact steady_setTab (s := { s with lock := none }) rfl
  | writing =>
    simp only [proceed, doing]
    exact steady_setTab (s := { s with lock := some ⟨tab, s.now + refreshLockTtl⟩ }) rfl
  | announcing result =>
    simp only [proceed, doing]
    exact steady_setTab (s := s.broadcast (result.elim .logout .tokenRefreshed)) rfl
  | releasing =>
    simp only [proceed, doing]
    split
    · exact steady_setTab rfl
    · split
      · exact steady_setTab rfl
      · split
        · exact steady_setTab rfl
        · exact steady_setTab rfl

variable [DecidableEq κ]

theorem steady_idleStep {tab : Nat} {moved : Tab κ → Browser κ}
    (steady : s.Steady (moved (s.tabs tab))) : s.Steady (s.idleStep tab moved) := by
  unfold idleStep
  split
  · exact steady
  · exact fun other => rfl

theorem steady_store {tab other : Nat} (different : other ≠ tab) (t : Tab κ) (value : Option κ) :
    (((s.setTab tab t).store tab value).tabs other).authSessionInvalidated =
      (s.tabs other).authSessionInvalidated := by
  rw [((s.setTab tab t).store_tabs tab other value).2.2.2.1, setTab_of_ne s different]

theorem invalidated_of_invalidate {tab : Nat} (t : Tab κ) (other : Nat)
    (before : (s.tabs other).authSessionInvalidated = true) :
    ((s.invalidate tab t).tabs other).authSessionInvalidated = true := by
  by_cases here : other = tab
  · rw [here, invalidate, store_self, setTab_self]
  · rw [invalidate, steady_store here, before]

theorem invalidated_of_answer {tab other : Nat} (different : other ≠ tab)
    (replaces token : Option κ) :
    ((s.answer tab replaces token).tabs other).authSessionInvalidated =
      (s.tabs other).authSessionInvalidated := by
  cases token with
  | none => exact steady_store different _ none
  | some granted => exact steady_store different _ (some granted)

theorem licensed_of_steady {turn : Turn κ} (steady : s.Steady (s.step expiry turn)) :
    Licensed expiry s turn := by
  intro tab before after
  rw [steady, before] at after
  cases after

theorem ends_of_idleStep {tab other : Nat} {moved : Tab κ → Browser κ}
    (before : (s.tabs other).authSessionInvalidated = true)
    (after : ((s.idleStep tab moved).tabs other).authSessionInvalidated = false) :
    ((moved (s.tabs tab)).tabs other).authSessionInvalidated = false := by
  unfold idleStep at after
  split at after
  · exact after
  · cases before.symm.trans after

theorem licensed_step (turn : Turn κ) (sound : s.Sound) : Licensed expiry s turn := by
  cases turn with
  | passes => exact licensed_of_steady fun other => rfl
  | proceeds tab => exact licensed_of_steady (steady_proceed tab)
  | fetches =>
    exact licensed_of_steady (steady_idleStep (steady_plainly (plainly_enter _ _ _ _ _) rfl))
  | refreshes => exact licensed_of_steady (steady_idleStep (steady_setTab rfl))
  | hears =>
    refine licensed_of_steady (steady_idleStep ?_)
    split
    · exact steady_setTab rfl
    · exact steady_setTab rfl
    · exact fun other => rfl
  | timesOut =>
    refine licensed_of_steady (steady_idleStep ?_)
    split
    · exact steady_setTab rfl
    · exact fun other => rfl
  | resumes =>
    refine licensed_of_steady (steady_idleStep ?_)
    split
    · exact steady_plainly (plainly_resume _ _ _ _ _ _) rfl
    · exact fun other => rfl
  | responds =>
    refine licensed_of_steady (steady_idleStep ?_)
    split
    · exact steady_plainly (plainly_respond _ _ _ _) rfl
    · exact fun other => rfl
  | retries =>
    refine licensed_of_steady (steady_idleStep ?_)
    split
    · exact steady_plainly (plainly_enter _ _ _ _ _) rfl
    · exact fun other => rfl
  | answers tab token =>
    intro other before after
    have ends := ends_of_idleStep before after
    split at ends
    · cases token with
      | none => cases (invalidated_of_invalidate _ other before).symm.trans ends
      | some =>
        by_cases here : other = tab
        · exact ⟨here.symm, rfl⟩
        · cases ((invalidated_of_answer here _ _).trans before).symm.trans ends
    · cases before.symm.trans ends
  | notified tab =>
    intro other before after
    have ends := ends_of_idleStep before after
    split at ends
    · rename_i token notes pending
      by_cases here : other = tab
      · subst here
        refine ⟨rfl, token, notes, pending, ?_⟩
        exact (sound.tabs other).notes token (pending ▸ List.mem_cons_self)
      · rw [setTab_of_ne s here] at ends
        cases before.symm.trans ends
    · cases (invalidated_of_invalidate _ other before).symm.trans ends
    · cases before.symm.trans ends
  | logsIn tab token =>
    intro other before after
    by_cases here : other = tab
    · exact here.symm
    · have ends := ends_of_idleStep before after
      have kept := steady_store (s := s) here { s.tabs tab with authSessionInvalidated := false }
        (some token)
      cases (kept.trans before).symm.trans ends
  | logsOut =>
    intro other before after
    cases (invalidated_of_invalidate _ other before).symm.trans (ends_of_idleStep before after)

end Licences

variable {s : Browser κ}

theorem Sound.alone (sound : s.Sound) : s.Alone := by
  intro tab other replaces replaces' flying flying'
  obtain ⟨lock, held, owner⟩ := sound.owned tab (by rw [flying]; rfl)
  obtain ⟨lock', held', owner'⟩ := sound.owned other (by rw [flying']; rfl)
  rw [held] at held'
  cases held'
  exact owner.symm.trans owner'

theorem Sound.renewed (sound : s.Sound) : s.Renewed :=
  fun tab _ token _ member => (sound.tabs tab).calls _ member token rfl

theorem sound_opened (now : Time) (token : Option κ) : (opened now token).Sound where
  owned tab held := by cases held
  stored other same := by simp [opened, show token = some other from same]
  tabs tab := ⟨trivial, trivial, fun point member => (List.not_mem_nil member).elim,
    fun other member => (List.not_mem_nil member).elim⟩

variable [DecidableEq κ]

/-- In a careful run the tabs refresh one token once, and the waiting ones get the new token. -/
theorem oneRefresh_of_careful (now : Time) (token : Option κ) (turns : List (Turn κ))
    (careful : Transition.Guarded (Careful expiry) (Browser.step expiry) (opened now token) turns) :
    OneRefresh expiry (opened now token) turns := by
  have sound := Transition.invariant_of_guarded (I := Sound)
    (fun s turn held guard => sound_step turn held guard) (sound_opened now token) careful
  refine ⟨fun t visited => (sound t visited).alone, fun t visited => (sound t visited).renewed, ?_⟩
  exact Transition.guarded_mono_of_guarded (fun s turn held guard => sound_step turn held guard)
    (fun s turn held _ _ => licensed_step turn held) (sound_opened now token) careful careful

def hourly (token : Nat) : Option Time := some (3600000 * (token + 1))

def overview : Options := ⟨false, false, false, false, true, 0⟩

def sharedRefresh : List (Turn Nat) :=
  [.passes 3550000, .fetches 0 overview, .fetches 1 overview, .proceeds 0, .proceeds 0, .proceeds 1,
    .proceeds 1, .answers 0 (some 1), .proceeds 0, .proceeds 0, .proceeds 0, .hears 1 0,
    .resumes 1 0, .resumes 0 0]

theorem oneRefresh_sharedRefresh : OneRefresh hourly (opened 0 (some 0)) sharedRefresh := by
  have careful : Transition.Guarded (Careful hourly) (Browser.step hourly) (opened 0 (some 0))
      sharedRefresh := by
    decide +kernel
  exact oneRefresh_of_careful 0 (some 0) sharedRefresh careful

def bothAcquire : List (Turn Nat) :=
  [.passes 3550000, .fetches 0 overview, .fetches 1 overview, .proceeds 0, .proceeds 1, .proceeds 0,
    .proceeds 1]

theorem not_oneRefresh_bothAcquire : ¬OneRefresh hourly (opened 0 (some 0)) bothAcquire := by
  intro once
  have alone := once.alone _ (Transition.run_mem_trace (Browser.step hourly) _ bothAcquire)
  have first : (((Transition.run (Browser.step hourly) (opened 0 (some 0)) bothAcquire).tabs
      0).refreshPromise) = some (.inFlight (some 0)) := by
    decide +kernel
  have second : (((Transition.run (Browser.step hourly) (opened 0 (some 0)) bothAcquire).tabs
      1).refreshPromise) = some (.inFlight (some 0)) := by
    decide +kernel
  cases alone 0 1 _ _ first second

end Browser

end AverQel.Frontend.Session
