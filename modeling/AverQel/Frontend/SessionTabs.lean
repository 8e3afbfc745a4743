/- digest: Browser tabs that refresh one session through shared storage, operation by operation. -/
import AverQel.Base
import Mathlib.Logic.Function.Basic

namespace AverQel.Frontend.Session

universe u

/-- `averqel_refresh_lock` -/
structure RefreshLock where
  owner : Nat
  expiresAt : Time
  deriving DecidableEq

/-- `REFRESH_LOCK_TTL_MS` -/
def refreshLockTtl : Time := 15000

/-- `ACCESS_TOKEN_REFRESH_BUFFER_MS` -/
def refreshBuffer : Time := 60000

/-- What `fetchWithAuth` reads of its endpoint and its options. -/
structure Options where
  (publicEndpoint refreshEndpoint isRetry skipAuthRefresh safeMethod : Bool)
  serviceBusyRetryCount : Nat
  deriving DecidableEq

/-- Who calls `refreshAccessToken`. -/
inductive Caller where
  | page
  | early (options : Options)
  | unauthorized (options : Options)
  deriving DecidableEq

section Types

variable (κ : Type u)

inductive AuthEvent where
  | tokenRefreshed (token : κ)
  | logout
  deriving DecidableEq

/-- What a call has returned. -/
inductive Outcome where
  | unauthorized
  | response
  | raised
  | token (token : Option κ)
  deriving DecidableEq

/-- How far a call has come. A call that waits for the refresh of another tab has an inbox for the
channel, and knows which token that tab replaces. -/
inductive Point where
  | asking (caller : Caller)
  | joined (caller : Caller)
  | waiting (caller : Caller) (owner : Nat) (replaced : Option κ) (inbox : List (AuthEvent κ))
  | resumed (caller : Caller) (replaced result : Option κ)
  | sent (options : Options) (token : Option κ)
  | delaying (options : Options)
  | ended (outcome : Outcome κ)
  deriving DecidableEq

/-- What a tab is doing without a pause; what it has read of the lock comes with it. -/
inductive Activity where
  | idle
  | asking (call : Nat)
  | clearing (call : Nat) (seen : RefreshLock)
  | writing (call : Nat) (seen : Option RefreshLock)
  | checking (call owner : Nat) (replaced : Option κ)
  | announcing (result : Option κ)
  | releasing (result : Option κ)
  | removing (result : Option κ) (seen : RefreshLock)
  | discarding (result : Option κ) (seen : RefreshLock)
  deriving DecidableEq

/-- The request of a `refreshPromise`, and the token that was stored when it was sent. -/
inductive Refresh where
  | inFlight (replaces : Option κ)
  | answered (replaces : Option κ)
  deriving DecidableEq

/-- The variables of a tab; `notes` are the storage events that it has still to handle. -/
structure Tab where
  authSessionInvalidated : Bool
  refreshPromise : Option (Refresh κ)
  activity : Activity κ
  calls : List (Point κ)
  notes : List (Option κ)

/-- The tabs and their storage, with every token that was granted. -/
structure Browser where
  now : Time
  lock : Option RefreshLock
  token : Option κ
  granted : List κ
  tabs : Nat → Tab κ

/-- The answer to the request of a call. -/
inductive Response where
  | unauthorized
  | overloaded
  | other
  | failed
  deriving DecidableEq

/-- What happens next: time passes, a page calls, a tab goes on, or something reaches it. -/
inductive Turn where
  | passes (delay : Nat)
  | fetches (tab : Nat) (options : Options)
  | refreshes (tab : Nat)
  | proceeds (tab : Nat)
  | answers (tab : Nat) (token : Option κ)
  | hears (tab call : Nat)
  | timesOut (tab call : Nat)
  | resumes (tab call : Nat)
  | responds (tab call : Nat) (response : Response)
  | retries (tab call : Nat)
  | notified (tab : Nat)
  | logsIn (tab : Nat) (token : κ)
  | logsOut (tab : Nat)
  deriving DecidableEq

end Types

variable {κ : Type u} [DecidableEq κ] (expiry : κ → Option Time)

/-- `shouldRefreshAccessToken` -/
def shouldRefreshAccessToken (now : Time) (token : Option κ) : Bool :=
  match token.bind expiry with
  | none => false
  | some expiryMs => expiryMs ≠ 0 ∧ expiryMs - now ≤ refreshBuffer

def Refresh.replaces : Refresh κ → Option κ
  | .inFlight replaces | .answered replaces => replaces

namespace Point

def hear (event : AuthEvent κ) : Point κ → Point κ
  | .waiting caller owner replaced inbox => .waiting caller owner replaced (inbox ++ [event])
  | point => point

/-- A settled `refreshPromise` resumes the calls that await it. -/
def settle (result : Option κ) : Point κ → Point κ
  | .joined caller => .resumed caller none result
  | point => point

end Point

namespace Tab

variable (t : Tab κ)

def at_ (call : Nat) (point : Point κ) : Tab κ := { t with calls := t.calls.set call point }

def turnsTo (activity : Activity κ) : Tab κ := { t with activity := activity }

def caller (call : Nat) : Caller :=
  match t.calls[call]? with
  | some (.asking caller) => caller
  | _ => .page

/-- The beginning of `fetchWithAuth`, up to its first pause. -/
def enter (now : Time) (token : Option κ) (call : Nat) (options : Options) : Tab κ :=
  if t.authSessionInvalidated ∧ !options.publicEndpoint then
    t.at_ call (.ended .unauthorized)
  else if !options.isRetry ∧ !options.skipAuthRefresh ∧ !options.publicEndpoint ∧
      shouldRefreshAccessToken expiry now token then
    (t.at_ call (.asking (.early options))).turnsTo (.asking call)
  else t.at_ call (.sent options token)

/-- `fetchWithAuth` after its request. -/
def respond (call : Nat) (options : Options) : Response → Tab κ
  | .unauthorized =>
    if !options.refreshEndpoint ∧ !options.isRetry ∧ !options.skipAuthRefresh then
      (t.at_ call (.asking (.unauthorized options))).turnsTo (.asking call)
    else t.at_ call (.ended .response)
  | .overloaded =>
    if options.safeMethod ∧ options.serviceBusyRetryCount < 2 then
      t.at_ call (.delaying { options with
        serviceBusyRetryCount := options.serviceBusyRetryCount + 1 })
    else t.at_ call (.ended .response)
  | .other => t.at_ call (.ended .response)
  | .failed => t.at_ call (.ended .raised)

/-- A call after its `refreshAccessToken` or its wait. -/
def resume (now : Time) (token : Option κ) (call : Nat) (result : Option κ) : Caller → Tab κ
  | .page => t.at_ call (.ended (.token result))
  | .early options =>
    match result with
    | none => t.at_ call (.ended .unauthorized)
    | some refreshed => t.at_ call (.sent options (some refreshed))
  | .unauthorized options =>
    match result with
    | none => t.at_ call (.ended .response)
    | some _ => t.enter expiry now token call
        { options with isRetry := true, skipAuthRefresh := false, serviceBusyRetryCount := 0 }

end Tab

namespace Browser

variable (s : Browser κ)

def setTab (tab : Nat) (t : Tab κ) : Browser κ := { s with tabs := Function.update s.tabs tab t }

/-- Write or remove `averqel_token`; the other tabs get a storage event if it changes. -/
def store (tab : Nat) (value : Option κ) : Browser κ :=
  { s with
    token := value
    tabs := fun other =>
      if other = tab ∨ value = s.token then s.tabs other
      else { s.tabs other with notes := (s.tabs other).notes ++ [value] } }

/-- `broadcastAuthEvent` -/
def broadcast (event : AuthEvent κ) : Browser κ :=
  { s with
    tabs := fun tab => { s.tabs tab with calls := (s.tabs tab).calls.map (Point.hear event) } }

def invalidate (tab : Nat) (t : Tab κ) : Browser κ :=
  (s.setTab tab { t with authSessionInvalidated := true }).store tab none

def replacedBy (owner : Nat) : Option κ := (s.tabs owner).refreshPromise.bind Refresh.replaces

def settle (tab : Nat) (result : Option κ) : Browser κ :=
  s.setTab tab { s.tabs tab with
    refreshPromise := none
    activity := .idle
    calls := (s.tabs tab).calls.map (Point.settle result) }

/-- `acquireRefreshLock` up to its next operation, of a tab that has no `refreshPromise`. -/
def readLock (tab call : Nat) : Activity κ :=
  match s.lock with
  | none => .writing call none
  | some lock =>
    if lock.expiresAt ≤ s.now then .clearing call lock
    else if lock.owner = tab then .writing call (some lock)
    else .checking call lock.owner (s.replacedBy lock.owner)

/-- The next operation of what a tab is doing. -/
def proceed (tab : Nat) : Browser κ :=
  let t := s.tabs tab
  match t.activity with
  | .idle => s
  | .asking call =>
    if t.refreshPromise.isSome then
      s.setTab tab ((t.at_ call (.joined (t.caller call))).turnsTo .idle)
    else s.setTab tab (t.turnsTo (s.readLock tab call))
  | .clearing call _ => { s with lock := none }.setTab tab (t.turnsTo (.writing call none))
  | .writing call _ =>
    { s with lock := some ⟨tab, s.now + refreshLockTtl⟩ }.setTab tab
      { t.at_ call (.joined (t.caller call)) with
        refreshPromise := some (.inFlight s.token)
        activity := .idle }
  | .checking call owner replaced =>
    if s.token.isSome ∧ !shouldRefreshAccessToken expiry s.now s.token then
      s.setTab tab ((t.at_ call (.resumed (t.caller call) replaced s.token)).turnsTo .idle)
    else s.setTab tab ((t.at_ call (.waiting (t.caller call) owner replaced [])).turnsTo .idle)
  | .announcing result =>
    (s.broadcast (result.elim .logout .tokenRefreshed)).setTab tab
      ((s.broadcast (result.elim .logout .tokenRefreshed)).tabs tab |>.turnsTo (.releasing result))
  | .releasing result =>
    match s.lock with
    | none => s.settle tab result
    | some lock =>
      if lock.expiresAt ≤ s.now then s.setTab tab (t.turnsTo (.discarding result lock))
      else if lock.owner = tab then s.setTab tab (t.turnsTo (.removing result lock))
      else s.settle tab result
  | .removing result _ | .discarding result _ => { s with lock := none }.settle tab result

/-- The answer to a refresh request, or its failure or timeout. -/
def answer (tab : Nat) (replaces token : Option κ) : Browser κ :=
  let t := { s.tabs tab with
    refreshPromise := some (.answered replaces)
    activity := .announcing token }
  match token with
  | some granted =>
    { (s.setTab tab { t with authSessionInvalidated := false }).store tab token with
      granted := granted :: s.granted }
  | none => s.invalidate tab t

def idleStep (tab : Nat) (moved : Tab κ → Browser κ) : Browser κ :=
  if (s.tabs tab).activity = .idle then moved (s.tabs tab) else s

def step : Turn κ → Browser κ
  | .passes delay => { s with now := s.now + delay }
  | .proceeds tab => s.proceed expiry tab
  | .fetches tab options => s.idleStep tab fun t =>
      s.setTab tab (({ t with calls := t.calls ++ [.delaying options] } : Tab κ).enter expiry s.now
        s.token t.calls.length options)
  | .refreshes tab => s.idleStep tab fun t =>
      s.setTab tab { t with
        calls := t.calls ++ [.asking .page]
        activity := .asking t.calls.length }
  | .answers tab token => s.idleStep tab fun t =>
      match t.refreshPromise with
      | some (.inFlight replaces) => s.answer tab replaces token
      | _ => s
  | .hears tab call => s.idleStep tab fun t =>
      match t.calls[call]? with
      | some (.waiting caller _ replaced (.tokenRefreshed token :: _)) =>
        s.setTab tab (t.at_ call (.resumed caller replaced (some token)))
      | some (.waiting caller _ replaced (.logout :: _)) =>
        s.setTab tab (t.at_ call (.resumed caller replaced none))
      | _ => s
  | .timesOut tab call => s.idleStep tab fun t =>
      match t.calls[call]? with
      | some (.waiting caller _ replaced _) =>
        s.setTab tab (t.at_ call (.resumed caller replaced s.token))
      | _ => s
  | .resumes tab call => s.idleStep tab fun t =>
      match t.calls[call]? with
      | some (.resumed caller _ result) =>
        s.setTab tab (t.resume expiry s.now s.token call result caller)
      | _ => s
  | .responds tab call response => s.idleStep tab fun t =>
      match t.calls[call]? with
      | some (.sent options _) => s.setTab tab (t.respond call options response)
      | _ => s
  | .retries tab call => s.idleStep tab fun t =>
      match t.calls[call]? with
      | some (.delaying options) => s.setTab tab (t.enter expiry s.now s.token call options)
      | _ => s
  | .notified tab => s.idleStep tab fun t =>
      match t.notes with
      | some _ :: notes => s.setTab tab { t with authSessionInvalidated := false, notes := notes }
      | none :: notes => s.invalidate tab { t with notes := notes }
      | [] => s
  | .logsIn tab token => s.idleStep tab fun t =>
      { (s.setTab tab { t with authSessionInvalidated := false }).store tab (some token) with
        granted := token :: s.granted }
  | .logsOut tab => s.idleStep tab fun t => s.invalidate tab t

def opened (now : Time) (token : Option κ) : Browser κ where
  now := now
  lock := none
  token := token
  granted := token.toList
  tabs _ := ⟨false, none, .idle, [], []⟩

end Browser

end AverQel.Frontend.Session
