/- digest: Validating a URL, fetching it through redirects, and when no private address is reached. -/
import AverQel.DeepSpace.IpAddresses
import AverQel.DeepSpace.UrlParsing
import AverQel.Foundation.Fallible

namespace AverQel.DeepSpace.Url

open Foundation

/-- Why reading fails. -/
inductive Failure
  /-- `ProviderRequestError` -/
  | provider (providerName : String) (statusCode : Int) (message : String)
  | valueError
  deriving DecidableEq

def refusal (statusCode : Int) (message : String) : Failure :=
  .provider "url_reader" statusCode message

/-- What `getaddrinfo` does: an entry without an address holds a text that is none. -/
inductive Resolution
  | addresses (found : List (Option IpAddress))
  | osError
  | valueError
  deriving DecidableEq

def Resolution.entries : Resolution → List (Option IpAddress)
  | addresses found => found
  | osError => []
  | valueError => []

abbrev Resolver := Nat → List Char → Resolution

section Validate

variable (tables : Tables) (resolve : Resolver)

def normalizedDomains (allowedDomains : List (List Char)) : List (List Char) :=
  (allowedDomains.filter fun item => Text.stripChars item ≠ []).map fun item =>
    (tables.lower (Text.stripChars item)).dropWhile (· = '.')

/-- The host is one of the domains or lies below one; without a list every host does. -/
def insideAllowlist (allowedDomains : Option (List (List Char))) (host : List Char) : Bool :=
  match allowedDomains with
  | none => true
  | some [] => true
  | some items =>
    (normalizedDomains tables items).any fun domain =>
      decide (host = domain) || ('.' :: domain).isSuffixOf host

def ParseResult.lookupName (p : ParseResult) : List Char :=
  tables.lower ((p.hostname tables).rdropWhile (· = '.'))

def ParseResult.openHttps (p : ParseResult) : Bool :=
  decide (p.scheme = https ∧ p.hostname tables ≠ [] ∧ p.username = [] ∧ p.password = [])

def checkEntry : Option IpAddress → Except Failure Unit
  | none => .error (refusal 502 "URL host resolved to an invalid address.")
  | some ip => ensure (ip.refused = false)
      (refusal 403 "Private and link-local URL targets are blocked.")

def checkEntries : List (Option IpAddress) → Except Failure Unit
  | [] => .ok ()
  | entry :: rest => do
    checkEntry entry
    checkEntries rest

def liftValueError {α : Type} : Except ValueError α → Except Failure α
  | .ok a => .ok a
  | .error _ => .error .valueError

/-- `validate_public_url`, whose lookup is the `call`-th. -/
def validatePublicUrl (allowedDomains : Option (List (List Char))) (call : Nat)
    (value : List Char) : Except Failure (List Char) := do
  let parsed ← liftValueError (urlparse tables [] (Text.stripChars value))
  ensure (parsed.openHttps tables = true)
    (refusal 400 "Only public HTTPS URLs without credentials are allowed.")
  let host := parsed.lookupName tables
  ensure (insideAllowlist tables allowedDomains host = true)
    (refusal 403 "URL domain is outside the configured allowlist.")
  let _ ← liftValueError parsed.port
  match resolve call host with
  | .osError => .error (refusal 502 "URL host could not be resolved.")
  | .valueError => .error .valueError
  | .addresses found =>
    checkEntries found
    return parsed.address

end Validate

structure Response where
  statusCode : Nat
  (location contentLength contentType : Option (List Char))
  chunks : List (List UInt8)
  /-- The transfer breaks after the chunks. -/
  broken : Bool
  deriving DecidableEq

inductive Reply
  | failed
  | response (response : Response)
  deriving DecidableEq

structure Page where
  (url contentType : List Char)
  payload : List UInt8
  deriving DecidableEq

/-- One request: the URL, the addresses that were connected to, and the reply. -/
structure Attempt where
  url : List Char
  connected : List (Option IpAddress)
  reply : Reply
  deriving DecidableEq

structure Fetched where
  validated : List (List Char)
  attempts : List Attempt
  result : Except Failure Page

/-- The world around the reader. -/
structure World where
  tables : Tables
  resolve : Resolver
  /-- A connection to the entry is accepted at this lookup. -/
  accepts : Nat → Option IpAddress → Bool
  serve : Nat → List Char → Reply

def maxRedirects : Nat := 3

variable (world : World)

def natural (tables : Tables) (text : List Char) : Option Nat :=
  let groups := Splitting.splitOn ['_'] text
  if groups.all (fun group => !group.isEmpty && group.all fun c => (tables.decimal c).isSome) ∧
      groups.flatten.length ≤ 4300 then
    some (groups.flatten.foldl (fun n c => n * 10 + (tables.decimal c).getD 0) 0)
  else none

/-- `int` of a text. -/
def parseInt (tables : Tables) (text : List Char) : Option Int :=
  match Text.stripChars text with
  | '-' :: digits => (natural tables digits).map fun n => -(n : Int)
  | '+' :: digits => (natural tables digits).map fun n => (n : Int)
  | digits => (natural tables digits).map fun n => (n : Int)

/-- Read until more than `maxBytes` were received; `none` when the transfer breaks before. -/
def readChunks (maxBytes : Int) (broken : Bool) : Nat → List (List UInt8) → Option (List UInt8)
  | _, [] => if broken then none else some []
  | received, chunk :: rest =>
    if (received + chunk.length : Nat) > maxBytes then some chunk
    else (readChunks maxBytes broken (received + chunk.length) rest).map (chunk ++ ·)

def checkLength (maxBytes : Int) (contentLength : Option (List Char)) : Except Failure Unit :=
  match contentLength with
  | none => .ok ()
  | some [] => .ok ()
  | some text =>
    match parseInt world.tables text with
    | none => .error (refusal 502 "URL returned an invalid content length.")
    | some declared =>
      ensure (declared ≤ maxBytes) (refusal 413 "URL response is larger than the allowed limit.")

/-- The page of a response that is no redirect. -/
def receive (maxBytes : Int) (current : List Char) (response : Response) : Except Failure Page := do
  ensure (response.statusCode < 400) (refusal response.statusCode
    ("URL returned HTTP " ++ toString response.statusCode ++ "."))
  checkLength world maxBytes response.contentLength
  match readChunks maxBytes response.broken 0 response.chunks with
  | none => .error (refusal 502 "URL request failed.")
  | some payload =>
    let contentType := response.contentType.getD "application/octet-stream".toList
    return ⟨current, world.tables.lower (partition ';' contentType).1, payload⟩

def clientHost (tables : Tables) (url : List Char) : List Char :=
  match urlparse tables [] url with
  | .ok p => p.hostname tables
  | .error _ => []

/-- The entries are connected to in turn, up to the first that accepts. -/
def connectInTurn (accepts : Option IpAddress → Bool) :
    List (Option IpAddress) → List (Option IpAddress) × Bool
  | [] => ([], false)
  | entry :: rest =>
    if accepts entry then ([entry], true)
    else
      let (tried, connected) := connectInTurn accepts rest
      (entry :: tried, connected)

/-- `client.stream`, whose lookup is the `call`-th. -/
def request (call : Nat) (url : List Char) : Attempt :=
  let (tried, connected) := connectInTurn (world.accepts call)
    (world.resolve call (clientHost world.tables url)).entries
  ⟨url, tried, if connected then world.serve call url else .failed⟩

def insideTry {α : Type} : Except Failure α → Except Failure α
  | .error .valueError => .error (refusal 502 "URL request failed.")
  | result => result

/-- The URL that a redirect leads to. -/
def followRedirect (allowedDomains : Option (List (List Char))) (call : Nat) (current : List Char)
    (location : Option (List Char)) : Except Failure (List Char) :=
  match location.getD [] with
  | [] => .error (refusal 502 "URL redirect did not include a location.")
  | location => insideTry do
    let target ← liftValueError (urljoin world.tables current location)
    validatePublicUrl world.tables world.resolve allowedDomains call target

/-- The loop of `_fetch` with `turns` requests left. -/
def fetchLoop (allowedDomains : Option (List (List Char))) (maxBytes : Int) :
    Nat → Nat → List Char → Fetched
  | 0, _, _ => ⟨[], [], .error (refusal 508 "Too many redirects.")⟩
  | turns + 1, call, current =>
    let attempt := request world call current
    match attempt.reply with
    | .failed => ⟨[], [attempt], .error (refusal 502 "URL request failed.")⟩
    | .response response =>
      if 300 ≤ response.statusCode ∧ response.statusCode < 400 then
        match followRedirect world allowedDomains (call + 1) current response.location with
        | .error failure => ⟨[], [attempt], .error failure⟩
        | .ok next =>
          let later := fetchLoop allowedDomains maxBytes turns (call + 2) next
          ⟨next :: later.validated, attempt :: later.attempts, later.result⟩
      else ⟨[], [attempt], receive world maxBytes current response⟩

/-- `_fetch`, whose first lookup is the `call`-th. -/
def fetch (allowedDomains : Option (List (List Char))) (maxBytes : Int) (call : Nat)
    (url : List Char) : Fetched :=
  match validatePublicUrl world.tables world.resolve allowedDomains call url with
  | .error failure => ⟨[], [], .error failure⟩
  | .ok current =>
    let later := fetchLoop world allowedDomains maxBytes (maxRedirects + 1) (call + 1) current
    ⟨current :: later.validated, later.attempts, later.result⟩

def Inside (tables : Tables) (allowedDomains : Option (List (List Char))) (host : List Char) :
    Prop :=
  ∀ items, allowedDomains = some items → items ≠ [] →
    ∃ domain ∈ normalizedDomains tables items, host = domain ∨ ('.' :: domain) <:+ host

def requestedHost (tables : Tables) (url : List Char) : List Char :=
  tables.lower ((clientHost tables url).rdropWhile (· = '.'))

/-- What a fetch must keep to. -/
structure Protects (tables : Tables) (allowedDomains : Option (List (List Char))) (maxBytes : Int)
    (fetched : Fetched) : Prop where
  /-- No address that is connected to is private. -/
  publicOnly : ∀ attempt ∈ fetched.attempts, ∀ address, some address ∈ attempt.connected →
    address.Public
  inside : ∀ attempt ∈ fetched.attempts,
    Inside tables allowedDomains (requestedHost tables attempt.url)
  few : fetched.attempts.length ≤ maxRedirects + 1
  /-- The page is what the last request was sent, and its URL the last one that was validated. -/
  source : ∀ page, fetched.result = .ok page →
    fetched.validated.getLast? = some page.url ∧
    ∃ attempt response, fetched.attempts.getLast? = some attempt ∧ attempt.url = page.url ∧
      attempt.reply = .response response ∧
      readChunks maxBytes response.broken 0 response.chunks = some page.payload

def AllPublic (resolution : Resolution) : Prop :=
  ∃ found, resolution = .addresses found ∧
    ∀ entry ∈ found, ∃ address : IpAddress, entry = some address ∧ address.Public

def Steady (tables : Tables) (resolve : Resolver) : Prop :=
  ∀ call text parsed, urlparse tables [] (Text.stripChars text) = .ok parsed →
    parsed.openHttps tables = true → parsed.port ≠ .error .valueError →
    AllPublic (resolve call (parsed.lookupName tables)) →
    ∀ address, some address ∈ (resolve (call + 1) (parsed.hostname tables)).entries →
      address.Public

variable {tables : Tables} {resolve : Resolver} {allowedDomains : Option (List (List Char))}

theorem inside_of_insideAllowlist {host : List Char}
    (passed : insideAllowlist tables allowedDomains host = true) :
    Inside tables allowedDomains host := by
  rintro items rfl filled
  cases items with
  | nil => exact absurd rfl filled
  | cons =>
    obtain ⟨domain, member, found⟩ := List.any_eq_true.mp passed
    rw [Bool.or_eq_true, decide_eq_true_eq, List.isSuffixOf_iff_suffix] at found
    exact ⟨domain, member, found⟩

theorem checkEntries_eq_ok_iff {found : List (Option IpAddress)} {done : Unit} :
    checkEntries found = .ok done ↔
      ∀ entry ∈ found, ∃ address : IpAddress, entry = some address ∧ address.Public := by
  induction found with
  | nil =>
    constructor
    · intro _ entry member
      cases member
    · intro _
      rfl
  | cons entry rest ih =>
    rw [checkEntries, bind_eq_ok_iff, List.forall_mem_cons]
    cases entry with
    | none =>
      constructor
      · rintro ⟨_, checked, _⟩
        cases checked
      · rintro ⟨⟨_, same, _⟩, _⟩
        cases same
    | some ip =>
      constructor
      · rintro ⟨_, checked, later⟩
        have open_ := IpAddress.refused_eq_false_iff.mp (ensure_eq_ok_iff.mp checked)
        exact ⟨⟨ip, rfl, open_⟩, ih.mp later⟩
      · rintro ⟨⟨_, same, open_⟩, later⟩
        obtain rfl := Option.some.inj same
        exact ⟨⟨⟩, ensure_eq_ok_iff.mpr (IpAddress.refused_eq_false_iff.mpr open_), ih.mpr later⟩

theorem liftValueError_eq_ok_iff {α : Type} {x : Except ValueError α} {a : α} :
    liftValueError x = .ok a ↔ x = .ok a := by
  cases x <;> simp [liftValueError]

theorem validatePublicUrl_eq_ok_iff {call : Nat} {value current : List Char} :
    validatePublicUrl tables resolve allowedDomains call value = .ok current ↔
      ∃ parsed, urlparse tables [] (Text.stripChars value) = .ok parsed ∧
        parsed.openHttps tables = true ∧
        insideAllowlist tables allowedDomains (parsed.lookupName tables) = true ∧
        parsed.port ≠ .error .valueError ∧
        AllPublic (resolve call (parsed.lookupName tables)) ∧ current = parsed.address := by
  simp only [validatePublicUrl, bind_eq_ok_iff, liftValueError_eq_ok_iff, ensure_eq_ok_iff]
  constructor
  · rintro ⟨parsed, same, _, secure, _, inside, port, read, looked⟩
    refine ⟨parsed, same, secure, inside, ?_, ?_⟩
    · rw [read]
      exact fun failed => by cases failed
    · cases answer : resolve call (parsed.lookupName tables) with
      | osError | valueError =>
        rw [answer] at looked
        cases looked
      | addresses found =>
        rw [answer] at looked
        obtain ⟨_, checked, done⟩ := bind_eq_ok_iff.mp looked
        exact ⟨⟨found, rfl, checkEntries_eq_ok_iff.mp checked⟩, (Except.ok.inj done).symm⟩
  · rintro ⟨parsed, same, secure, inside, read, ⟨found, answer, checked⟩, rfl⟩
    refine ⟨parsed, same, ⟨⟩, secure, ⟨⟩, inside, ?_⟩
    cases written : parsed.port with
    | error failure =>
      cases failure
      exact absurd written read
    | ok port =>
      refine ⟨port, rfl, ?_⟩
      rw [answer]
      exact bind_eq_ok_iff.mpr ⟨⟨⟩, checkEntries_eq_ok_iff.mpr checked, rfl⟩

theorem clientHost_address {text : List Char} {parsed : ParseResult}
    (same : urlparse tables [] text = .ok parsed) (secure : parsed.openHttps tables = true) :
    clientHost tables parsed.address = parsed.hostname tables := by
  obtain ⟨scheme, named, _, _⟩ := of_decide_eq_true secure
  obtain ⟨again, read, _, netloc⟩ :=
    urlparse_address same scheme (ParseResult.netloc_ne_nil named) []
  unfold clientHost
  rw [read]
  exact parsed.hostname_congr tables netloc

variable {world : World} {allowedDomains : Option (List (List Char))} {maxBytes : Int}

theorem mem_of_connectInTurn {accepts : Option IpAddress → Bool}
    {found : List (Option IpAddress)} {entry : Option IpAddress}
    (tried : entry ∈ (connectInTurn accepts found).1) : entry ∈ found := by
  induction found with
  | nil => cases tried
  | cons first rest ih =>
    rw [connectInTurn] at tried
    split_ifs at tried with accepted
    · rw [List.mem_singleton] at tried
      exact tried ▸ List.mem_cons_self
    · rcases List.mem_cons.mp tried with rfl | later
      · exact List.mem_cons_self
      · exact List.mem_cons_of_mem _ (ih later)

theorem connectInTurn_of_refused (found : List (Option IpAddress)) :
    connectInTurn (fun _ => false) found = (found, false) := by
  induction found with
  | nil => rfl
  | cons first rest ih =>
    rw [connectInTurn, ih]
    rfl

theorem readChunks_of_receive {current : List Char} {response : Response} {page : Page}
    (received : receive world maxBytes current response = .ok page) :
    page.url = current ∧
      readChunks maxBytes response.broken 0 response.chunks = some page.payload := by
  simp only [receive, bind_eq_ok_iff] at received
  obtain ⟨_, _, _, _, read⟩ := received
  cases chunks : readChunks maxBytes response.broken 0 response.chunks with
  | none =>
    rw [chunks] at read
    cases read
  | some =>
    rw [chunks] at read
    obtain rfl := Except.ok.inj read
    exact ⟨rfl, rfl⟩

theorem validated_of_followRedirect {call : Nat} {current next : List Char}
    {location : Option (List Char)}
    (followed : followRedirect world allowedDomains call current location = .ok next) :
    ∃ target, validatePublicUrl world.tables world.resolve allowedDomains call target =
      .ok next := by
  unfold followRedirect at followed
  split at followed
  · cases followed
  · unfold insideTry at followed
    split at followed
    · cases followed
    · obtain ⟨target, _, validated⟩ := bind_eq_ok_iff.mp followed
      exact ⟨target, validated⟩

theorem fetchLoop_cases (world : World) (allowedDomains : Option (List (List Char)))
    (maxBytes : Int) (turns call : Nat) (current : List Char) :
    (∃ result, fetchLoop world allowedDomains maxBytes (turns + 1) call current =
        ⟨[], [request world call current], result⟩ ∧
      ∀ page, result = .ok page → ∃ response,
        (request world call current).reply = .response response ∧
        receive world maxBytes current response = .ok page) ∨
    ∃ next location,
      followRedirect world allowedDomains (call + 1) current location = .ok next ∧
      fetchLoop world allowedDomains maxBytes (turns + 1) call current =
        let later := fetchLoop world allowedDomains maxBytes turns (call + 2) next
        ⟨next :: later.validated, request world call current :: later.attempts, later.result⟩ := by
  rw [fetchLoop]
  dsimp only
  cases reply : (request world call current).reply with
  | failed => exact .inl ⟨_, rfl, fun page failed => by cases failed⟩
  | response response =>
    dsimp only
    split_ifs with redirect
    · cases followed : followRedirect world allowedDomains (call + 1) current
          response.location with
      | error failure => exact .inl ⟨_, rfl, fun page failed => by cases failed⟩
      | ok next => exact .inr ⟨next, response.location, followed, rfl⟩
    · exact .inl ⟨_, rfl, fun page received => ⟨response, rfl, received⟩⟩

theorem forall_attempt_fetchLoop {good : Nat → List Char → Prop}
    (validated : ∀ call value next, validatePublicUrl world.tables world.resolve allowedDomains
      call value = .ok next → good (call + 1) next)
    {turns call : Nat} {current : List Char} (start : good call current) :
    ∀ attempt ∈ (fetchLoop world allowedDomains maxBytes turns call current).attempts,
      ∃ call url, attempt = request world call url ∧ good call url := by
  induction turns generalizing call current with
  | zero =>
    intro attempt member
    cases member
  | succ turns ih =>
    rcases fetchLoop_cases world allowedDomains maxBytes turns call current with
      ⟨result, same, _⟩ | ⟨next, location, followed, same⟩
    · rw [same]
      intro attempt member
      rw [List.mem_singleton] at member
      exact ⟨call, current, member, start⟩
    · rw [same]
      intro attempt member
      rcases List.mem_cons.mp member with rfl | later
      · exact ⟨call, current, rfl, start⟩
      · obtain ⟨target, ok⟩ := validated_of_followRedirect followed
        exact ih (validated (call + 1) target next ok) attempt later

theorem length_fetchLoop (turns call : Nat) (current : List Char) :
    (fetchLoop world allowedDomains maxBytes turns call current).attempts.length ≤ turns := by
  induction turns generalizing call current with
  | zero => exact Nat.le_refl _
  | succ turns ih =>
    rcases fetchLoop_cases world allowedDomains maxBytes turns call current with
      ⟨result, same, _⟩ | ⟨next, location, _, same⟩
    · rw [same]
      exact Nat.succ_le_succ (Nat.zero_le turns)
    · rw [same]
      have fewer := ih (call + 2) next
      simp only [List.length_cons]
      omega

theorem source_fetchLoop {turns call : Nat} {current : List Char} {page : Page}
    (done : (fetchLoop world allowedDomains maxBytes turns call current).result = .ok page) :
    (current :: (fetchLoop world allowedDomains maxBytes turns call current).validated).getLast? =
        some page.url ∧
      ∃ attempt response,
        (fetchLoop world allowedDomains maxBytes turns call current).attempts.getLast? =
          some attempt ∧
        attempt.url = page.url ∧ attempt.reply = .response response ∧
        readChunks maxBytes response.broken 0 response.chunks = some page.payload := by
  induction turns generalizing call current with
  | zero => cases done
  | succ turns ih =>
    rcases fetchLoop_cases world allowedDomains maxBytes turns call current with
      ⟨result, same, received⟩ | ⟨next, location, _, same⟩
    · rw [same] at done ⊢
      obtain ⟨response, reply, page_⟩ := received page done
      obtain ⟨url, payload⟩ := readChunks_of_receive page_
      exact ⟨congrArg some url.symm, _, response, rfl, url.symm, reply, payload⟩
    · rw [same] at done ⊢
      obtain ⟨last, attempt, response, sent, rest⟩ := ih done
      refine ⟨?_, attempt, response, ?_, rest⟩
      · rw [List.getLast?_cons_cons]
        exact last
      · dsimp only
        rw [List.getLast?_cons, sent]
        rfl

def Vetted (world : World) (allowedDomains : Option (List (List Char))) (call : Nat)
    (current : List Char) : Prop :=
  ∃ before value, call = before + 1 ∧
    validatePublicUrl world.tables world.resolve allowedDomains before value = .ok current

theorem inside_of_vetted {call : Nat} {current : List Char}
    (vetted : Vetted world allowedDomains call current) :
    Inside world.tables allowedDomains (requestedHost world.tables current) := by
  obtain ⟨before, value, _, validated⟩ := vetted
  obtain ⟨parsed, same, secure, inside, _, _, rfl⟩ := validatePublicUrl_eq_ok_iff.mp validated
  unfold requestedHost
  rw [clientHost_address same secure]
  exact inside_of_insideAllowlist inside

theorem public_of_vetted (steady : Steady world.tables world.resolve) {call : Nat}
    {current : List Char} (vetted : Vetted world allowedDomains call current) :
    ∀ address, some address ∈ (request world call current).connected → address.Public := by
  obtain ⟨before, value, rfl, validated⟩ := vetted
  obtain ⟨parsed, same, secure, _, port, found, rfl⟩ := validatePublicUrl_eq_ok_iff.mp validated
  intro address tried
  have entry := mem_of_connectInTurn tried
  rw [clientHost_address same secure] at entry
  exact steady before value parsed same secure port found address entry

theorem fetch_cases (world : World) (allowedDomains : Option (List (List Char))) (maxBytes : Int)
    (call : Nat) (url : List Char) :
    (∃ failure, fetch world allowedDomains maxBytes call url = ⟨[], [], .error failure⟩) ∨
    ∃ current, Vetted world allowedDomains (call + 1) current ∧
      fetch world allowedDomains maxBytes call url =
        let later := fetchLoop world allowedDomains maxBytes (maxRedirects + 1) (call + 1) current
        ⟨current :: later.validated, later.attempts, later.result⟩ := by
  unfold fetch
  cases validated : validatePublicUrl world.tables world.resolve allowedDomains call url with
  | error failure => exact .inl ⟨failure, rfl⟩
  | ok current => exact .inr ⟨current, ⟨call, url, rfl, validated⟩, rfl⟩

theorem forall_attempt_fetch {call : Nat} {url : List Char} :
    ∀ attempt ∈ (fetch world allowedDomains maxBytes call url).attempts,
      ∃ later current, attempt = request world later current ∧
        Vetted world allowedDomains later current := by
  rcases fetch_cases world allowedDomains maxBytes call url with
    ⟨failure, same⟩ | ⟨current, vetted, same⟩
  · rw [same]
    intro attempt member
    cases member
  · rw [same]
    exact forall_attempt_fetchLoop
      (fun before value next validated => ⟨before, value, rfl, validated⟩) vetted

theorem protects_of_steady (steady : Steady world.tables world.resolve) (call : Nat)
    (url : List Char) :
    Protects world.tables allowedDomains maxBytes
      (fetch world allowedDomains maxBytes call url) where
  publicOnly := by
    intro attempt member
    obtain ⟨later, current, rfl, vetted⟩ := forall_attempt_fetch attempt member
    exact public_of_vetted steady vetted
  inside := by
    intro attempt member
    obtain ⟨later, current, rfl, vetted⟩ := forall_attempt_fetch attempt member
    exact inside_of_vetted vetted
  few := by
    rcases fetch_cases world allowedDomains maxBytes call url with
      ⟨failure, same⟩ | ⟨current, _, same⟩
    · rw [same]
      exact Nat.zero_le _
    · rw [same]
      exact length_fetchLoop _ _ _
  source := by
    intro page done
    rcases fetch_cases world allowedDomains maxBytes call url with
      ⟨failure, same⟩ | ⟨current, _, same⟩
    · rw [same] at done
      cases done
    · rw [same] at done ⊢
      exact source_fetchLoop done

theorem request_of_refused (tables : Tables) (resolve : Resolver) (serve : Nat → List Char → Reply)
    (call : Nat) (url : List Char) :
    request ⟨tables, resolve, fun _ _ => false, serve⟩ call url =
      ⟨url, (resolve call (clientHost tables url)).entries, .failed⟩ := by
  simp only [request, connectInTurn_of_refused]
  rfl

/-- No private address is ever reached exactly when no host turns from public addresses to
another one between the lookup of the validation and that of the connection. -/
theorem protects_iff_steady (tables : Tables) (resolve : Resolver) :
    (∀ accepts serve allowedDomains maxBytes call url,
      Protects tables allowedDomains maxBytes
        (fetch ⟨tables, resolve, accepts, serve⟩ allowedDomains maxBytes call url)) ↔
      Steady tables resolve := by
  constructor
  · intro protects call text parsed same secure port found address entry
    have validated : validatePublicUrl tables resolve none call text = .ok parsed.address :=
      validatePublicUrl_eq_ok_iff.mpr ⟨parsed, same, secure, rfl, port, found, rfl⟩
    have kept := protects (fun _ _ => false) (fun _ _ => .failed) none 0 call text
    have sent : request ⟨tables, resolve, fun _ _ => false, fun _ _ => .failed⟩ (call + 1)
        parsed.address ∈ (fetch ⟨tables, resolve, fun _ _ => false, fun _ _ => .failed⟩ none 0
          call text).attempts := by
      unfold fetch
      rw [validated]
      dsimp only
      rw [fetchLoop, request_of_refused]
      exact List.mem_singleton_self _
    apply kept.publicOnly _ sent address
    rw [request_of_refused, clientHost_address same secure]
    exact entry
  · intro steady accepts serve allowedDomains maxBytes call url
    have kept : Steady (World.mk tables resolve accepts serve).tables
        (World.mk tables resolve accepts serve).resolve := steady
    exact protects_of_steady kept call url

def asciiTables : Tables where
  lower := List.map Char.toLower
  decimal c := if c.isDigit then some (c.toNat - 48) else none
  bracketedHost _ := false
  expands _ := false

def rebound : World where
  tables := asciiTables
  resolve call _ := .addresses
    [some (.v4 (if call = 0 then quad 93 184 216 34 else quad 127 0 0 1))]
  accepts _ _ := true
  serve _ _ := .response ⟨200, none, none, none, [[123, 125]], false⟩

/-- The reader connects to the loopback address behind a name that it found to be public. -/
theorem not_protects_rebound :
    ¬Protects rebound.tables (some ["a.io".toList]) 16384
      (fetch rebound (some ["a.io".toList]) 16384 0 "https://a.io/".toList) := by
  intro kept
  have reached : (⟨"https://a.io/".toList, [some (.v4 (quad 127 0 0 1))],
      .response ⟨200, none, none, none, [[123, 125]], false⟩⟩ : Attempt) ∈
      (fetch rebound (some ["a.io".toList]) 16384 0 "https://a.io/".toList).attempts := by
    decide +kernel
  have open_ := kept.publicOnly _ reached _ (List.mem_singleton_self _)
  exact absurd open_.notLoopback (by decide)

end AverQel.DeepSpace.Url
