/- digest: Taking URLs apart, putting them together and joining them, as urllib does. -/
import AverQel.Foundation.Splitting
import AverQel.Foundation.Text

namespace AverQel.DeepSpace.Url

open Foundation

/-- What depends on the tables of Unicode and on the literals between brackets. -/
structure Tables where
  /-- `str.lower` -/
  lower : List Char → List Char
  /-- The decimal value of a digit of any script. -/
  decimal : Char → Option Nat
  /-- `_check_bracketed_host` lets the host through. -/
  bracketedHost : List Char → Bool
  /-- Normalisation brings a delimiter into the host. -/
  expands : List Char → Bool

/-- `ValueError` -/
inductive ValueError
  | valueError
  deriving DecidableEq

structure SplitResult where
  (scheme netloc url query fragment : List Char)
  deriving DecidableEq

structure ParseResult where
  (scheme netloc path params query fragment : List Char)
  deriving DecidableEq

/-- The text before the first `c`, and the text after it when there is one. -/
def partition (c : Char) (text : List Char) : List Char × Option (List Char) :=
  (text.takeWhile (· ≠ c), (text.dropWhile (· ≠ c)).tail?)

/-- The text after the last `c`, the whole text without one. -/
def afterLast (c : Char) (text : List Char) : List Char := text.rtakeWhile (· ≠ c)

def isNetlocDelimiter (c : Char) : Bool := c = '/' || c = '?' || c = '#'

def splitNetloc (url : List Char) : List Char × List Char :=
  (url.takeWhile (!isNetlocDelimiter ·), url.dropWhile (!isNetlocDelimiter ·))

def splitAuthority : List Char → List Char × List Char
  | '/' :: '/' :: rest => splitNetloc rest
  | url => ([], url)

/-- `_UNSAFE_URL_BYTES_TO_REMOVE` -/
def isUnsafeUrlByte (c : Char) : Bool := c = '\t' || c = '\r' || c = '\n'

def isC0ControlOrSpace (c : Char) : Bool := c.toNat ≤ 32

/-- `scheme_chars` -/
def isSchemeChar (c : Char) : Bool := c.isAlphanum || c = '+' || c = '-' || c = '.'

def splitScheme (scheme url : List Char) : List Char × List Char :=
  match partition ':' url with
  | (name, some rest) =>
    if name.head?.any Char.isAlpha && name.all isSchemeChar then (name.map Char.toLower, rest)
    else (scheme, url)
  | (_, none) => (scheme, url)

variable (tables : Tables)

def bracketsPass (netloc : List Char) : Bool :=
  if '[' ∈ netloc ∧ ']' ∈ netloc then
    tables.bracketedHost (partition ']' ((partition '[' netloc).2.getD [])).1
  else decide ('[' ∉ netloc ∧ ']' ∉ netloc)

def checkNetloc (netloc : List Char) : Bool :=
  netloc.all (fun c => decide (c.toNat < 128)) || !tables.expands netloc

def urlsplit (scheme url : List Char) : Except ValueError SplitResult :=
  let cleaned := (url.dropWhile isC0ControlOrSpace).filter (!isUnsafeUrlByte ·)
  let (scheme, url) := splitScheme scheme cleaned
  let (netloc, url) := splitAuthority url
  let (url, fragment) := partition '#' url
  let (url, query) := partition '?' url
  if bracketsPass tables netloc && checkNetloc tables netloc then
    .ok ⟨scheme, netloc, url, query.getD [], fragment.getD []⟩
  else .error .valueError

def usesRelative : List String :=
  ["", "ftp", "http", "gopher", "nntp", "imap", "wais", "file", "https", "shttp", "mms",
    "prospero", "rtsp", "rtsps", "rtspu", "sftp", "svn", "svn+ssh", "ws", "wss"]

def usesNetloc : List String :=
  ["", "ftp", "http", "gopher", "nntp", "telnet", "imap", "wais", "file", "mms", "https", "shttp",
    "snews", "prospero", "rtsp", "rtsps", "rtspu", "rsync", "svn", "svn+ssh", "sftp", "nfs",
    "git", "git+ssh", "ws", "wss"]

def usesParams : List String :=
  ["", "ftp", "hdl", "prospero", "http", "imap", "https", "shttp", "rtsp", "rtsps", "rtspu",
    "sip", "sips", "mms", "sftp", "tel"]

def splitParams (url : List Char) : List Char × List Char :=
  match partition ';' (afterLast '/' url) with
  | (name, some params) => (url.rdropWhile (· ≠ '/') ++ name, params)
  | (_, none) => (url, [])

def urlparse (scheme url : List Char) : Except ValueError ParseResult :=
  (urlsplit tables scheme url).map fun s =>
    let (path, params) :=
      if String.ofList s.scheme ∈ usesParams ∧ ';' ∈ s.url then splitParams s.url else (s.url, [])
    ⟨s.scheme, s.netloc, path, params, s.query, s.fragment⟩

def urlunsplit (s : SplitResult) : List Char :=
  let url :=
    if s.netloc ≠ [] ∨ (s.scheme ≠ [] ∧ String.ofList s.scheme ∈ usesNetloc) ∨
        s.url.take 2 = ['/', '/'] then
      ['/', '/'] ++ s.netloc ++ if s.url ≠ [] ∧ s.url.head? ≠ some '/' then '/' :: s.url else s.url
    else s.url
  let url := if s.scheme ≠ [] then s.scheme ++ ':' :: url else url
  let url := if s.query ≠ [] then url ++ '?' :: s.query else url
  if s.fragment ≠ [] then url ++ '#' :: s.fragment else url

def urlunparse (p : ParseResult) : List Char :=
  urlunsplit ⟨p.scheme, p.netloc, if p.params ≠ [] then p.path ++ ';' :: p.params else p.path,
    p.query, p.fragment⟩

def withoutEmpty (segments : List (List Char)) : List (List Char) :=
  segments.take 1 ++ ((segments.drop 1).dropLast.filter (· ≠ [])) ++
    (segments.drop 1).getLast?.toList

def resolveSegment (resolved : List (List Char)) (segment : List Char) : List (List Char) :=
  if segment = ['.', '.'] then resolved.dropLast
  else if segment = ['.'] then resolved
  else resolved ++ [segment]

def resolvePath (basePath path : List Char) : List Char :=
  let baseParts := Splitting.splitOn ['/'] basePath
  let baseParts := if baseParts.getLast? = some [] then baseParts else baseParts.dropLast
  let segments :=
    if path.head? = some '/' then Splitting.splitOn ['/'] path
    else withoutEmpty (baseParts ++ Splitting.splitOn ['/'] path)
  let resolved := segments.foldl resolveSegment []
  let resolved :=
    if segments.getLast? = some ['.'] ∨ segments.getLast? = some ['.', '.'] then resolved ++ [[]]
    else resolved
  let joined := ['/'].intercalate resolved
  if joined = [] then ['/'] else joined

def urljoin (base url : List Char) : Except ValueError (List Char) := do
  if base = [] then return url
  if url = [] then return base
  let b ← urlparse tables [] base
  let p ← urlparse tables b.scheme url
  if p.scheme ≠ b.scheme ∨ String.ofList p.scheme ∉ usesRelative then return url
  if String.ofList p.scheme ∈ usesNetloc ∧ p.netloc ≠ [] then return urlunparse p
  let netloc := if String.ofList p.scheme ∈ usesNetloc then b.netloc else p.netloc
  if p.path = [] ∧ p.params = [] then
    let query := if p.query = [] then b.query else p.query
    return urlunparse ⟨p.scheme, netloc, b.path, b.params, query, p.fragment⟩
  return urlunparse ⟨p.scheme, netloc, resolvePath b.path p.path, p.params, p.query, p.fragment⟩

namespace ParseResult

variable (p : ParseResult)

def userinfo : List Char × List Char :=
  if '@' ∈ p.netloc then
    let parts := partition ':' (p.netloc.rdropWhile (· ≠ '@')).dropLast
    (parts.1, parts.2.getD [])
  else ([], [])

def username : List Char := p.userinfo.1

def password : List Char := p.userinfo.2

/-- The host, and the port as it is written. -/
def hostinfo : List Char × List Char :=
  match partition '[' (afterLast '@' p.netloc) with
  | (_, some bracketed) =>
    let (hostname, rest) := partition ']' bracketed
    (hostname, (partition ':' (rest.getD [])).2.getD [])
  | (_, none) =>
    let (hostname, port) := partition ':' (afterLast '@' p.netloc)
    (hostname, port.getD [])

def hostname : List Char :=
  let host := p.hostinfo.1
  if host = [] then []
  else tables.lower (host.takeWhile (· ≠ '%')) ++ host.dropWhile (· ≠ '%')

def digits (text : List Char) : Nat := text.foldl (fun n c => n * 10 + (c.toNat - 48)) 0

def port : Except ValueError (Option Nat) :=
  let port := p.hostinfo.2
  if port = [] then .ok none
  else if port.all Char.isDigit ∧ digits port ≤ 65535 then .ok (some (digits port))
  else .error .valueError

theorem hostname_congr {q : ParseResult} (same : q.netloc = p.netloc) :
    q.hostname tables = p.hostname tables := by
  unfold hostname hostinfo
  rw [same]

variable {tables p}

theorem netloc_ne_nil (named : p.hostname tables ≠ []) : p.netloc ≠ [] := by
  intro empty
  apply named
  have nothing : p.hostinfo.1 = [] := by
    unfold hostinfo
    rw [empty]
    rfl
  unfold hostname
  rw [nothing]
  rfl

end ParseResult

variable {tables : Tables}

def ParseResult.address (p : ParseResult) : List Char :=
  urlunparse ⟨p.scheme, p.netloc, if p.path = [] then ['/'] else p.path, [], p.query, []⟩

def https : List Char := ['h', 't', 't', 'p', 's']

def PlainNetloc (netloc : List Char) : Prop :=
  ∀ c ∈ netloc, isNetlocDelimiter c = false ∧ isUnsafeUrlByte c = false

theorem mem_of_splitScheme {scheme url : List Char} {c : Char}
    (inside : c ∈ (splitScheme scheme url).2) : c ∈ url := by
  unfold splitScheme partition at inside
  cases after : url.dropWhile (· ≠ ':') with
  | nil =>
    rw [after] at inside
    exact inside
  | cons =>
    rw [after] at inside
    dsimp only [List.tail?_cons] at inside
    split_ifs at inside with named
    · have later : c ∈ url.dropWhile (· ≠ ':') := by
        rw [after]
        exact List.mem_cons_of_mem _ inside
      exact (List.dropWhile_sublist _).subset later
    · exact inside

theorem mem_of_splitAuthority {url : List Char} {c : Char} (inside : c ∈ (splitAuthority url).1) :
    c ∈ url ∧ isNetlocDelimiter c = false := by
  unfold splitAuthority at inside
  split at inside
  next rest =>
    have member : c ∈ rest := (List.takeWhile_sublist _).subset inside
    have plain := List.mem_takeWhile_imp inside
    exact ⟨List.mem_cons_of_mem _ (List.mem_cons_of_mem _ member), by simpa using plain⟩
  next => cases inside

theorem netloc_of_urlparse {scheme url : List Char} {p : ParseResult}
    (parsed : urlparse tables scheme url = .ok p) :
    PlainNetloc p.netloc ∧ (bracketsPass tables p.netloc && checkNetloc tables p.netloc) = true := by
  unfold urlparse urlsplit at parsed
  dsimp only at parsed
  split_ifs at parsed with passed
  · obtain rfl := Except.ok.inj parsed
    refine ⟨?_, passed⟩
    intro c inside
    obtain ⟨written, plain⟩ := mem_of_splitAuthority inside
    have kept := List.of_mem_filter (mem_of_splitScheme written)
    exact ⟨plain, by simpa using kept⟩
  · cases parsed

theorem splitScheme_https (scheme rest : List Char) :
    splitScheme scheme (https ++ ':' :: rest) = (https, rest) := by
  simp [splitScheme, partition, https, isSchemeChar]

theorem splitAuthority_append {netloc rest : List Char} (plain : PlainNetloc netloc) :
    splitAuthority ('/' :: '/' :: (netloc ++ '/' :: rest)) = (netloc, '/' :: rest) := by
  have inside : ∀ c ∈ netloc, (!isNetlocDelimiter c) = true := by
    intro c member
    rw [(plain c member).1]
    rfl
  simp only [splitAuthority, splitNetloc, List.takeWhile_append_of_pos inside,
    List.dropWhile_append_of_pos inside]
  simp [isNetlocDelimiter]

theorem urlparse_https {netloc : List Char} (plain : PlainNetloc netloc)
    (passed : (bracketsPass tables netloc && checkNetloc tables netloc) = true)
    (scheme rest : List Char) :
    ∃ p, urlparse tables scheme (https ++ ':' :: '/' :: '/' :: (netloc ++ '/' :: rest)) = .ok p ∧
      p.scheme = https ∧ p.netloc = netloc := by
  have kept : netloc.filter (!isUnsafeUrlByte ·) = netloc := by
    rw [List.filter_eq_self]
    intro c member
    rw [(plain c member).2]
    rfl
  have cleaned : ((https ++ ':' :: '/' :: '/' :: (netloc ++ '/' :: rest)).dropWhile
      isC0ControlOrSpace).filter (!isUnsafeUrlByte ·) =
      https ++ ':' :: '/' :: '/' :: (netloc ++ '/' :: rest.filter (!isUnsafeUrlByte ·)) := by
    have started : (https ++ ':' :: '/' :: '/' :: (netloc ++ '/' :: rest)).dropWhile
        isC0ControlOrSpace = https ++ ':' :: '/' :: '/' :: (netloc ++ '/' :: rest) := by
      simp [https, isC0ControlOrSpace]
    rw [started, List.filter_append]
    change https ++ ':' :: '/' :: '/' :: (netloc ++ '/' :: rest).filter (!isUnsafeUrlByte ·) = _
    rw [List.filter_append, kept]
    rfl
  unfold urlparse urlsplit
  rw [cleaned]
  dsimp only
  rw [splitScheme_https]
  dsimp only
  rw [splitAuthority_append plain]
  dsimp only
  rw [if_pos passed]
  exact ⟨_, rfl, rfl, rfl⟩

theorem urlunsplit_of_netloc {s : SplitResult} (written : s.scheme ≠ []) (named : s.netloc ≠ [])
    (filled : s.url ≠ []) :
    ∃ rest, urlunsplit s = s.scheme ++ ':' :: '/' :: '/' :: (s.netloc ++ '/' :: rest) := by
  obtain ⟨scheme, netloc, url, query, fragment⟩ := s
  dsimp only at written named filled
  have absolute : ∃ path, (if url ≠ [] ∧ url.head? ≠ some '/' then '/' :: url else url) =
      '/' :: path := by
    cases url with
    | nil => exact absurd rfl filled
    | cons c path =>
      by_cases slash : c = '/'
      · subst slash
        exact ⟨path, if_neg fun h => h.2 rfl⟩
      · exact ⟨c :: path, if_pos ⟨filled, fun h => slash (Option.some.inj h)⟩⟩
  obtain ⟨path, same⟩ := absolute
  have asked : ∃ rest, urlunsplit ⟨scheme, netloc, url, query, fragment⟩ =
      scheme ++ ':' :: (['/', '/'] ++ netloc ++ '/' :: path) ++ rest := by
    refine ⟨(if query ≠ [] then '?' :: query else []) ++
      if fragment ≠ [] then '#' :: fragment else [], ?_⟩
    simp only [urlunsplit]
    rw [if_pos (Or.inl named), same, if_pos written]
    split_ifs <;> simp
  obtain ⟨rest, whole⟩ := asked
  refine ⟨path ++ rest, ?_⟩
  rw [whole]
  simp

theorem address_eq {p : ParseResult} (secure : p.scheme = https) (named : p.netloc ≠ []) :
    ∃ rest, p.address = https ++ ':' :: '/' :: '/' :: (p.netloc ++ '/' :: rest) := by
  have filled : (if p.path = [] then ['/'] else p.path) ≠ [] := by
    split_ifs with empty
    · exact List.cons_ne_nil _ _
    · exact empty
  have written : p.scheme ≠ [] := by
    rw [secure]
    exact List.cons_ne_nil _ _
  obtain ⟨rest, same⟩ := urlunsplit_of_netloc
    (s := ⟨p.scheme, p.netloc, if p.path = [] then ['/'] else p.path, p.query, []⟩)
    written named filled
  rw [← secure]
  exact ⟨rest, same⟩

theorem urlparse_address {scheme url : List Char} {p : ParseResult}
    (parsed : urlparse tables scheme url = .ok p) (secure : p.scheme = https)
    (named : p.netloc ≠ []) (default : List Char) :
    ∃ q, urlparse tables default p.address = .ok q ∧ q.scheme = https ∧ q.netloc = p.netloc := by
  obtain ⟨rest, same⟩ := address_eq secure named
  obtain ⟨plain, passed⟩ := netloc_of_urlparse parsed
  rw [same]
  exact urlparse_https plain passed default rest

end AverQel.DeepSpace.Url
