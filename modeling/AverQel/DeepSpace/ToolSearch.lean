/- digest: The tool broker: pages of one ranking, linked by cursors, and the limits of what it shows. -/
import Mathlib.Data.Prod.Lex
import Mathlib.Data.String.Basic
import AverQel.DeepSpace.UrlReader
import AverQel.Foundation.Base64
import AverQel.Foundation.Paging
import AverQel.Foundation.Ranking
import AverQel.Providers.ResponsesParsing
import AverQel.System.TextAdmission

namespace AverQel.DeepSpace.Broker

open Foundation Paging

/-- A connected tool, with what its catalogue entry says (empty where it says nothing). -/
structure ToolBinding where
  exposedName : String
  (serverName rawName title description : List Char)
  /-- The names of the `properties` of the input schema. -/
  parameters : List (List Char)
  deriving DecidableEq

structure ToolMatch where
  toolRef : String
  (server tool description : List Char)
  parameters : List (List Char)

structure SearchPage where
  query : List Char
  found : List ToolMatch
  nextCursor : Option (List Char)
  hasMore : Bool

/-- `str.casefold` and `sha256(...).hexdigest()` of a text in UTF-8. -/
structure BrokerEnvironment where
  casefold : List Char → List Char
  hexdigest : List Char → List Char
  hex : ∀ text, ∀ c ∈ hexdigest text, c ∈ ['0', '1', '2', '3', '4', '5', '6', '7', '8', '9', 'a',
    'b', 'c', 'd', 'e', 'f']

/-- `" ".join(text.split())` -/
def joinWords (text : List Char) : List Char := [' '].intercalate (Text.splitWords text)

/-- `_short_text` -/
def shortText (limit : Nat) (value : List Char) : List Char :=
  let text := joinWords value
  if text.length ≤ limit then text else (text.take (limit - 1)).rdropWhile Text.isSpace ++ ['…']

def asciiTables : Url.Tables where
  lower text := text
  decimal c := if c.isDigit then some (c.toNat - 48) else none
  bracketedHost _ := true
  expands _ := false

/-- `max_search_results` of the broker. -/
def pageSize (maxSearchResults : Int) : Nat := (max 1 (min maxSearchResults 20)).toNat

section Search

variable (env : BrokerEnvironment)

def tokens (value : List Char) : List (List Char) :=
  (((env.casefold value).splitOnP fun c => !(('a' ≤ c ∧ c ≤ 'z') ∨ ('0' ≤ c ∧ c ≤ '9'))).filter
    fun token => token ≠ []).eraseDups

def bindingText (binding : ToolBinding) : List Char :=
  env.casefold ([' '].intercalate [binding.serverName, binding.rawName, binding.title,
    shortText 1000 binding.description,
    [' '].intercalate (binding.parameters.filter fun name => Text.stripChars name ≠ [])])

def score (queryText : List Char) (binding : ToolBinding) : Nat :=
  let terms := tokens env queryText
  let searchable := bindingText env binding
  let nameTerms := tokens env (binding.serverName ++ ' ' :: binding.rawName)
  terms.countP (fun term => term <:+: searchable) + 3 * terms.countP (nameTerms.contains ·) +
    if env.casefold queryText ≠ [] ∧ env.casefold queryText <:+: searchable then 8 else 0

/-- `scored`, sorted by the negative score and the name. -/
def ranked (queryText : List Char) (bindings : List ToolBinding) : List ToolBinding :=
  ascending (fun binding => toLex (-(score env queryText binding : Int), binding.exposedName)) bindings

def queryDigest (query : List Char) : List Char := (env.hexdigest (env.casefold query)).take 20

/-- `_cursor` -/
def cursorOf (query : List Char) (offset : Nat) : List Char :=
  Base64.encode ((queryDigest env query ++ ':' :: Nat.toDigits 10 offset).map Char.toNat)

/-- `_offset_from_cursor` -/
def offsetFromCursor (query cursor : List Char) : Option Nat := do
  guard (cursor.all (fun c => c.toNat < 128))
  let payload ← Base64.decode [] 0 (cursor ++ Base64.padding cursor)
  guard (payload.all (fun byte => byte < 128))
  let (digest, rawOffset) ← Splitting.cut [':'] (payload.map Char.ofNat)
  let offset ← Url.parseInt asciiTables rawOffset
  guard (digest = queryDigest env query)
  guard (0 ≤ offset ∧ offset ≤ 100000)
  return offset.toNat

def matchOf (binding : ToolBinding) : ToolMatch where
  toolRef := binding.exposedName
  server := shortText 100 binding.serverName
  tool := shortText 140 binding.rawName
  description :=
    shortText 240 (if binding.description = [] then "MCP tool".toList else binding.description)
  parameters := binding.parameters.take 30

def queryText (query : List Char) : List Char := (joinWords query).take 500

def search (maxSearchResults : Int) (bindings : Table ToolBinding ToolBinding.exposedName)
    (query : List Char) (cursor : Option (List Char)) : Except String SearchPage :=
  let offset := match cursor.filter fun text => text ≠ [] with
    | none => some 0
    | some text => offsetFromCursor env (queryText query) text
  match offset with
  | none => .error "The MCP search cursor is invalid or belongs to another query."
  | some offset =>
    let scored := ranked env (queryText query) bindings.rows
    let page := (scored.drop offset).take (pageSize maxSearchResults)
    let next := offset + page.length
    .ok ⟨queryText query, page.map matchOf,
      if next < scored.length then some (cursorOf env (queryText query) next) else none,
      next < scored.length⟩

end Search

section Cursors

variable {env : BrokerEnvironment}

theorem isDigit_of_mem {n : Nat} {c : Char} (member : c ∈ Nat.toDigits 10 n) :
    c.isDigit = true := Nat.isDigit_of_mem_toDigits (by decide) (by decide) member

theorem ne_of_isDigit {c : Char} (digit : c.isDigit = true) :
    Text.isSpace c = false ∧ c ≠ '-' ∧ c ≠ '+' ∧ c ≠ '_' := by
  have range : 48 ≤ c.toNat ∧ c.toNat ≤ 57 := Char.isDigit_iff_toNat.mp digit
  refine ⟨?_, ?_, ?_, ?_⟩
  · simp only [Text.isSpace, Bool.or_eq_false_iff, Bool.and_eq_false_iff, decide_eq_false_iff_not,
      beq_eq_false_iff_ne]
    omega
  all_goals
    rintro rfl
    exact absurd range (by decide)

theorem parseInt_toDigits {n : Nat} (few : n ≤ 100000) :
    Url.parseInt asciiTables (Nat.toDigits 10 n) = some (n : Int) := by
  have digits : ∀ c ∈ Nat.toDigits 10 n, c.isDigit = true := fun c member => isDigit_of_mem member
  have short : (Nat.toDigits 10 n).length ≤ 6 :=
    (Nat.length_toDigits_le_iff (by decide) (by decide)).mpr (by omega)
  have filled : Nat.toDigits 10 n ≠ [] := Nat.toDigits_ne_nil
  have value : (Nat.toDigits 10 n).foldl
      (fun m c => m * 10 + (asciiTables.decimal c).getD 0) 0 = n := by
    have same : ∀ digits : List Char, (∀ c ∈ digits, c.isDigit = true) → ∀ m,
        digits.foldl (fun m c => m * 10 + (asciiTables.decimal c).getD 0) m =
          Nat.ofDigitChars 10 digits m := by
      intro digits all
      induction digits with
      | nil => exact fun _ => rfl
      | cons c digits ih =>
        rw [List.forall_mem_cons] at all
        intro m
        rw [List.foldl_cons, ih all.2, Nat.ofDigitChars_cons, Nat.mul_comm]
        simp [asciiTables, all.1]
    rw [same _ digits, Nat.ofDigitChars_ten_toDigits]
  have whole : Splitting.splitOn ['_'] (Nat.toDigits 10 n) = [Nat.toDigits 10 n] :=
    Splitting.splitOn_eq_of_none (Splitting.cut_eq_none_of_not_mem fun member =>
      (ne_of_isDigit (digits _ member)).2.2.2 rfl)
  have read : Url.natural asciiTables (Nat.toDigits 10 n) = some n := by
    unfold Url.natural
    dsimp only
    rw [whole, if_pos]
    · rw [List.flatten_singleton, value]
    · refine ⟨?_, ?_⟩
      · simp only [List.all_cons, List.all_nil, Bool.and_true, Bool.and_eq_true, List.all_eq_true]
        exact ⟨by simp, fun c member => by simp [asciiTables, digits c member]⟩
      · rw [List.flatten_singleton]
        omega
  have stripped : Text.stripChars (Nat.toDigits 10 n) = Nat.toDigits 10 n := by
    have first : (Nat.toDigits 10 n).dropWhile Text.isSpace = Nat.toDigits 10 n := by
      obtain ⟨c, rest, same⟩ := List.exists_cons_of_ne_nil filled
      rw [same, List.dropWhile_cons_of_neg]
      rw [(ne_of_isDigit (digits c (same ▸ List.mem_cons_self))).1]
      exact Bool.noConfusion
    rw [Text.stripChars, first]
    refine List.rdropWhile_eq_self_iff.mpr fun nonempty => ?_
    rw [(ne_of_isDigit (digits _ (List.getLast_mem nonempty))).1]
    exact Bool.noConfusion
  unfold Url.parseInt
  rw [stripped]
  obtain ⟨c, rest, same⟩ := List.exists_cons_of_ne_nil filled
  obtain ⟨_, minus, plus, _⟩ := ne_of_isDigit (digits c (same ▸ List.mem_cons_self))
  rw [same] at read ⊢
  split
  · rename_i form
    exact absurd (List.cons.inj form).1 minus
  · rename_i form
    exact absurd (List.cons.inj form).1 plus
  · rw [read]
    rfl

theorem offsetFromCursor_cursorOf (env : BrokerEnvironment) (query other : List Char)
    (offset : Nat) :
    (queryDigest env other ≠ queryDigest env query →
      offsetFromCursor env other (cursorOf env query offset) = none) ∧
    (offset ≤ 100000 → offsetFromCursor env query (cursorOf env query offset) = some offset) := by
  let payload := queryDigest env query ++ ':' :: Nat.toDigits 10 offset
  have hex : ∀ c ∈ queryDigest env query, c.toNat < 128 ∧ c ≠ ':' := fun c member =>
    (by simp : ∀ c ∈ ['0', '1', '2', '3', '4', '5', '6', '7', '8', '9', 'a', 'b', 'c', 'd', 'e',
      'f'], c.toNat < 128 ∧ c ≠ ':') c (env.hex _ c (List.mem_of_mem_take member))
  have small : ∀ byte ∈ payload.map Char.toNat, byte < 128 := by
    intro byte member
    obtain ⟨c, inside, rfl⟩ := List.mem_map.mp member
    rcases List.mem_append.mp inside with early | late
    · exact (hex c early).1
    · rcases List.mem_cons.mp late with rfl | digit
      · decide
      · have range : 48 ≤ c.toNat ∧ c.toNat ≤ 57 :=
          Char.isDigit_iff_toNat.mp (isDigit_of_mem digit)
        omega
  have back : (payload.map Char.toNat).map Char.ofNat = payload := by simp [Function.comp_def]
  have parts : Splitting.cut [':'] payload = some (queryDigest env query, Nat.toDigits 10 offset) := by
    rw [Splitting.cut_append_of_not_mem fun member => (hex ':' member).2 rfl]
    rw [show ':' :: Nat.toDigits 10 offset = ':' :: ([] ++ Nat.toDigits 10 offset) from rfl,
      Splitting.cut_self]
    simp
  have decoded := Base64.decode_encode fun byte member => Nat.lt_trans (small byte member) (by decide)
  have ascii := Base64.ascii_encode (payload.map Char.toNat)
  have plain : (payload.map Char.toNat).all (fun byte => byte < 128) = true :=
    List.all_eq_true.mpr fun byte member => decide_eq_true (small byte member)
  unfold offsetFromCursor
  rw [show cursorOf env query offset = Base64.encode (payload.map Char.toNat) from rfl, ascii,
    decoded]
  simp only [Option.bind_eq_bind, guard_true, Option.bind_some, plain, back, parts]
  constructor
  · intro foreign
    cases Url.parseInt asciiTables (Nat.toDigits 10 offset) with
    | none => rfl
    | some => simp [guard, Ne.symm foreign]
  · intro few
    have fits : (offset : Int) ≤ 100000 := by omega
    simp [parseInt_toDigits few, guard, fits]

end Cursors

section Pages

variable {env : BrokerEnvironment} {maxSearchResults : Int}
  {bindings : Table ToolBinding ToolBinding.exposedName} {query : List Char}

/-- The page from an offset on. -/
def pageAt (env : BrokerEnvironment) (maxSearchResults : Int)
    (bindings : Table ToolBinding ToolBinding.exposedName) (query : List Char) (offset : Nat) :
    SearchPage :=
  let scored := ranked env (queryText query) bindings.rows
  let page := (scored.drop offset).take (pageSize maxSearchResults)
  ⟨queryText query, page.map matchOf,
    if offset + page.length < scored.length then
      some (cursorOf env (queryText query) (offset + page.length))
    else none, offset + page.length < scored.length⟩

theorem search_first : search env maxSearchResults bindings query none =
    .ok (pageAt env maxSearchResults bindings query 0) := rfl

theorem cursorOf_ne_nil (text : List Char) (offset : Nat) : cursorOf env text offset ≠ [] := by
  have filled : (queryDigest env text ++ ':' :: Nat.toDigits 10 offset).map Char.toNat ≠ [] := by
    simp
  obtain ⟨a, rest, same⟩ := List.exists_cons_of_ne_nil filled
  rw [cursorOf, same]
  rcases rest with _ | ⟨b, _ | ⟨c, rest⟩⟩ <;> exact List.cons_ne_nil _ _

theorem search_of_cursor {text : List Char} {offset : Nat} :
    (queryDigest env (queryText query) ≠ queryDigest env text →
      search env maxSearchResults bindings query (some (cursorOf env text offset)) =
        .error "The MCP search cursor is invalid or belongs to another query.") ∧
    (offset ≤ 100000 → text = queryText query →
      search env maxSearchResults bindings query (some (cursorOf env text offset)) =
        .ok (pageAt env maxSearchResults bindings query offset)) := by
  have kept : (some (cursorOf env text offset)).filter (fun text => text ≠ []) =
      some (cursorOf env text offset) := by simp [cursorOf_ne_nil]
  obtain ⟨foreign, own⟩ := offsetFromCursor_cursorOf env text (queryText query) offset
  unfold search
  rw [kept]
  dsimp only
  constructor
  · intro differs
    rw [foreign differs]
  · rintro few rfl
    rw [own few]
    rfl

def ask (env : BrokerEnvironment) (maxSearchResults : Int)
    (bindings : Table ToolBinding ToolBinding.exposedName) (query : List Char) (_ : Nat) (s : Unit)
    (cursor : Option (List Char)) : Option (Unit × Page ToolMatch (List Char)) :=
  match search env maxSearchResults bindings query cursor with
  | .error _ => none
  | .ok page => some (s, ⟨page.found, page.nextCursor⟩)

theorem pageSize_pos (maxSearchResults : Int) : 0 < pageSize maxSearchResults := by
  unfold pageSize
  omega

def Stands (env : BrokerEnvironment) (query : List Char) (offset : Nat) (cursor : Option (List Char)) :
    Prop :=
  (cursor = none ∧ offset = 0) ∨ cursor = some (cursorOf env (queryText query) offset)

variable {cursor : Option (List Char)}

theorem ask_of_stands {offset n : Nat} {s : Unit} (stands : Stands env query offset cursor)
    (few : offset ≤ 100000) :
    ask env maxSearchResults bindings query n s cursor =
      some (s, ⟨(pageAt env maxSearchResults bindings query offset).found,
        (pageAt env maxSearchResults bindings query offset).nextCursor⟩) := by
  unfold ask
  rcases stands with ⟨rfl, rfl⟩ | rfl
  · rw [search_first]
  · rw [search_of_cursor.2 few rfl]

theorem flatten_of_reads (few : bindings.rows.length ≤ 100000) {offset n : Nat} {s : Unit}
    {pages : List (List ToolMatch)} (stands : Stands env query offset cursor)
    (within : offset ≤ bindings.rows.length)
    (reads : Reads (ask env maxSearchResults bindings query) n s cursor pages) :
    pages.flatten = ((ranked env (queryText query) bindings.rows).drop offset).map matchOf ∧
      (offset < bindings.rows.length → ∀ page ∈ pages, page ≠ []) := by
  have total : (ranked env (queryText query) bindings.rows).length = bindings.rows.length :=
    List.length_insertionSort _ _
  have positive := pageSize_pos maxSearchResults
  have filled {offset : Nat} (left : offset < bindings.rows.length) :
      (((ranked env (queryText query) bindings.rows).drop offset).take
        (pageSize maxSearchResults)).map matchOf ≠ [] := by
    rw [← List.length_pos_iff, List.length_map, List.length_take, List.length_drop]
    omega
  induction reads generalizing offset with
  | @last n s s' cursor rows answered =>
    rw [ask_of_stands stands (by omega)] at answered
    simp only [Option.some.injEq, Prod.mk.injEq, Page.mk.injEq, true_and, pageAt, List.length_take,
      List.length_drop, total, ite_eq_right_iff, reduceCtorEq, imp_false] at answered
    obtain ⟨rfl, done⟩ := answered
    refine ⟨?_, fun left page member => List.mem_singleton.mp member ▸ filled left⟩
    rw [List.flatten_singleton, List.take_of_length_le]
    rw [List.length_drop, total]
    omega
  | @more n s s' cursor following rows pages answered rest ih =>
    rw [ask_of_stands stands (by omega)] at answered
    simp only [Option.some.injEq, Prod.mk.injEq, Page.mk.injEq, pageAt, List.length_take,
      List.length_drop, total, Option.ite_none_right_eq_some] at answered
    obtain ⟨_, rfl, more, rfl⟩ := answered
    have size : min (pageSize maxSearchResults) (bindings.rows.length - offset) =
        pageSize maxSearchResults := by omega
    rw [size] at more
    obtain ⟨whole, later⟩ := ih (.inr (by rw [size])) (Nat.le_of_lt more)
    refine ⟨?_, fun left page member => ?_⟩
    · rw [List.flatten_cons, whole, ← List.map_append, ← List.drop_drop, List.take_append_drop]
    · rcases List.mem_cons.mp member with rfl | behind
      · exact filled left
      · exact later more page behind

theorem exists_reads (few : bindings.rows.length ≤ 100000) (offset n : Nat)
    (stands : Stands env query offset cursor) (within : offset ≤ bindings.rows.length) :
    ∃ pages, Reads (ask env maxSearchResults bindings query) n () cursor pages := by
  induction left : bindings.rows.length - offset using Nat.strong_induction_on
    generalizing offset n cursor with
  | h left ih =>
    have answered : ask env maxSearchResults bindings query n () cursor = some _ :=
      ask_of_stands stands (by omega)
    have positive := pageSize_pos maxSearchResults
    have total : (ranked env (queryText query) bindings.rows).length = bindings.rows.length :=
      List.length_insertionSort _ _
    simp only [pageAt, List.length_take, List.length_drop, total] at answered
    split_ifs at answered with more
    · obtain ⟨pages, rest⟩ := ih _ (by omega) _ (n + 1) (.inr rfl) (Nat.le_of_lt more) rfl
      exact ⟨_, .more answered rest⟩
    · exact ⟨_, .last answered⟩

/-- What a reader gets who follows the cursors of a query. -/
structure Partitioned (env : BrokerEnvironment) (maxSearchResults : Int)
    (bindings : Table ToolBinding ToolBinding.exposedName) (query : List Char) : Prop where
  ends : ∃ pages, Reads (ask env maxSearchResults bindings query) 0 () none pages
  once : ∀ pages, Reads (ask env maxSearchResults bindings query) 0 () none pages →
    pages.flatten = (ranked env (queryText query) bindings.rows).map matchOf ∧
      (bindings.rows ≠ [] → ∀ page ∈ pages, page ≠ [])
  all : (ranked env (queryText query) bindings.rows).Perm bindings.rows
  ordered : (ranked env (queryText query) bindings.rows).Pairwise fun a b =>
    score env (queryText query) b < score env (queryText query) a ∨
      score env (queryText query) a = score env (queryText query) b ∧ a.exposedName ≤ b.exposedName
  hasMore : ∀ cursor page, search env maxSearchResults bindings query cursor = .ok page →
    page.hasMore = page.nextCursor.isSome
  foreign : ∀ cursor page other, search env maxSearchResults bindings query cursor = .ok page →
    queryDigest env (queryText other) ≠ queryDigest env (queryText query) →
    ∀ following ∈ page.nextCursor, search env maxSearchResults bindings other (some following) =
      .error "The MCP search cursor is invalid or belongs to another query."

end Pages

open AverQel.Providers (Fields Json JsonText truthy)
open AverQel.System (compactJson dumps dumpFields escapeChar quote storedJson)

/-- `len(json.dumps(value, ensure_ascii=False, separators=(",", ":")))` -/
def compactLength (value : Json) : Nat := (dumps compactJson value).length

def escapedLength (text : List Char) : Nat := total (fun c => (escapeChar compactJson c).length) text

def fieldLength (field : String × Json) : Nat :=
  escapedLength field.1.toList + compactLength field.2 + 4

theorem length_quote (text : List Char) : (quote compactJson text).length = escapedLength text + 2 := by
  rw [quote, List.length_cons, List.length_append, length_flatMap_eq_total]
  rfl

theorem compactLength_string (text : List Char) :
    compactLength (.string text) = escapedLength text + 2 := by
  rw [compactLength, dumps, length_quote]

theorem compactLength_object (field : String × Json) (rest : Fields) :
    compactLength (.object (field :: rest)) = 1 + total fieldLength (field :: rest) := by
  have inner : (dumpFields compactJson (field :: rest)).length + 1 =
      total fieldLength (field :: rest) := by
    have comma : compactJson.itemSeparator.length = 1 := rfl
    have colon : compactJson.keySeparator.length = 1 := rfl
    induction rest generalizing field with
    | nil =>
      simp only [dumpFields, List.length_append, length_quote, total_cons, total_nil, fieldLength,
        compactLength]
      omega
    | cons next rest ih =>
      have further := ih next
      simp only [dumpFields, List.length_append, length_quote, fieldLength, compactLength,
        total_cons] at further ⊢
      omega
  rw [compactLength, dumps, List.length_cons, List.length_append, List.length_singleton, ← inner]
  omega

def envelope (original limit : Nat) (preview : List Char) : Json :=
  .object [("status", .string "truncated".toList),
    ("message", .string "The MCP result was larger than the model context budget.".toList),
    ("result_preview", .string preview),
    ("original_result_chars", .number (String.ofList (Nat.toDigits 10 original))),
    ("result_limit_chars", .number (String.ofList (Nat.toDigits 10 limit))),
    ("more_available", .bool true)]

/-- The loop of `bound_result`, which gives up on an empty preview. -/
def shrink (original limit : Nat) (preview : List Char) : List Char :=
  if compactLength (envelope original limit preview) ≤ limit ∨ preview = [] then preview
  else shrink original limit
    (preview.take (preview.length - max 1 (min 256 (preview.length / 8))))
termination_by preview.length
decreasing_by
  rename_i open'
  have some_left : 0 < preview.length := List.length_pos_iff.mpr fun empty => open' (.inr empty)
  rw [List.length_take]
  omega

/-- `result_limit`, of the configured and the requested number of characters. -/
def resultLimit (maxResultChars : Int) (maxChars : Option Int) : Nat :=
  match maxChars with
  | none => (max 2000 (min maxResultChars 100000)).toNat
  | some chars => (max 128 chars).toNat

/-- `bound_result` -/
def boundResult (limit : Nat) (result : Json) : Json :=
  let encoded := dumps compactJson result
  if encoded.length ≤ limit then result
  else
    let budget := limit - (dumps storedJson (envelope encoded.length limit [])).length - 8
    envelope encoded.length limit (shrink encoded.length limit
      ((encoded.take budget).rdropWhile Text.isSpace))

theorem compactLength_envelope (original limit : Nat) (preview : List Char) :
    compactLength (envelope original limit preview) =
      compactLength (envelope original limit []) + escapedLength preview := by
  simp only [envelope, compactLength_object, total_cons, fieldLength, compactLength_string,
    escapedLength, total_nil]
  omega

/-- The loop ends with an envelope that fits, or with an empty preview. -/
theorem shrink_fits_iff (original limit : Nat) (preview : List Char) :
    compactLength (envelope original limit (shrink original limit preview)) ≤ limit ↔
      compactLength (envelope original limit []) ≤ limit := by
  fun_induction shrink original limit preview with
  | case1 preview done =>
    rcases done with fits | rfl
    · refine iff_of_true fits ?_
      rw [compactLength_envelope] at fits
      omega
    · rfl
  | case2 preview goesOn ih => exact ih

theorem boundResult_fits_iff (limit : Nat) (result : Json) :
    compactLength (boundResult limit result) ≤ limit ↔ compactLength result ≤ limit ∨
      compactLength (envelope (compactLength result) limit []) ≤ limit := by
  unfold boundResult
  dsimp only
  split
  · rename_i fits
    exact iff_of_true fits (.inl fits)
  · rename_i large
    rw [shrink_fits_iff]
    exact (or_iff_right large).symm

structure SchemaBinding where
  exposedName : List Char
  serverName : List Char
  rawName : List Char
  catalog : Json

def fieldsOf : Json → Fields
  | .object fields => fields
  | _ => []

def privateSchema : Json :=
  .object [("type", .string "object".toList),
    ("description", .string "Additional schema details are private.".toList)]

def truncatedField (name : String) (shown : Nat) (items : List Json) : Fields :=
  if shown < items.length then [(name, .bool true)] else []

def isObject : Json → Bool
  | .object _ => true
  | _ => false

def isTextOrList : Json → Bool
  | .string _ | .array _ => true
  | _ => false

def isScalar : Json → Bool
  | .string _ | .number _ | .bool _ => true
  | _ => false

/-- The parts of a schema hint that come from the node alone. -/
def nodeFields (node : Fields) : Fields :=
  (["type", "required"].filterMap fun key =>
    ((node.lookup key).filter isTextOrList).map fun value => (key, value)) ++
  (match node.lookup "description" with
    | some (.string text) => [("description", .string (shortText 180 text))]
    | _ => []) ++
  (match node.lookup "enum" with
    | some (.array items) =>
      ("enum", .array ((items.take 12).filter isScalar)) :: truncatedField "enum_truncated" 12 items
    | _ => [])

variable (child : Json → StateM Nat Json) (node : Fields)

def propertyHints : StateM Nat Fields :=
  match node.lookup "properties" with
  | some (.object properties) => do
    let shown ← (properties.take 40).mapM fun property => do
      return (property.1, ← child property.2)
    return ("properties", .object shown) ::
      truncatedField "properties_truncated" 40 (properties.map Prod.snd)
  | _ => return []

def itemHints : StateM Nat Fields :=
  match node.lookup "items" with
  | some (.object item) => do return [("items", ← child (.object item))]
  | _ => return []

def variantHints (key : String) : StateM Nat Fields :=
  match node.lookup key with
  | some (.array variants) => do
    let shown ← ((variants.take 8).filter isObject).mapM child
    return (key, .array shown) :: truncatedField (key ++ "_truncated") 8 variants
  | _ => return []

/-- `_schema_node`, with the levels still allowed and the budget that all nodes share. -/
def schemaNode : Nat → Json → StateM Nat Json
  | levels + 1, .object node => do
    if (← get) = 0 then return privateSchema
    modify fun budget => budget - 1
    let properties ← propertyHints (schemaNode levels) node
    let items ← itemHints (schemaNode levels) node
    let oneOf ← variantHints (schemaNode levels) node "oneOf"
    let anyOf ← variantHints (schemaNode levels) node "anyOf"
    let result := nodeFields node ++ properties ++ items ++ oneOf ++ anyOf
    return .object (if result.isEmpty then [("type", .string "object".toList)] else result)
  | _, _ => return privateSchema

/-- `_schema_node(schema, budget=[180])` of the input schema of a tool. -/
def compactSchema (binding : SchemaBinding) : Json :=
  (schemaNode 5 (.object
    (((fieldsOf binding.catalog).lookup "inputSchema").elim [] fieldsOf)) 180).1

def requiredOf (schema : Json) : Json := ((fieldsOf schema).lookup "required").getD (.array [])

/-- The hint that keeps the types of the first properties only. -/
def typesOnly (schema : Json) : Json :=
  .object [("type", .string "object".toList), ("required", requiredOf schema),
    ("properties", .object (((((fieldsOf schema).lookup "properties").elim [] fieldsOf).take 20
      |>.filter fun property => isObject property.2).map fun property =>
        (property.1, .object
          [("type", ((fieldsOf property.2).lookup "type").getD (.string "unknown".toList))]))),
    ("truncated", .bool true)]

def namesOnly (schema : Json) : Json :=
  .object [("type", .string "object".toList), ("required", requiredOf schema),
    ("truncated", .bool true)]

def schemaAnswer (binding : SchemaBinding) (description : List Char) (inputSchema : Json) : Json :=
  .object [("status", .string "ok".toList), ("tool_ref", .string binding.exposedName),
    ("server", .string (shortText 100 binding.serverName)),
    ("tool", .string (shortText 140 binding.rawName)),
    ("description", .string description), ("input_schema", inputSchema),
    ("instructions", .string
      "Call mcp_call_tool with this tool_ref and a JSON object of arguments.".toList)]

def missingSchema : Json :=
  .object [("status", .string "error".toList), ("message", .string
    ("That MCP tool reference is no longer available. Search the connected tools again, " ++
      "then load the current schema before calling a tool.").toList)]

/-- `_short_text(catalog.get("description") or "MCP tool", 500)` -/
def schemaDescription (text : JsonText) (binding : SchemaBinding) : List Char :=
  shortText 500 <| match ((fieldsOf binding.catalog).lookup "description").filter (truthy text) with
    | some value => text.str value
    | none => "MCP tool".toList

def resolve (bindings : List (List Char × SchemaBinding)) (toolRef : List Char) :
    Option SchemaBinding :=
  let ref := Text.stripChars toolRef
  if ref = [] ∨ 128 < ref.length then none else bindings.lookup ref

variable (text : JsonText) (binding : SchemaBinding)

def fullAnswer : Json :=
  schemaAnswer binding (schemaDescription text binding) (compactSchema binding)

def typesAnswer : Json :=
  schemaAnswer binding (schemaDescription text binding) (typesOnly (compactSchema binding))

/-- With the names of the required fields only, and the start of the description. -/
def leastAnswer : Json :=
  schemaAnswer binding (shortText 160 (schemaDescription text binding))
    (namesOnly (compactSchema binding))

def schemaLimit (maxSchemaChars : Int) : Nat := (max 1000 (min maxSchemaChars 20000)).toNat

/-- `get_schema` -/
def getSchema (text : JsonText) (limit : Nat) (bindings : List (List Char × SchemaBinding))
    (toolRef : List Char) : Json :=
  match resolve bindings toolRef with
  | none => missingSchema
  | some binding =>
    if compactLength (fullAnswer text binding) ≤ limit then fullAnswer text binding
    else if compactLength (typesAnswer text binding) ≤ limit then typesAnswer text binding
    else leastAnswer text binding

variable {text : JsonText}

theorem getSchema_fits_iff {limit : Nat} (large : 1000 ≤ limit)
    (bindings : List (List Char × SchemaBinding)) (toolRef : List Char) :
    compactLength (getSchema text limit bindings toolRef) ≤ limit ↔
      ∀ binding, resolve bindings toolRef = some binding →
        compactLength (fullAnswer text binding) ≤ limit ∨
          compactLength (typesAnswer text binding) ≤ limit ∨
          compactLength (leastAnswer text binding) ≤ limit := by
  unfold getSchema
  cases resolve bindings toolRef with
  | none =>
    have short : compactLength missingSchema ≤ 1000 := by decide +kernel
    exact iff_of_true (le_trans short large) fun _ found => by cases found
  | some binding =>
    simp only [Option.some.injEq, forall_eq']
    split
    · rename_i fits
      exact iff_of_true fits (.inl fits)
    · rename_i long
      rw [or_iff_right long]
      split
      · rename_i fits
        exact iff_of_true fits (.inl fits)
      · rename_i longer
        exact (or_iff_right longer).symm

/-- What is shown of a result and of a schema keeps to its limit, and a result that fits is shown
unchanged. -/
structure WithinLimits (text : JsonText) (resultLimit schemaLimit : Nat) (result : Json)
    (bindings : List (List Char × SchemaBinding)) (toolRef : List Char) : Prop where
  bounded : compactLength (boundResult resultLimit result) ≤ resultLimit
  unchanged : compactLength result ≤ resultLimit → boundResult resultLimit result = result
  schema : compactLength (getSchema text schemaLimit bindings toolRef) ≤ schemaLimit

end AverQel.DeepSpace.Broker
