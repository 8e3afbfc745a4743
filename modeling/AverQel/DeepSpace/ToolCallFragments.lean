/- digest: The calls of a streamed reply, put together from fragments in any order. -/
import AverQel.DeepSpace.ToolCalls
import AverQel.Providers.ResponsesParsing
import AverQel.System.TextAdmission

namespace AverQel.DeepSpace

open AverQel.Foundation
open AverQel.Providers (Fields Json JsonText eitherField)
open AverQel.System (JsonFormat dumps)

section Items

/-- `int`, `json.loads`, `JSONDecoder.raw_decode` and `str` of decoded values. -/
structure CallReader where
  int : Json → Option Int
  loads : List Char → Option Json
  rawDecode : List Char → Option (Json × Nat)
  text : JsonText
  int_index : ∀ n : Nat, int (.number n.repr) = some (n : Int)

variable (reader : CallReader)

def textOf : Option Json → Option String
  | some (.string text) => some (String.ofList text)
  | _ => none

/-- Arguments that come as an object are written as text. -/
def argumentsOf : Option Json → Option String
  | some (.object fields) =>
    some (String.ofList (dumps ⟨false, [',', ' '], [':', ' ']⟩ (.object fields)))
  | other => textOf other

def readItem : Json → Option CallDelta
  | .object item =>
    let function := match item.lookup "function" with
      | some (.object function) => function
      | _ => item
    some {
      index := (item.lookup "index").bind reader.int
      id := textOf (item.lookup "id")
      name := textOf (function.lookup "name")
      arguments := argumentsOf (function.lookup "arguments")
      thoughtSignature :=
        textOf (eitherField reader.text item "thought_signature" "thoughtSignature") }
  | _ => none

/-- `_tool_call_accumulator`, on the items as the provider sends them. -/
def accumulateItems (accumulator : CallItems) (items : List Json) : CallItems :=
  items.zipIdx.foldl (fun calls item =>
    (readItem reader item.1).elim calls (receiveDelta calls item.2)) accumulator

def eitherCase (lower upper c : Char) : Bool := c = lower ∨ c = upper

/-- A code fence around the candidate is dropped; in the pattern `s` also stands for `ſ`. -/
def unfence (candidate : List Char) : List Char :=
  let fence := ['`', '`', '`']
  let opened :=
    if fence <+: candidate then
      match candidate.drop 3 with
      | j :: s :: o :: n :: rest =>
        if eitherCase 'j' 'J' j ∧ (eitherCase 's' 'S' s ∨ s = 'ſ') ∧ eitherCase 'o' 'O' o ∧
            eitherCase 'n' 'N' n then rest.dropWhile Text.isSpace
        else (j :: s :: o :: n :: rest).dropWhile Text.isSpace
      | rest => rest.dropWhile Text.isSpace
    else candidate
  if fence <:+ opened then (opened.take (opened.length - 3)).rdropWhile Text.isSpace else opened

def recoverObject (candidate : List Char) : Option Fields :=
  (List.range candidate.length).findSome? fun offset =>
    if candidate[offset]? = some '\x7b' then
      match reader.rawDecode (candidate.drop offset) with
      | some (.object fields, size) =>
        if Text.stripChars (candidate.drop (offset + size)) = [] then some fields else none
      | _ => none
    else none

/-- `_parse_tool_arguments` of an accumulated call. -/
def parseToolArguments (call : ToolCall) : Option Fields :=
  match reader.loads call.arguments.toList with
  | some (.object fields) => some fields
  | some _ => none
  | none => recoverObject reader (unfence (Text.stripChars call.arguments.toList))

end Items

variable (reader : CallReader)

/-- A call as the model makes it. -/
structure RequestedCall where
  (id name arguments : String)

def RequestedCall.Named (call : RequestedCall) : Prop :=
  Text.strip call.id ≠ "" ∧ Text.strip call.name ≠ ""

/-- What is kept of the call. -/
def RequestedCall.kept (call : RequestedCall) : ToolCall :=
  ⟨Text.strip call.id, Text.strip call.name, call.arguments, none⟩

/-- A piece of the arguments of the call at an index, with id and name where it is the first. -/
structure Fragment where
  index : Nat
  first : Option (String × String)
  text : String

def Fragment.item (fragment : Fragment) : Json :=
  .object ([("index", .number fragment.index.repr)] ++
    (fragment.first.elim [] fun first => [("id", .string first.1.toList)]) ++
    [("function", .object ((fragment.first.elim [] fun first => [("name", .string first.2.toList)]) ++
      [("arguments", .string fragment.text.toList)]))])

def Fragment.delta (fragment : Fragment) : CallDelta :=
  ⟨some fragment.index, fragment.first.map Prod.fst, fragment.first.map Prod.snd,
    some fragment.text, none⟩

/-- The pieces are the call's: the first one has its id and name, and together they are its
arguments. -/
def Cuts (call : RequestedCall) (pieces : List Fragment) : Prop :=
  ∃ first rest, pieces = first :: rest ∧ first.first = some (call.id, call.name) ∧
    (∀ piece ∈ rest, piece.first = none) ∧ String.join (pieces.map Fragment.text) = call.arguments

def assembled (deltas : List (List Fragment)) : CallItems :=
  (deltas.map (List.map Fragment.item)).foldl (accumulateItems reader) []

def completeItem (id name : String) (arguments : Json) : Json :=
  .object [("id", .string id.toList), ("function", .object [("name", .string name.toList),
    ("arguments", arguments)])]

variable {reader}

theorem readItem_item (fragment : Fragment) : readItem reader fragment.item = some fragment.delta := by
  obtain ⟨index, first, text⟩ := fragment
  cases first <;>
    simp [Fragment.item, Fragment.delta, readItem, List.lookup_cons, textOf, argumentsOf,
      eitherField, reader.int_index]

theorem lookup_map_extend (calls : CallItems) (index j : Int) (item : CallDelta) :
    (calls.map fun entry => if entry.1 = index then (index, entry.2.extend item) else entry).lookup
      j = if j = index then (calls.lookup j).map (ToolCall.extend · item) else calls.lookup j := by
  induction calls with
  | nil => simp
  | cons entry rest ih =>
    obtain ⟨key, call⟩ := entry
    rw [List.map_cons]
    by_cases here : key = index
    · by_cases same : j = index
      · simp [here, same]
      · simp [here, same, List.lookup_cons, beq_false_of_ne same, ih]
    · rw [if_neg here, List.lookup_cons, List.lookup_cons, ih]
      cases found : j == key with
      | true =>
        obtain rfl := eq_of_beq found
        exact (if_neg here).symm
      | false => rfl

theorem lookup_receiveDelta (calls : CallItems) (position : Nat) (item : CallDelta) (j : Int) :
    (receiveDelta calls position item).lookup j =
      if j = item.index.getD position then
        some (((calls.lookup j).getD (.fresh j)).extend item)
      else calls.lookup j := by
  unfold receiveDelta
  dsimp only
  generalize (item.index.getD position : Int) = index
  split
  · rename_i known
    obtain ⟨call, found⟩ := Option.isSome_iff_exists.mp known
    rw [lookup_map_extend]
    by_cases same : j = index
    · rw [if_pos same, if_pos same, same, found, Option.map_some, Option.getD_some]
    · rw [if_neg same, if_neg same]
  · rename_i unknown
    rw [Bool.not_eq_true, Option.isSome_eq_false_iff, Option.isNone_iff_eq_none] at unknown
    rw [List.lookup_append]
    by_cases same : j = index
    · simp [same, unknown]
    · simp [same, List.lookup_cons, beq_false_of_ne same]

/-- Every index only sees its own pieces, in their order. -/
theorem lookup_accumulateItems (pieces : List Fragment) (calls : CallItems) (j : Nat) :
    (accumulateItems reader calls (pieces.map Fragment.item)).lookup (j : Int) =
      (pieces.filter fun piece => piece.index = j).foldl (fun current piece =>
        some ((current.getD (.fresh j)).extend piece.delta)) (calls.lookup (j : Int)) := by
  unfold accumulateItems
  generalize 0 = position
  induction pieces generalizing calls position with
  | nil => rfl
  | cons piece rest ih =>
    rw [List.map_cons, List.zipIdx_cons, List.foldl_cons, ih, readItem_item, Option.elim_some,
      lookup_receiveDelta]
    by_cases same : piece.index = j
    · simp [Fragment.delta, same]
    · have apart : (j : Int) ≠ piece.index := fun equal => same (Int.ofNat.inj equal).symm
      simp [Fragment.delta, same, apart]

theorem lookup_assembled (deltas : List (List Fragment)) (calls : CallItems) (j : Nat) :
    ((deltas.map (List.map Fragment.item)).foldl (accumulateItems reader) calls).lookup (j : Int) =
      (deltas.flatten.filter fun piece => piece.index = j).foldl (fun current piece =>
        some ((current.getD (.fresh j)).extend piece.delta)) (calls.lookup (j : Int)) := by
  induction deltas generalizing calls with
  | nil => rfl
  | cons pieces rest ih =>
    rw [List.map_cons, List.foldl_cons, ih, lookup_accumulateItems, List.flatten_cons,
      List.filter_append, List.foldl_append]

theorem foldl_extend {j : Int} {rest : List Fragment} (plain : ∀ piece ∈ rest, piece.first = none)
    (call : ToolCall) :
    rest.foldl (fun current piece => some ((current.getD (.fresh j)).extend piece.delta))
      (some call) =
      some { call with arguments := call.arguments ++ String.join (rest.map Fragment.text) } := by
  induction rest generalizing call with
  | nil => simp
  | cons piece rest ih =>
    have first := plain piece List.mem_cons_self
    rw [List.foldl_cons, Option.getD_some, ih fun other member =>
      plain other (List.mem_cons_of_mem _ member)]
    simp [ToolCall.extend, Fragment.delta, first, unlessBlank, String.join_cons, String.append_assoc]

theorem unlessBlank_of_filled {text : String} (filled : Text.strip text ≠ "") :
    unlessBlank (some text) = some (Text.strip text) := by
  simp [unlessBlank, Option.filter, filled]

theorem lookup_of_cuts {call : RequestedCall} (named : call.Named) {deltas : List (List Fragment)}
    {i : Nat} (cuts : Cuts call (deltas.flatten.filter fun piece => piece.index = i)) :
    (assembled reader deltas).lookup (i : Int) = some call.kept := by
  obtain ⟨first, rest, pieces, head, plain, whole⟩ := cuts
  rw [assembled, lookup_assembled, pieces, List.foldl_cons, List.lookup_nil, foldl_extend plain]
  rw [pieces, List.map_cons, String.join_cons] at whole
  simp [ToolCall.extend, ToolCall.fresh, Fragment.delta, head, unlessBlank_of_filled named.1,
    unlessBlank_of_filled named.2, RequestedCall.kept, ← whole]
  rfl

/-- Calls that come whole, without indices, are kept in their order. -/
theorem accumulateItems_complete (calls : List (RequestedCall × Json)) (kept : CallItems)
    (position : Nat) (named : ∀ call ∈ calls, call.1.Named ∧
      argumentsOf (some call.2) = some call.1.arguments)
    (before : ∀ entry ∈ kept, entry.1 < position) :
    ((calls.map fun call => completeItem call.1.id call.1.name call.2).zipIdx position).foldl
      (fun calls item => (readItem reader item.1).elim calls (receiveDelta calls item.2)) kept =
      kept ++ (calls.zipIdx position).map fun call => ((call.2 : Int), call.1.1.kept) := by
  induction calls generalizing kept position with
  | nil => simp
  | cons call rest ih =>
    obtain ⟨⟨filledId, filledName⟩, text⟩ := named call List.mem_cons_self
    have new : kept.lookup (position : Int) = none := List.lookup_eq_none_iff.mpr
      fun entry member => bne_iff_ne.mpr (ne_of_gt (before entry member))
    have received : (readItem reader (completeItem call.1.id call.1.name call.2)).elim kept
        (receiveDelta kept position) = kept ++ [((position : Int), call.1.kept)] := by
      simp [readItem, completeItem, List.lookup_cons, textOf, eitherField, text, receiveDelta, new,
        ToolCall.extend, ToolCall.fresh, unlessBlank_of_filled filledId,
        unlessBlank_of_filled filledName, RequestedCall.kept]
      rfl
    rw [List.map_cons, List.zipIdx_cons, List.foldl_cons, received, ih _ _ (fun other member =>
      named other (List.mem_cons_of_mem _ member)), List.zipIdx_cons, List.map_cons,
      List.append_assoc]
    · rfl
    · intro entry member
      rcases List.mem_append.mp member with old | new
      · exact lt_trans (before entry old) (by omega)
      · rw [List.mem_singleton.mp new]
        dsimp only
        omega

/-- Assembling inverts every cutting, interleaving and grouping: each index has the call's
arguments, with its id and name stripped, and parsing gives the object that they are; complete
calls without indices are kept apart, in their order. -/
theorem tool_calls_assembled (reader : CallReader) :
    (∀ (calls : List RequestedCall) (deltas : List (List Fragment)),
      (∀ call ∈ calls, call.Named) →
      (∀ (i : Nat) (call : RequestedCall), calls[i]? = some call →
        Cuts call (deltas.flatten.filter fun piece => piece.index = i)) →
      ∀ (i : Nat) (call : RequestedCall), calls[i]? = some call →
        (assembled reader deltas).lookup (i : Int) = some call.kept ∧
        ∀ fields, reader.loads call.arguments.toList = some (.object fields) →
          parseToolArguments reader call.kept = some fields) ∧
    ∀ calls : List (RequestedCall × Json),
      (∀ call ∈ calls, call.1.Named ∧ argumentsOf (some call.2) = some call.1.arguments) →
      accumulateItems reader [] (calls.map fun call => completeItem call.1.id call.1.name call.2) =
        calls.zipIdx.map fun call => ((call.2 : Int), call.1.1.kept) := by
  refine ⟨fun calls deltas named cuts i call here => ⟨?_, fun fields loaded => ?_⟩,
    fun calls named => ?_⟩
  · exact lookup_of_cuts (named call (List.mem_of_getElem? here)) (cuts i call here)
  · rw [parseToolArguments, RequestedCall.kept, loaded]
  · exact accumulateItems_complete calls [] 0 named (by simp)

/-- A reader of natural numbers and of the empty object. -/
def plainReader : CallReader where
  int
    | .number literal => some (Nat.ofDigitChars 10 literal.toList 0 : Nat)
    | _ => none
  loads text := if text = ['\x7b', '\x7d'] then some (.object []) else none
  rawDecode text := if text = ['\x7b', '\x7d'] then some (.object [], 2) else none
  text := ⟨fun _ => [], fun literal => literal = "0"⟩
  int_index n := by simp [Nat.repr]

theorem tool_calls_assembled_pieces :
    (assembled plainReader [[⟨0, some ("a", "find"), "\x7b"⟩], [⟨0, none, "\x7d"⟩]]).lookup 0 =
      some ⟨"a", "find", "\x7b\x7d", none⟩ :=
  ((tool_calls_assembled plainReader).1 [⟨"a", "find", "\x7b\x7d"⟩] _
    (by simp [RequestedCall.Named]; decide) (by
      rintro (_ | i) call here
      · cases here
        exact ⟨_, _, rfl, rfl, by simp, rfl⟩
      · cases here) 0 _ rfl).1

/-- An id that comes with a blank before it is not kept as it came. -/
theorem padded_id_stripped :
    RequestedCall.Named ⟨" a", "find", "\x7b\x7d"⟩ ∧
      Cuts ⟨" a", "find", "\x7b\x7d"⟩ [⟨0, some (" a", "find"), "\x7b\x7d"⟩] ∧
      (assembled plainReader [[⟨0, some (" a", "find"), "\x7b\x7d"⟩]]).lookup 0 =
        some ⟨"a", "find", "\x7b\x7d", none⟩ := by
  have named : RequestedCall.Named ⟨" a", "find", "\x7b\x7d"⟩ := by
    simp [RequestedCall.Named]
    decide
  have cuts : Cuts ⟨" a", "find", "\x7b\x7d"⟩ [⟨0, some (" a", "find"), "\x7b\x7d"⟩] :=
    ⟨_, _, rfl, rfl, by simp, rfl⟩
  have kept : (assembled plainReader [[⟨0, some (" a", "find"), "\x7b\x7d"⟩]]).lookup ((0 : Nat) : Int) =
      some (RequestedCall.kept ⟨" a", "find", "\x7b\x7d"⟩) := lookup_of_cuts named cuts
  exact ⟨named, cuts, kept.trans (by decide)⟩

end AverQel.DeepSpace
