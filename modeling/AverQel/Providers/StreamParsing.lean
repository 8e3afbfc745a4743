/- digest: Text and reasoning in chat-completions payloads: content blocks, and tags inside text. -/
import AverQel.Foundation.Deltas
import AverQel.Foundation.Text

namespace AverQel.Providers

open Foundation

/-- A decoded JSON value. -/
inductive Json where
  | null
  | bool (value : Bool)
  | number (literal : String)
  | string (text : List Char)
  | array (items : List Json)
  | object (fields : List (String × Json))

abbrev Fields := List (String × Json)

/-- `json.loads` and the case maps of `str`. -/
structure StreamEnvironment where
  loads : List Char → Option Json
  lower : String → String
  casefold : String → String

section Blocks

variable (env : StreamEnvironment)

def orNone (text : List Char) : Option (List Char) := if text = [] then none else some text

def stringField (fields : Fields) (key : String) : List Char :=
  match fields.lookup key with
  | some (.string text) => text
  | _ => []

def isReasoningBlock (fields : Fields) : Bool :=
  env.lower (String.ofList (stringField fields "type")) ∈ ["thinking", "reasoning"]

def itemText : Json → List Char
  | .string text => text
  | .object fields =>
    if isReasoningBlock env fields then []
    else stringField fields "text" ++ stringField fields "content"
  | _ => []

def listText (items : List Json) : List Char := (items.map (itemText env)).flatten

/-- The value that holds the reasoning of a block. -/
def reasoningValue (fields : Fields) : Json :=
  match fields.lookup "thinking", fields.lookup "reasoning" with
  | some .null, _ | none, none | none, some .null =>
    if isReasoningBlock env fields then
      ((fields.lookup "text").orElse fun _ => fields.lookup "content").getD .null
    else .null
  | some value, _ => value
  | none, some value => value

/-- A nested list counts with its text, the first of the two parts that it is split into. -/
def itemReasoning : Json → List Char
  | .object fields =>
    match reasoningValue env fields with
    | .string text => text
    | .array items => listText env items
    | _ => []
  | _ => []

/-- `_split_text_and_reasoning` -/
def splitTextAndReasoning : Json → Option (List Char) × Option (List Char)
  | .string text => (orNone text, none)
  | .array items =>
    (orNone (listText env items), orNone (items.map (itemReasoning env)).flatten)
  | _ => (none, none)

/-- `_normalize_text_candidate`, of a value that may be missing. -/
def textCandidate (candidate : Option Json) : Option (List Char) :=
  candidate.bind fun value => (splitTextAndReasoning env value).1

/-- `_extract_stream_text` -/
def extractStreamText (choice delta : Fields) : Option (List Char) :=
  let message : Fields :=
    match choice.lookup "message" with
    | some (.object fields) => fields
    | _ => []
  [delta.lookup "content", delta.lookup "text", choice.lookup "text", message.lookup "content"]
    |>.findSome? (textCandidate env)

def reasoningCandidate : Json → Option (List Char)
  | .string text => if Text.stripChars text = [] then none else some text
  | .array items =>
    let parts := items.map fun
      | .object fields => stringField fields "text"
      | _ => []
    orNone (Text.stripChars parts.flatten)
  | _ => none

/-- `_extract_reasoning_text` -/
def extractReasoningText (payload : Fields) : Option (List Char) :=
  let direct := ["reasoning_content", "reasoning", "thinking"].findSome? fun key =>
    (payload.lookup key).bind reasoningCandidate
  direct.orElse fun _ =>
    ((payload.lookup "content").bind fun content => (splitTextAndReasoning env content).2).filter
      fun text => Text.stripChars text ≠ []

end Blocks

def splitAtTag (tag : List Char) : List Char → Option (List Char × List Char)
  | [] => if tag = [] then some ([], []) else none
  | c :: rest =>
    if tag <+: c :: rest then some ([], (c :: rest).drop tag.length)
    else (splitAtTag tag rest).map fun (before, after) => (c :: before, after)

theorem splitAtTag_eq_some {tag content before after : List Char}
    (found : splitAtTag tag content = some (before, after)) : content = before ++ tag ++ after := by
  induction content generalizing before with
  | nil =>
    unfold splitAtTag at found
    split at found
    · rename_i empty
      cases found
      rw [empty]
      rfl
    · cases found
  | cons c rest ih =>
    unfold splitAtTag at found
    split at found
    · rename_i starts
      cases found
      obtain ⟨tail, same⟩ := starts
      rw [← same, List.drop_left]
      rfl
    · obtain ⟨⟨before', after'⟩, located, same⟩ := Option.map_eq_some_iff.mp found
      cases same
      rw [ih located]
      rfl

/-- The tags around the reasoning of a model; some models put a newline after each. -/
structure ReasoningTags where
  (opening closing : List Char)
  dropsNewline : Bool
  opening_ne : opening ≠ []
  closing_ne : closing ≠ []

def thinkTags : ReasoningTags :=
  ⟨"<think>".toList, "</think>".toList, false, by decide, by decide⟩

def gemmaTags : ReasoningTags :=
  ⟨"<|channel>thought".toList, "<channel|>".toList, true, by decide, by decide⟩

namespace ReasoningTags

variable (tags : ReasoningTags)

def OccurIn (content : List Char) : Prop := tags.opening <:+: content ∨ tags.closing <:+: content

instance (content : List Char) : Decidable (tags.OccurIn content) :=
  inferInstanceAs (Decidable (_ ∨ _))

def skipNewline (text : List Char) : List Char :=
  match text with
  | '\n' :: rest => if tags.dropsNewline then rest else text
  | _ => text

theorem skipNewline_length_le (text : List Char) : (tags.skipNewline text).length ≤ text.length := by
  unfold skipNewline
  split
  · split
    · exact Nat.le_succ _
    · exact le_refl _
  · exact le_refl _

end ReasoningTags

inductive Piece where
  | delta (text : List Char)
  | thinking (text : List Char)

/-- The loop of `_split_stream_content_by_reasoning_tags` and `_split_gemma_channel_content`, from
inside or outside of the reasoning. -/
def splitPieces (tags : ReasoningTags) (inside : Bool) (content : List Char) :
    List Piece × Bool :=
  if content = [] then ([], inside)
  else
    match inside with
    | false =>
      match found : splitAtTag tags.opening content with
      | none => ([.delta content], false)
      | some (before, after) =>
        have shorter : (tags.skipNewline after).length < content.length := by
          have cut := congrArg List.length (splitAtTag_eq_some found)
          have tag := List.length_pos_iff.mpr tags.opening_ne
          have skipped := tags.skipNewline_length_le after
          simp only [List.length_append] at cut
          omega
        let (pieces, last) := splitPieces tags true (tags.skipNewline after)
        ((if before = [] then [] else [.delta before]) ++ pieces, last)
    | true =>
      match found : splitAtTag tags.closing content with
      | none => ([.thinking content], true)
      | some (before, after) =>
        have shorter : (tags.skipNewline after).length < content.length := by
          have cut := congrArg List.length (splitAtTag_eq_some found)
          have tag := List.length_pos_iff.mpr tags.closing_ne
          have skipped := tags.skipNewline_length_le after
          simp only [List.length_append] at cut
          omega
        let (pieces, last) := splitPieces tags false (tags.skipNewline after)
        let reasoning := before.rdropWhile Text.isSpace
        ((if before = [] then [] else [.thinking reasoning]) ++ pieces, last)
termination_by content.length

/-- Where the text of a stream stands. -/
inductive ParserState where
  | answer
  | thinking
  | gemmaThought
  deriving DecidableEq

/-- `_split_stream_content_for_reasoning` -/
def splitStreamContentForReasoning (content : List Char) (state : ParserState) :
    List Piece × ParserState :=
  if state = .gemmaThought ∨ gemmaTags.OccurIn content then
    let (pieces, inside) := splitPieces gemmaTags (state = .gemmaThought) content
    (pieces, if inside then .gemmaThought else .answer)
  else if state = .answer ∧ ¬ thinkTags.OccurIn content then
    (if content = [] then [] else [.delta content], state)
  else
    let (pieces, inside) := splitPieces thinkTags (state = .thinking) content
    (pieces, if inside then .thinking else .answer)

/-- `_extract_tagged_reasoning_content`: the reasoning and the answer of a text with tags. -/
def extractTaggedReasoningContent (content : List Char) :
    Option (Option (List Char) × List Char) :=
  if thinkTags.OccurIn content ∨ gemmaTags.OccurIn content then
    let pieces := (splitStreamContentForReasoning content .answer).1
    let answer := pieces.map fun
      | .delta text => text
      | .thinking _ => []
    let reasoning := pieces.map fun
      | .delta _ => []
      | .thinking text => text
    some (orNone (Text.stripChars reasoning.flatten), Text.stripChars answer.flatten)
  else none

/-- The loop of `_stream_text_suffix`: the largest overlap of at most `size` characters is cut
off. -/
def cutOverlap (previous incoming : List Char) : Nat → List Char
  | 0 => incoming
  | size + 1 =>
    if incoming.take (size + 1) <:+ previous then incoming.drop (size + 1)
    else cutOverlap previous incoming size

/-- `_stream_text_suffix`: "Normalize strict deltas and cumulative snapshots into one clean
delta." -/
def streamTextSuffix (previous incoming : List Char) : List Char :=
  if incoming = [] then []
  else if previous = [] then incoming
  else if previous <+: incoming then incoming.drop previous.length
  else if incoming <+: previous then []
  else cutOverlap previous incoming (min previous.length incoming.length)

theorem cutOverlap_suffix (previous incoming : List Char) (size : Nat) :
    cutOverlap previous incoming size <:+ incoming := by
  induction size with
  | zero => exact List.suffix_refl incoming
  | succ size ih =>
    unfold cutOverlap
    split
    · exact List.drop_suffix _ _
    · exact ih

theorem streamTextSuffix_suffix (previous incoming : List Char) :
    streamTextSuffix previous incoming <:+ incoming := by
  unfold streamTextSuffix
  split
  · exact List.nil_suffix
  split
  · exact List.suffix_refl incoming
  split
  · exact List.drop_suffix _ _
  split
  · exact List.nil_suffix
  · exact cutOverlap_suffix _ _ _

variable {previous incoming : List Char}

theorem cutOverlap_eq_self_iff (size : Nat) (bound : size ≤ incoming.length) :
    cutOverlap previous incoming size = incoming ↔
      ∀ n, 0 < n → n ≤ size → ¬ incoming.take n <:+ previous := by
  induction size with
  | zero =>
    refine iff_of_true rfl fun n positive small => ?_
    omega
  | succ size ih =>
    unfold cutOverlap
    split
    · rename_i overlap
      refine iff_of_false (fun same => ?_) fun none => none _ (Nat.succ_pos size) (le_refl _) overlap
      have lengths := congrArg List.length same
      rw [List.length_drop] at lengths
      omega
    · rename_i no_overlap
      rw [ih (by omega)]
      constructor
      · intro smaller n positive small
        rcases Nat.lt_or_eq_of_le small with less | rfl
        · exact smaller n positive (by omega)
        · exact no_overlap
      · intro all n positive small
        exact all n positive (by omega)

theorem streamTextSuffix_eq_self_iff (some_text : incoming ≠ []) :
    streamTextSuffix previous incoming = incoming ↔ ¬ Deltas.Repeats previous incoming := by
  have length_pos := List.length_pos_iff.mpr some_text
  unfold streamTextSuffix
  rw [if_neg some_text]
  by_cases first : previous = []
  · rw [if_pos first, first]
    refine iff_of_true rfl ?_
    rintro (whole | ⟨start, nonempty, _, ends⟩)
    · exact some_text (List.prefix_nil.mp whole)
    · exact nonempty (List.suffix_nil.mp ends)
  rw [if_neg first]
  have previous_pos := List.length_pos_iff.mpr first
  by_cases cumulative : previous <+: incoming
  · rw [if_pos cumulative]
    refine iff_of_false (fun same => ?_) fun fresh =>
      fresh (.inr ⟨previous, first, cumulative, List.suffix_refl previous⟩)
    have lengths := congrArg List.length same
    rw [List.length_drop] at lengths
    omega
  rw [if_neg cumulative]
  by_cases repeated : incoming <+: previous
  · rw [if_pos repeated]
    exact iff_of_false (fun same => some_text same.symm) fun fresh => fresh (.inl repeated)
  rw [if_neg repeated, cutOverlap_eq_self_iff _ (Nat.min_le_right _ _)]
  constructor
  · rintro none (whole | ⟨start, nonempty, starts, ends⟩)
    · exact repeated whole
    · have start_pos := List.length_pos_iff.mpr nonempty
      have in_previous := ends.length_le
      have in_incoming := starts.length_le
      have taken : incoming.take start.length = start := (List.prefix_iff_eq_take.mp starts).symm
      have small : start.length ≤ min previous.length incoming.length := by omega
      refine none start.length start_pos small ?_
      rw [taken]
      exact ends
  · intro fresh n positive small overlap
    refine fresh (.inr ⟨incoming.take n, ?_, List.take_prefix _ _, overlap⟩)
    apply List.ne_nil_of_length_pos
    rw [List.length_take]
    omega

end AverQel.Providers
