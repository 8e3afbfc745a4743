/- digest: The frames of the server's event stream and the two readers of the browser. -/
import AverQel.Foundation.Splitting
import AverQel.Frontend.JsText
import AverQel.Frontend.JsonParse

namespace AverQel.Frontend

open Foundation.Splitting
open Providers (Json Fields)
open AverQel.System (JsonFormat dumps dumpItems dumpFields quote escapeChar escapeUnit hexDigit
  setField)

/-- `separators=(",", ":")` -/
def sseJson : JsonFormat := ⟨true, [','], [':']⟩

/-- `event:` -/
def eventField : List Char := ['e', 'v', 'e', 'n', 't', ':']

/-- `id:` -/
def idField : List Char := ['i', 'd', ':']

/-- `data:` -/
def dataField : List Char := ['d', 'a', 't', 'a', ':']

/-- `sse` -/
def sse (event : List Char) (data : Fields) : List Char :=
  eventField ++ ' ' :: event ++ '\n' :: dataField ++ ' ' :: dumps sseJson (.object data) ++
    ['\n', '\n']

/-- What the server sends at once: the name of an event, on one line, and its data. -/
structure ServerFrame where
  event : List Char
  data : Fields
  oneLine : '\n' ∉ event
  valid : wellFormed (.object data) = true

def serverText (frames : List ServerFrame) : List Char :=
  frames.flatMap fun frame => sse frame.event frame.data

structure StreamEvent where
  event : List Char
  data : Json
  sequence : Option Json

structure FrameFields where
  eventName : List Char
  eventSequence : Option Json
  dataLines : List (List Char)

/-- `STREAM_PARSE_ERROR` -/
def parseError : StreamEvent where
  event := "error".toList
  data := .object
    [("code", .string "STREAM_PARSE_ERROR".toList),
      ("message", .string "Failed to parse stream frame.".toList)]
  sequence := none

/-- `data.sequence = eventSequence` where the data has none; the assignment throws where the data
is no object. -/
def withSequence (sequence : Option Json) (data : Json) : Option Json :=
  match sequence, data with
  | none, data => some data
  | some value, .object fields =>
    some (.object (if (fields.lookup "sequence").isSome then fields
      else setField "sequence" value fields))
  -- a property beside the items
  | some _, .array items => some (.array items)
  | some _, _ => none

/-- `toSequence` is the number of an `id:` line, where it is finite and not negative. -/
def readLine (toSequence : List Char → Option Json) (fields : FrameFields) (line : List Char) :
    FrameFields :=
  if eventField.isPrefixOf line then { fields with eventName := trim (line.drop 6) }
  else if idField.isPrefixOf line then
    match toSequence (trim (line.drop 3)) with
    | some value => { fields with eventSequence := some value }
    | none => fields
  else if dataField.isPrefixOf line then
    { fields with dataLines := fields.dataLines ++ [trim (line.drop 5)] }
  else fields

/-- The event of one frame; a frame without data has none. -/
def parseFrame (toSequence : List Char → Option Json) (frame : List Char) : Option StreamEvent :=
  let trimmed := trim frame
  if trimmed = [] then none
  else
    let fields := (splitOn ['\n'] trimmed).foldl (readLine toSequence)
      ⟨"message".toList, none, []⟩
    if fields.dataLines = [] then none
    else
      let data := (parseJson (['\n'].intercalate fields.dataLines)).bind
        (withSequence fields.eventSequence)
      some (data.elim parseError fun data => ⟨fields.eventName, data, fields.eventSequence⟩)

def parseFrames (toSequence : List Char → Option Json) (buffer : List Char) :
    List StreamEvent × List Char :=
  let frames := splitOn ['\n', '\n'] buffer
  (frames.dropLast.filterMap (parseFrame toSequence), frames.getLastD [])

/-- `parseSseFrames` of `deepspace-stream.ts` -/
def DeepSpaceStream.parseSseFrames (toSequence : List Char → Option Json) :
    List Char → List StreamEvent × List Char := parseFrames toSequence

/-- `parseSseFrames` of `stream-protocol.ts`, which reads no `id:` lines -/
def QueryStream.parseSseFrames : List Char → List StreamEvent × List Char :=
  parseFrames fun _ => none

variable (toSequence : List Char → Option Json)

theorem incremental_parseFrames : Incremental (parseFrames toSequence) where
  empty := rfl
  append := by
    intro text more
    have nonempty : ['\n', '\n'] ≠ [] := List.cons_ne_nil _ _
    obtain ⟨parts, last, whole, longer⟩ := splitOn_append nonempty text more
    have rest := splitOn_ne_nil nonempty (last ++ more)
    have left : (parseFrames toSequence text).2 = last := by
      simp [parseFrames, whole]
    rw [left]
    simp only [parseFrames, whole, longer, List.dropLast_concat,
      List.dropLast_append_of_ne_nil rest, List.filterMap_append]
    rw [List.getLastD_eq_getLast?, List.getLastD_eq_getLast?,
      List.getLast?_append_of_ne_nil _ rest]

theorem newline_not_mem_escapeUnit (n : Nat) : '\n' ∉ escapeUnit n := by
  have hex : ∀ k < 16, hexDigit k ≠ '\n' := by decide
  have digit : ∀ k, '\n' ≠ hexDigit (k % 16) := fun k => (hex (k % 16) (by omega)).symm
  simp [escapeUnit, digit]

theorem newline_not_mem_escapeChar (format : JsonFormat) (c : Char) :
    '\n' ∉ escapeChar format c := by
  rcases escapeChar_cases format c with ⟨short, written, _, _, line, _⟩ | ⟨written, _⟩ |
    ⟨written, _⟩ | ⟨written, _, _, control⟩
  · rw [written, List.mem_pair, not_or]
    exact ⟨by decide, Ne.symm line⟩
  · rw [written]
    exact newline_not_mem_escapeUnit _
  · rw [written, List.mem_append, not_or]
    exact ⟨newline_not_mem_escapeUnit _, newline_not_mem_escapeUnit _⟩
  · rw [written, List.mem_singleton]
    rintro rfl
    exact control (by decide)

theorem newline_not_mem_quote (format : JsonFormat) (text : List Char) :
    '\n' ∉ quote format text := by
  simp only [quote, List.mem_cons, List.mem_append, List.mem_flatMap, not_or, List.not_mem_nil,
    or_false]
  refine ⟨by decide, ?_, by decide⟩
  rintro ⟨c, _, member⟩
  exact newline_not_mem_escapeChar format c member

mutual

theorem newline_not_mem_dumps : ∀ value : Json, wellFormed value = true →
    '\n' ∉ dumps sseJson value
  | .null, _ => by decide
  | .bool true, _ => by decide
  | .bool false, _ => by decide
  | .number literal, valid => by
    have read : readNumber literal.toList = some (literal.toList, []) := by
      simpa [wellFormed] using valid
    intro member
    have taken := (readsNumber_readNumber read).1 '\n' member
    exact absurd taken (by decide)
  | .string text, _ => newline_not_mem_quote sseJson text
  | .array items, valid => by
    have inner := newline_not_mem_dumpItems items valid
    simp [dumps, inner]
  | .object fields, valid => by
    have inner := newline_not_mem_dumpFields fields (Bool.and_eq_true_iff.mp valid).2
    simp [dumps, inner]

theorem newline_not_mem_dumpItems : ∀ items : List Json, wellFormedItems items = true →
    '\n' ∉ dumpItems sseJson items
  | [], _ => by decide
  | [item], valid => newline_not_mem_dumps item (Bool.and_eq_true_iff.mp valid).1
  | item :: next :: items, valid => by
    obtain ⟨head, tail⟩ := Bool.and_eq_true_iff.mp valid
    have first := newline_not_mem_dumps item head
    have others := newline_not_mem_dumpItems (next :: items) tail
    have comma : '\n' ∉ sseJson.itemSeparator := by decide
    simp only [dumpItems, List.mem_append, first, others, comma, or_self, not_false_eq_true]

theorem newline_not_mem_dumpFields : ∀ fields : List (String × Json),
    wellFormedFields fields = true → '\n' ∉ dumpFields sseJson fields
  | [], _ => by decide
  | [(name, value)], valid => by
    have first := newline_not_mem_dumps value (Bool.and_eq_true_iff.mp valid).1
    have named := newline_not_mem_quote sseJson name.toList
    have colon : '\n' ∉ sseJson.keySeparator := by decide
    simp only [dumpFields, List.mem_append, first, named, colon, or_self, not_false_eq_true]
  | (name, value) :: next :: fields, valid => by
    obtain ⟨head, tail⟩ := Bool.and_eq_true_iff.mp valid
    have first := newline_not_mem_dumps value head
    have others := newline_not_mem_dumpFields (next :: fields) tail
    have named := newline_not_mem_quote sseJson name.toList
    have colon : '\n' ∉ sseJson.keySeparator := by decide
    have comma : '\n' ∉ sseJson.itemSeparator := by decide
    simp only [dumpFields, List.mem_append, first, others, named, colon, comma, or_self,
      not_false_eq_true]

end

theorem trim_of_ends {c d : Char} (first : isBlank c = false) (last : isBlank d = false)
    (middle : List Char) : trim (c :: (middle ++ [d])) = c :: (middle ++ [d]) := by
  have started : trimStart (c :: (middle ++ [d])) = c :: (middle ++ [d]) := by
    simp [trimStart, first]
  rw [trim, started, ← List.cons_append, trimEnd, List.rdropWhile_concat_neg _ _ _ (by simp [last])]

theorem trim_space (text : List Char) : trim (' ' :: text) = trim text := by
  have blank : isBlank ' ' = true := by decide
  rw [trim, trim, trimStart, trimStart, List.dropWhile_cons, if_pos blank]

namespace ServerFrame

variable (frame : ServerFrame)

def received : StreamEvent where
  event := trim frame.event
  data := .object frame.data
  sequence := none

def eventLine : List Char := eventField ++ ' ' :: frame.event

def dataLine : List Char := dataField ++ ' ' :: dumps sseJson (.object frame.data)

theorem newline_not_mem_eventLine : '\n' ∉ frame.eventLine := by
  simp [eventLine, eventField, frame.oneLine]

theorem newline_not_mem_dataLine : '\n' ∉ frame.dataLine := by
  simp [dataLine, dataField, newline_not_mem_dumps (.object frame.data) frame.valid]

theorem sse_eq : sse frame.event frame.data =
    frame.eventLine ++ '\n' :: (frame.dataLine ++ ['\n', '\n']) := by
  simp [sse, eventLine, dataLine]

theorem cut_sse (rest : List Char) : cut ['\n', '\n'] (sse frame.event frame.data ++ rest) =
    some (frame.eventLine ++ '\n' :: frame.dataLine, rest) := by
  have between : cut ['\n', '\n'] (frame.dataLine ++ '\n' :: '\n' :: rest) =
      some (frame.dataLine, rest) := by
    rw [cut_append_of_not_mem frame.newline_not_mem_dataLine]
    rw [show '\n' :: '\n' :: rest = '\n' :: (['\n'] ++ rest) from rfl, cut_self]
    simp
  have single : cut ['\n', '\n'] ('\n' :: (frame.dataLine ++ '\n' :: '\n' :: rest)) =
      some ('\n' :: frame.dataLine, rest) := by
    have apart : ¬['\n', '\n'].isPrefixOf ('\n' :: (frame.dataLine ++ '\n' :: '\n' :: rest)) =
        true := by
      simp [dataLine, dataField]
    rw [cut, if_neg apart, between]
    rfl
  have shape : sse frame.event frame.data ++ rest =
      frame.eventLine ++ '\n' :: (frame.dataLine ++ '\n' :: '\n' :: rest) := by
    rw [frame.sse_eq]
    simp
  rw [shape, cut_append_of_not_mem frame.newline_not_mem_eventLine, single]
  rfl

theorem splitOn_lines : splitOn ['\n'] (frame.eventLine ++ '\n' :: frame.dataLine) =
    [frame.eventLine, frame.dataLine] := by
  have nonempty : ['\n'] ≠ [] := List.cons_ne_nil _ _
  have first : cut ['\n'] (frame.eventLine ++ '\n' :: frame.dataLine) =
      some (frame.eventLine, frame.dataLine) := by
    rw [cut_append_of_not_mem frame.newline_not_mem_eventLine]
    rw [show '\n' :: frame.dataLine = '\n' :: ([] ++ frame.dataLine) from rfl, cut_self]
    simp
  rw [splitOn_eq_of_cut nonempty first,
    splitOn_eq_of_none (cut_eq_none_of_not_mem frame.newline_not_mem_dataLine)]

theorem parseFrame_eq (toSequence : List Char → Option Json) :
    parseFrame toSequence (frame.eventLine ++ '\n' :: frame.dataLine) = some frame.received := by
  obtain ⟨middle, object⟩ : ∃ middle, dumps sseJson (.object frame.data) =
      '\x7b' :: (middle ++ ['\x7d']) := ⟨_, rfl⟩
  have whole : trim (frame.eventLine ++ '\n' :: frame.dataLine) =
      frame.eventLine ++ '\n' :: frame.dataLine := by
    have ends : frame.eventLine ++ '\n' :: frame.dataLine =
        'e' :: ((eventField.tail ++ ' ' :: frame.event ++ '\n' :: dataField ++
          ' ' :: '\x7b' :: middle) ++ ['\x7d']) := by
      simp [eventLine, dataLine, eventField, object]
    rw [ends]
    exact trim_of_ends (by decide) (by decide) _
  have json : trim (dumps sseJson (.object frame.data)) = dumps sseJson (.object frame.data) := by
    rw [object]
    exact trim_of_ends (by decide) (by decide) _
  have event : ∀ fields, readLine toSequence fields frame.eventLine =
      { fields with eventName := trim frame.event } := by
    intro fields
    have named : trim (frame.eventLine.drop 6) = trim frame.event := trim_space frame.event
    rw [readLine, if_pos (by simp [eventLine, eventField]), named]
  have data : ∀ fields, readLine toSequence fields frame.dataLine =
      { fields with
        dataLines := fields.dataLines ++ [dumps sseJson (.object frame.data)] } := by
    intro fields
    have text : trim (frame.dataLine.drop 5) = dumps sseJson (.object frame.data) :=
      (trim_space _).trans json
    rw [readLine, if_neg (by simp [dataLine, dataField, eventField]),
      if_neg (by simp [dataLine, dataField, idField]), if_pos (by simp [dataLine, dataField]), text]
  have filled : frame.eventLine ++ '\n' :: frame.dataLine ≠ [] := by simp
  have parsed : parseJson (dumps sseJson (.object frame.data)) = some (.object frame.data) :=
    parseJson_dumps rfl rfl frame.valid
  simp only [parseFrame, whole, if_neg filled, frame.splitOn_lines, List.foldl_cons,
    List.foldl_nil, event, data]
  simp [parsed, withSequence, received, List.intercalate]

end ServerFrame

theorem splitOn_serverText (frames : List ServerFrame) :
    splitOn ['\n', '\n'] (serverText frames) =
      (frames.map fun frame => frame.eventLine ++ '\n' :: frame.dataLine) ++ [[]] := by
  have nonempty : ['\n', '\n'] ≠ [] := List.cons_ne_nil _ _
  induction frames with
  | nil => rfl
  | cons frame frames ih =>
    have first := splitOn_eq_of_cut nonempty (frame.cut_sse (serverText frames))
    rw [ih] at first
    exact first

theorem parseFrames_serverText (toSequence : List Char → Option Json)
    (frames : List ServerFrame) :
    parseFrames toSequence (serverText frames) = (frames.map ServerFrame.received, []) := by
  have events : (frames.map fun frame => frame.eventLine ++ '\n' :: frame.dataLine).filterMap
      (parseFrame toSequence) = frames.map ServerFrame.received := by
    rw [List.filterMap_map, ← List.filterMap_eq_map]
    congr 1
    funext frame
    exact frame.parseFrame_eq toSequence
  simp only [parseFrames, splitOn_serverText, List.dropLast_concat, events]
  simp

/-- However the text of the server's frames is cut into chunks, both readers return one event for
each frame, in order, and leave nothing over; names lose their surrounding blanks. -/
theorem feed_serverText (toSequence : List Char → Option Json) (frames : List ServerFrame)
    (chunks : List (List Char)) (cuts : chunks.flatten = serverText frames) :
    feed (DeepSpaceStream.parseSseFrames toSequence) chunks =
        (frames.map ServerFrame.received, []) ∧
      feed QueryStream.parseSseFrames chunks = (frames.map ServerFrame.received, []) := by
  constructor
  · rw [DeepSpaceStream.parseSseFrames, (incremental_parseFrames toSequence).feed_eq, cuts]
    exact parseFrames_serverText toSequence frames
  · rw [QueryStream.parseSseFrames, (incremental_parseFrames fun _ => none).feed_eq, cuts]
    exact parseFrames_serverText _ frames

def textFrame (event : List Char) (oneLine : '\n' ∉ event) : ServerFrame where
  event := event
  data := [("text", .string "Hi,\n\ndata: é".toList), ("sequence", .number "3")]
  oneLine := oneLine
  valid := by decide +kernel

/-- The cut falls between the two line ends behind the first frame. -/
theorem cut_separator_read :
    let frames := [textFrame "delta".toList (by decide), textFrame "done".toList (by decide)]
    let chunks := [(serverText frames).take 63, (serverText frames).drop 63]
    chunks.head?.bind List.getLast? = some '\n' ∧
      feed (DeepSpaceStream.parseSseFrames fun _ => none) chunks =
        (frames.map ServerFrame.received, []) ∧
      feed QueryStream.parseSseFrames chunks = (frames.map ServerFrame.received, []) :=
  ⟨by decide +kernel, feed_serverText _ _ _ (by simp)⟩

theorem padded_name_trimmed :
    ¬∀ (frames : List ServerFrame) (chunks : List (List Char)),
      chunks.flatten = serverText frames → feed QueryStream.parseSseFrames chunks =
        (frames.map fun frame => ⟨frame.event, .object frame.data, none⟩, []) := by
  intro always
  let frame := textFrame " note".toList (by decide)
  have read := always [frame] [serverText [frame]] (by simp)
  have names := congrArg (fun result => result.1.map StreamEvent.event) read
  revert names
  decide +kernel

end AverQel.Frontend
