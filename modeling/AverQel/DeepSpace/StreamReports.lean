/- digest: What the worker reports of a stream, and when that is what the stream has said. -/
import AverQel.DeepSpace.RunEvents
import AverQel.Frontend.SseFrames
import AverQel.Providers.ResponsesParsing

namespace AverQel.DeepSpace.Reports

open Foundation.Splitting (cut)
open Foundation.Text (isSpace orDefault stripChars)
open Frontend (isNumberChar parseJson parseJson_dumps readNumber readsNumber_readNumber sse
  sseJson wellFormed wellFormedFields wellFormedItems)
open Providers (Json Fields JsonText truthy)
open AverQel.System (dumps dumpItems dumpFields quote escapeChar escapeUnit hexDigit)

/-- What `stream_turn` yields: a name without blanks around it, and its data. -/
structure EventFrame where
  event : List Char
  data : Fields
  oneLine : ∀ c ∈ event, isLineBreak c = false
  trimmed : stripChars event = event
  filled : event ≠ []
  valid : wellFormed (.object data) = true

def EventFrame.text (frame : EventFrame) : List Char := sse frame.event frame.data

/-- `marker in text` -/
def occurs (marker text : List Char) : Bool := (cut marker text).isSome

def doneMarker : List Char := "event: done".toList

def errorMarker : List Char := "event: error".toList

/-- What `execute` has found out about the end of the stream. -/
structure Report where
  terminalFrameSeen : Bool
  (terminalStatus terminalRunStatus : Option (List Char))
  deriving DecidableEq

namespace Report

def start : Report := ⟨false, none, none⟩

def failed : Report := ⟨true, some "failed".toList, some "failed".toList⟩

variable (str : JsonText)

/-- `str(data.get("status") or "ready")` -/
def reportedStatus (data : Fields) : List Char :=
  match data.lookup "status" with
  | none => "ready".toList
  | some status => if truthy str status then str.str status else "ready".toList

def done (data : Fields) : Report :=
  let status := reportedStatus str data
  ⟨true, some status, some (if status = "completed".toList then "ready".toList else status)⟩

end Report

section Worker

variable (str : JsonText)

/-- `data_line` -/
def dataLine (frame : List Char) : List Char :=
  match (splitLines frame).find? fun line => "data:".toList.isPrefixOf line with
  | none => []
  | some line => stripChars (line.drop 5)

/-- One frame in the loop of `execute`; without a value where it raises. -/
def readFrame (report : Report) (frame : List Char) : Option Report :=
  if occurs doneMarker frame then
    match parseJson (dataLine frame) with
    | none => some ⟨true, some "completed".toList, some "ready".toList⟩
    | some (.object data) => some (.done str data)
    -- `.get` of something that is no dictionary
    | some _ => none
  else if occurs errorMarker frame then some .failed
  else some report

def readFrames (frames : List (List Char)) : Option Report :=
  frames.foldlM (readFrame str) .start

/-- What `run_deepspace_task` returns after the stream. -/
def taskStatus (report : Report) : List Char :=
  if report.terminalFrameSeen = false then "failed".toList
  else
    match report.terminalStatus with
    | none => "failed".toList
    | some status =>
      if ["completed", "cancelled", "failed", "awaiting_user", "awaiting_approval"].any
          fun known => known.toList = status then status
      else "completed".toList

/-- The name that `event_name_from_frame` reads. -/
def EventFrame.name (frame : EventFrame) : String := eventNameFromFrame (String.ofList frame.text)

/-- The last frame that is named `done` or `error`. -/
def lastTerminal (frames : List EventFrame) : Option EventFrame :=
  (frames.filter fun frame => isTerminalEvent frame.name).getLast?

def saidReport (frames : List EventFrame) : Report :=
  match lastTerminal frames with
  | none => .start
  | some frame => if frame.name = "done" then .done str frame.data else .failed

def Truthful (frames : List EventFrame) : Prop :=
  readFrames str (frames.map EventFrame.text) = some (saidReport str frames)

def marked (frame : EventFrame) : Bool :=
  occurs doneMarker frame.text || occurs errorMarker frame.text

def lastMarked (frames : List EventFrame) : Option EventFrame := (frames.filter marked).getLast?

/-- The frame is named `done`, or named `error` without the other marker in its text (unless it
reports a failed status anyway), or it says by its markers what the stream has said. -/
def Plain (frames : List EventFrame) (frame : EventFrame) : Prop :=
  if frame.name = "done" then True
  else if frame.name = "error" then
    occurs doneMarker frame.text = false ∨
      Report.reportedStatus str frame.data = "failed".toList
  else if occurs doneMarker frame.text then .done str frame.data = saidReport str frames
  else .failed = saidReport str frames

end Worker

def isPrintable (c : Char) : Bool := 32 ≤ c.toNat && c.toNat ≤ 126

theorem isLineBreak_of_isPrintable {c : Char} (printable : isPrintable c = true) :
    isLineBreak c = false := by
  simp only [isPrintable, Bool.and_eq_true, decide_eq_true_eq] at printable
  simp only [isLineBreak, Bool.or_eq_false_iff, Bool.and_eq_false_iff, decide_eq_false_iff_not,
    beq_eq_false_iff_ne]
  omega

theorem isPrintable_hexDigit (n : Nat) : isPrintable (hexDigit (n % 16)) = true := by
  have digits : ∀ k < 16, isPrintable (hexDigit k) = true := by decide
  exact digits (n % 16) (Nat.mod_lt n (by decide))

theorem isPrintable_escapeUnit (n : Nat) : ∀ c ∈ escapeUnit n, isPrintable c = true := by
  simp only [escapeUnit, List.forall_mem_cons, isPrintable_hexDigit, true_and]
  exact ⟨by decide, by decide, fun c member => absurd member List.not_mem_nil⟩

theorem forall_mem_ite {p : Prop} [Decidable p] {yes no : List Char} {good : Char → Prop}
    (first : p → ∀ d ∈ yes, good d) (second : ¬p → ∀ d ∈ no, good d) :
    ∀ d ∈ (if p then yes else no), good d := by
  by_cases decided : p
  · rw [if_pos decided]
    exact first decided
  · rw [if_neg decided]
    exact second decided

theorem isPrintable_escapeChar (c : Char) : ∀ d ∈ escapeChar sseJson c, isPrintable d = true := by
  have short (s : Char) (plain : isPrintable s = true) : ∀ d ∈ ['\\', s], isPrintable d = true := by
    intro d member
    rcases List.mem_pair.mp member with rfl | rfl
    · decide
    · exact plain
  unfold escapeChar
  refine forall_mem_ite (fun _ => short _ (by decide)) fun _ => ?_
  refine forall_mem_ite (fun _ => short _ (by decide)) fun _ => ?_
  refine forall_mem_ite (fun _ => short _ (by decide)) fun _ => ?_
  refine forall_mem_ite (fun _ => short _ (by decide)) fun _ => ?_
  refine forall_mem_ite (fun _ => short _ (by decide)) fun _ => ?_
  refine forall_mem_ite (fun _ => short _ (by decide)) fun _ => ?_
  refine forall_mem_ite (fun _ => short _ (by decide)) fun _ => ?_
  refine forall_mem_ite (fun _ => isPrintable_escapeUnit _) fun printed => ?_
  refine forall_mem_ite (fun _ => forall_mem_ite (fun _ => isPrintable_escapeUnit _) ?_) ?_
  · intro _ d member
    rcases List.mem_append.mp member with high | low
    · exact isPrintable_escapeUnit _ d high
    · exact isPrintable_escapeUnit _ d low
  · intro narrow d member
    obtain rfl := List.mem_singleton.mp member
    have small : ¬126 < d.toNat := fun large => narrow ⟨rfl, large⟩
    simp only [isPrintable, Bool.and_eq_true, decide_eq_true_eq]
    omega

theorem isPrintable_quote (text : List Char) : ∀ d ∈ quote sseJson text, isPrintable d = true := by
  intro d member
  simp only [quote, List.mem_cons, List.mem_append, List.mem_flatMap, List.not_mem_nil,
    or_false] at member
  rcases member with rfl | ⟨c, _, inside⟩ | rfl
  · decide
  · exact isPrintable_escapeChar c d inside
  · decide

theorem isPrintable_of_isNumberChar {c : Char} (number : isNumberChar c = true) :
    isPrintable c = true := by
  simp only [isNumberChar, Bool.or_eq_true, Char.isDigit, Bool.and_eq_true, decide_eq_true_eq]
    at number
  rcases number with digit | mark
  · have low : 48 ≤ c.toNat := digit.1
    have high : c.toNat ≤ 57 := digit.2
    simp only [isPrintable, Bool.and_eq_true, decide_eq_true_eq]
    omega
  · simp only [List.mem_cons, List.not_mem_nil, or_false] at mark
    rcases mark with rfl | rfl | rfl | rfl | rfl <;> decide

mutual

theorem isPrintable_dumps : ∀ value : Json, wellFormed value = true →
    ∀ d ∈ dumps sseJson value, isPrintable d = true
  | .null, _ => List.all_eq_true.mp (by decide)
  | .bool true, _ => List.all_eq_true.mp (by decide)
  | .bool false, _ => List.all_eq_true.mp (by decide)
  | .number literal, valid => by
    have read : readNumber literal.toList = some (literal.toList, []) := by
      simpa [wellFormed] using valid
    intro d member
    exact isPrintable_of_isNumberChar ((readsNumber_readNumber read).1 d member)
  | .string text, _ => isPrintable_quote text
  | .array items, valid => by
    have inner := isPrintable_dumpItems items valid
    have brackets : isPrintable '[' = true ∧ isPrintable ']' = true := by decide
    simp only [dumps, List.forall_mem_cons, List.forall_mem_append]
    exact ⟨brackets.1, inner, brackets.2, fun _ member => absurd member List.not_mem_nil⟩
  | .object fields, valid => by
    have inner := isPrintable_dumpFields fields (Bool.and_eq_true_iff.mp valid).2
    have braces : isPrintable '\x7b' = true ∧ isPrintable '\x7d' = true := by decide
    simp only [dumps, List.forall_mem_cons, List.forall_mem_append]
    exact ⟨braces.1, inner, braces.2, fun _ member => absurd member List.not_mem_nil⟩

theorem isPrintable_dumpItems : ∀ items : List Json, wellFormedItems items = true →
    ∀ d ∈ dumpItems sseJson items, isPrintable d = true
  | [], _ => fun _ member => absurd member List.not_mem_nil
  | [item], valid => isPrintable_dumps item (Bool.and_eq_true_iff.mp valid).1
  | item :: next :: items, valid => by
    obtain ⟨head, tail⟩ := Bool.and_eq_true_iff.mp valid
    have comma : ∀ d ∈ sseJson.itemSeparator, isPrintable d = true :=
      List.all_eq_true.mp (by decide)
    simp only [dumpItems, List.forall_mem_append]
    exact ⟨⟨isPrintable_dumps item head, comma⟩, isPrintable_dumpItems (next :: items) tail⟩

theorem isPrintable_dumpFields : ∀ fields : List (String × Json),
    wellFormedFields fields = true → ∀ d ∈ dumpFields sseJson fields, isPrintable d = true
  | [], _ => fun _ member => absurd member List.not_mem_nil
  | [(name, value)], valid => by
    have colon : ∀ d ∈ sseJson.keySeparator, isPrintable d = true :=
      List.all_eq_true.mp (by decide)
    simp only [dumpFields, List.forall_mem_append]
    exact ⟨⟨isPrintable_quote name.toList, colon⟩,
      isPrintable_dumps value (Bool.and_eq_true_iff.mp valid).1⟩
  | (name, value) :: next :: fields, valid => by
    obtain ⟨head, tail⟩ := Bool.and_eq_true_iff.mp valid
    have colon : ∀ d ∈ sseJson.keySeparator, isPrintable d = true :=
      List.all_eq_true.mp (by decide)
    have comma : ∀ d ∈ sseJson.itemSeparator, isPrintable d = true :=
      List.all_eq_true.mp (by decide)
    simp only [dumpFields, List.forall_mem_append]
    exact ⟨⟨⟨⟨isPrintable_quote name.toList, colon⟩, isPrintable_dumps value head⟩, comma⟩,
      isPrintable_dumpFields (next :: fields) tail⟩

end

theorem splitLines_append {line : List Char} (free : ∀ c ∈ line, isLineBreak c = false)
    {b : Char} (ends : isLineBreak b = true) (rest : List Char) :
    splitLines (line ++ b :: rest) = line :: splitLines rest := by
  induction line with
  | nil =>
    unfold splitLines
    rw [List.nil_append, List.foldr_cons, if_pos ends]
  | cons c line ih =>
    have kept := ih fun d member => free d (List.mem_cons_of_mem c member)
    have first : ¬isLineBreak c = true := by
      rw [free c List.mem_cons_self]
      decide
    unfold splitLines at kept ⊢
    rw [List.cons_append, List.foldr_cons, if_neg first, kept]

namespace EventFrame

variable (frame : EventFrame)

theorem text_eq : frame.text = ("event: ".toList ++ frame.event) ++ '\n' ::
    (("data: ".toList ++ dumps sseJson (.object frame.data)) ++ '\n' :: ['\n']) := by
  simp [text, sse, Frontend.eventField, Frontend.dataField]

theorem splitLines_text : splitLines frame.text =
    ("event: ".toList ++ frame.event) ::
      ("data: ".toList ++ dumps sseJson (.object frame.data)) :: splitLines ['\n'] := by
  have label : ∀ c ∈ "event: ".toList, isLineBreak c = false := fun c member =>
    isLineBreak_of_isPrintable (List.all_eq_true.mp (by decide) c member)
  have other : ∀ c ∈ "data: ".toList, isLineBreak c = false := fun c member =>
    isLineBreak_of_isPrintable (List.all_eq_true.mp (by decide) c member)
  rw [text_eq, splitLines_append _ (by decide), splitLines_append _ (by decide)]
  · intro c member
    rcases List.mem_append.mp member with inside | written
    · exact other c inside
    · exact isLineBreak_of_isPrintable (isPrintable_dumps _ frame.valid c written)
  · intro c member
    rcases List.mem_append.mp member with inside | named
    · exact label c inside
    · exact frame.oneLine c named

theorem stripChars_blank (text : List Char) : stripChars (' ' :: text) = stripChars text := by
  have blank : isSpace ' ' = true := by decide
  rw [stripChars, stripChars, List.dropWhile_cons, if_pos blank]

theorem name_eq : frame.name = String.ofList frame.event := by
  have first : "event:".toList.isPrefixOf ("event: ".toList ++ frame.event) = true := by
    rw [List.isPrefixOf_iff_prefix]
    exact ⟨' ' :: frame.event, by simp⟩
  have rest : ("event: ".toList ++ frame.event).drop 6 = ' ' :: frame.event := by simp
  have filled : String.ofList frame.event ≠ "" := by
    intro empty
    have nothing := congrArg String.toList empty
    rw [String.toList_ofList] at nothing
    exact frame.filled nothing
  have lines : splitLines (String.ofList frame.text).toList = ("event: ".toList ++ frame.event) ::
      ("data: ".toList ++ dumps sseJson (.object frame.data)) :: splitLines ['\n'] := by
    rw [String.toList_ofList]
    exact frame.splitLines_text
  rw [name, eventNameFromFrame, lines, List.find?_cons, first]
  simp only [rest, stripChars_blank, frame.trimmed, orDefault, if_neg filled]

theorem dataLine_text : dataLine frame.text = dumps sseJson (.object frame.data) := by
  have first : "data:".toList.isPrefixOf ("event: ".toList ++ frame.event) = false := by
    simp [List.isPrefixOf]
  have second : "data:".toList.isPrefixOf
      ("data: ".toList ++ dumps sseJson (.object frame.data)) = true := by
    rw [List.isPrefixOf_iff_prefix]
    exact ⟨' ' :: dumps sseJson (.object frame.data), by simp⟩
  have rest : ("data: ".toList ++ dumps sseJson (.object frame.data)).drop 5 =
      ' ' :: dumps sseJson (.object frame.data) := by simp
  have started : isSpace '\x7b' = false := by decide
  have ended : isSpace '\x7d' = false := by decide
  rw [dataLine, splitLines_text, List.find?_cons, first]
  dsimp only
  rw [List.find?_cons, second]
  dsimp only
  rw [rest, stripChars_blank, dumps, stripChars, List.dropWhile_cons_of_neg (by simp [started]),
    ← List.cons_append, List.rdropWhile_concat_neg _ _ _ (by simp [ended])]

theorem name_eq_iff (name : String) : frame.name = name ↔ frame.event = name.toList := by
  rw [name_eq]
  constructor
  · intro same
    rw [← same, String.toList_ofList]
  · intro same
    rw [same, String.ofList_toList]

theorem occurs_of_name {marker : List Char} {name : String}
    (spelled : marker = "event: ".toList ++ name.toList) (filled : marker ≠ [])
    (named : frame.name = name) : occurs marker frame.text = true := by
  have start : marker.isPrefixOf frame.text = true := by
    rw [List.isPrefixOf_iff_prefix, text_eq, (frame.name_eq_iff name).mp named, spelled]
    exact List.prefix_append _ _
  cases whole : frame.text with
  | nil =>
    rw [whole] at start
    cases marker with
    | nil => exact absurd rfl filled
    | cons => cases start
  | cons =>
    rw [whole] at start
    rw [occurs, cut, if_pos start]
    rfl

end EventFrame

variable (str : JsonText)

def taken (frame : EventFrame) : Report :=
  if occurs doneMarker frame.text then .done str frame.data else .failed

theorem readFrame_text (report : Report) (frame : EventFrame) :
    readFrame str report frame.text =
      some (if marked frame then taken str frame else report) := by
  have parsed : parseJson (dumps sseJson (.object frame.data)) = some (.object frame.data) :=
    parseJson_dumps rfl rfl frame.valid
  unfold readFrame marked taken
  rw [frame.dataLine_text, parsed]
  cases done : occurs doneMarker frame.text with
  | true => rfl
  | false =>
    cases error : occurs errorMarker frame.text with
    | true | false => rfl

theorem getLast?_filter_concat (p : EventFrame → Bool) (frames : List EventFrame)
    (frame : EventFrame) : ((frames ++ [frame]).filter p).getLast? =
      if p frame then some frame else (frames.filter p).getLast? := by
  rw [List.filter_append]
  cases kept : p frame with
  | true =>
    rw [List.filter_cons_of_pos kept, List.filter_nil, List.getLast?_concat]
    rfl
  | false =>
    have gone : ¬p frame = true := by
      rw [kept]
      decide
    rw [List.filter_cons_of_neg gone, List.filter_nil, List.append_nil]
    rfl

theorem readFrames_text (frames : List EventFrame) :
    readFrames str (frames.map EventFrame.text) =
      some (((lastMarked frames).map (taken str)).getD .start) := by
  induction frames using List.reverseRecOn with
  | nil => rfl
  | append_singleton frames frame ih =>
    rw [readFrames] at ih ⊢
    have one (report : Report) : ([frame].map EventFrame.text).foldlM (readFrame str) report =
        readFrame str report frame.text := by
      simp only [List.map_cons, List.map_nil, List.foldlM_cons, List.foldlM_nil, bind_pure]
    have last : lastMarked (frames ++ [frame]) =
        if marked frame then some frame else lastMarked frames := getLast?_filter_concat _ _ _
    rw [List.map_append, List.foldlM_append, ih, Option.bind_eq_bind, Option.bind_some, one,
      readFrame_text, last]
    cases marked frame <;> rfl

theorem marked_of_terminal {frame : EventFrame} (terminal : isTerminalEvent frame.name = true) :
    marked frame = true := by
  simp only [isTerminalEvent, Bool.or_eq_true, decide_eq_true_eq] at terminal
  unfold marked
  rcases terminal with named | named
  · have done : occurs doneMarker frame.text = true :=
      frame.occurs_of_name rfl (by decide) named
    rw [done, Bool.true_or]
  · have error : occurs errorMarker frame.text = true :=
      frame.occurs_of_name rfl (by decide) named
    rw [error, Bool.or_true]

theorem lastTerminal_of_lastMarked {frames : List EventFrame} {frame : EventFrame}
    (last : lastMarked frames = some frame) (terminal : isTerminalEvent frame.name = true) :
    lastTerminal frames = some frame := by
  induction frames using List.reverseRecOn with
  | nil => cases last
  | append_singleton frames other ih =>
    rw [lastMarked, getLast?_filter_concat] at last
    rw [lastTerminal, getLast?_filter_concat]
    cases mark : marked other with
    | true =>
      rw [mark, if_pos rfl] at last
      obtain rfl := Option.some.inj last
      rw [if_pos terminal]
    | false =>
      have quiet : ¬isTerminalEvent other.name = true := fun ends =>
        absurd (mark.symm.trans (marked_of_terminal ends)) (by decide)
      rw [mark, if_neg (by decide)] at last
      rw [if_neg quiet]
      exact ih last

theorem saidReport_of_unmarked {frames : List EventFrame} (unmarked : lastMarked frames = none) :
    saidReport str frames = .start := by
  have empty := List.filter_eq_nil_iff.mp (List.getLast?_eq_none_iff.mp unmarked)
  have none_terminal : lastTerminal frames = none := by
    rw [lastTerminal, List.getLast?_eq_none_iff, List.filter_eq_nil_iff]
    exact fun frame member ends => empty frame member (marked_of_terminal ends)
  rw [saidReport, none_terminal]

/-- The worker reports what the stream has said exactly when the last frame that contains a marker
is plain. -/
theorem truthful_iff_plain (frames : List EventFrame) :
    Truthful str frames ↔ ∀ frame ∈ lastMarked frames, Plain str frames frame := by
  rw [Truthful, readFrames_text, Option.some.injEq]
  cases last : lastMarked frames with
  | none =>
    rw [saidReport_of_unmarked str last]
    refine iff_of_true (by rw [Option.map_none, Option.getD_none]) ?_
    intro frame member
    cases member
  | some frame =>
    simp only [Option.map_some, Option.getD_some, Option.mem_def, Option.some.injEq, forall_eq']
    unfold Plain
    split_ifs with done error shown
    · have ends : isTerminalEvent frame.name = true := by
        rw [done]
        decide
      have marker : occurs doneMarker frame.text = true :=
        frame.occurs_of_name rfl (by decide) done
      rw [saidReport, lastTerminal_of_lastMarked last ends]
      simp [taken, marker, done]
    · have ends : isTerminalEvent frame.name = true := by
        rw [error]
        decide
      rw [saidReport, lastTerminal_of_lastMarked last ends]
      simp only [done, if_false, taken]
      cases marker : occurs doneMarker frame.text with
      | false => simp
      | true =>
        simp only [if_true, Report.done, Report.failed, Report.mk.injEq, Option.some.injEq,
          true_and, Bool.true_eq_false, false_or]
        constructor
        · exact fun same => same.1
        · intro failed
          rw [failed]
          exact ⟨rfl, if_neg (by decide)⟩
    · rw [taken, if_pos shown]
    · rw [taken, if_neg shown]

/-- `str` of texts. -/
def textsOnly : JsonText := ⟨fun | .string chars => chars | _ => [], fun _ => false⟩

/-- A piece of an answer that is about event streams. -/
def quotingDelta : EventFrame where
  event := "delta".toList
  data := [("text", .string "Then the server sends event: done and closes.".toList)]
  oneLine c member := isLineBreak_of_isPrintable (List.all_eq_true.mp (by decide) c member)
  trimmed := by decide
  filled := by decide
  valid := by decide

/-- The stream breaks off after the piece, and the worker takes it for finished. -/
theorem not_truthful_quotingDelta : ¬Truthful textsOnly [quotingDelta] := by
  intro truthful
  have contains : marked quotingDelta = true := by decide +kernel
  have last : lastMarked [quotingDelta] = some quotingDelta := by
    rw [lastMarked, List.filter_cons_of_pos contains]
    rfl
  have quiet : lastTerminal [quotingDelta] = none := by
    rw [lastTerminal, List.getLast?_eq_none_iff, List.filter_eq_nil_iff]
    intro frame member
    rw [List.mem_singleton.mp member]
    decide +kernel
  rw [Truthful, readFrames_text, last, saidReport, quiet] at truthful
  have seen := congrArg Report.terminalFrameSeen (Option.some.inj truthful)
  exact absurd seen (by decide +kernel)

example : (readFrames textsOnly [quotingDelta.text]).map taskStatus = some "completed".toList := by
  decide +kernel

end AverQel.DeepSpace.Reports
