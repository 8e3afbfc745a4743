/- digest: Whether a streamed answer is the text that the endpoint sent. -/
import AverQel.Providers.OpenAICompatible

namespace AverQel.Providers

open Foundation Deltas

variable {env : StreamEnvironment} {provider : OpenAICompatibleProvider}
  {request : ChatGenerateRequest}

def TagFree (text : List Char) : Prop :=
  ¬ thinkTags.OccurIn text ∧ ¬ gemmaTags.OccurIn text

instance (text : List Char) : Decidable (TagFree text) := inferInstanceAs (Decidable (_ ∧ _))

theorem ReasoningTags.OccurIn.mono {tags : ReasoningTags} {piece text : List Char}
    (occur : tags.OccurIn piece) (part : piece <:+: text) : tags.OccurIn text := by
  rcases occur with opening | closing
  · exact .inl (opening.trans part)
  · exact .inr (closing.trans part)

theorem TagFree.part {piece text : List Char} (plain : TagFree text) (part : piece <:+: text) :
    TagFree piece :=
  ⟨fun occur => plain.1 (occur.mono part), fun occur => plain.2 (occur.mono part)⟩

theorem TagFree.head {d : List Char} {ds : List (List Char)}
    (plain : TagFree (d :: ds).flatten) : TagFree d ∧ TagFree ds.flatten := by
  rw [List.flatten_cons] at plain
  exact ⟨plain.part (List.prefix_append _ _).isInfix, plain.part (List.suffix_append _ _).isInfix⟩

theorem splitStreamContent_tagFree {content : List Char} (plain : TagFree content)
    (some_text : content ≠ []) :
    splitStreamContentForReasoning content .answer = ([.delta content], .answer) := by
  obtain ⟨no_think, no_gemma⟩ := plain
  simp [splitStreamContentForReasoning, no_think, no_gemma, some_text]

theorem extractTagged_tagFree {content : List Char} (plain : TagFree content) :
    extractTaggedReasoningContent content = none := by
  obtain ⟨no_think, no_gemma⟩ := plain
  simp [extractTaggedReasoningContent, no_think, no_gemma]

section Wire

variable (env)

def Carries (line d : List Char) : Prop :=
  ∃ fields choice delta, readLine env line = .chunk fields ∧ chunkError fields = none ∧
    chunkChoice fields = some (choice, delta) ∧ delta.lookup "content" = some (.string d)

def Quiet (line : List Char) : Prop :=
  readLine env line = .skip ∨ ∃ fields, readLine env line = .chunk fields ∧
    chunkError fields = none ∧
    ∀ choice delta, chunkChoice fields = some (choice, delta) →
      extractStreamText env choice delta = none

/-- The lines of a stream that sends the pieces, strictly one after the other. -/
inductive Sends : List (List Char) → List (List Char) → Prop
  | ended : Sends [] []
  | done {line rest} : readLine env line = .done → Sends (line :: rest) []
  | quiet {line rest ds} : Quiet env line → Sends rest ds → Sends (line :: rest) ds
  | piece {line rest d ds} : Carries env line d → d ≠ [] → Sends rest ds →
      Sends (line :: rest) (d :: ds)

def Completes (response : HttpResponse) (text : List Char) : Prop :=
  response.statusCode < 400 ∧ ∃ fields message, env.loads response.text = some (.object fields) ∧
    fields.lookup "success" = none ∧ objectField fields "error" = none ∧
    completionMessage fields = .ok message ∧ message.lookup "content" = some (.string text)

def Serves (provider : OpenAICompatibleProvider) (request : ChatGenerateRequest)
    (respond : Bool → HttpResponse) (response : HttpResponse) : Prop :=
  let first := respond (requestsStreamUsage env provider request)
  response.statusCode < 400 ∧ (first = response ∨ (400 ≤ first.statusCode ∧
    streamRefusal env first = .unsupportedStreamUsageOption ∧ respond false = response))

end Wire

variable {d : List Char}

theorem extractStreamText_of_content {choice delta : Fields}
    (content : delta.lookup "content" = some (.string d)) (some_text : d ≠ []) :
    extractStreamText env choice delta = some d := by
  simp [extractStreamText, content, textCandidate, splitTextAndReasoning, orNone, some_text]

variable {lines ds : List (List Char)}

theorem Sends.nonempty (sends : Sends env lines ds) :
    ∀ d ∈ ds, d ≠ [] := by
  induction sends with
  | ended | done => simp
  | quiet _ _ ih => exact ih
  | piece _ some_text _ ih => exact List.forall_mem_cons.mpr ⟨some_text, ih⟩

section Async

variable (env) (provider) (request)

@[simp] theorem deltaText_nil : deltaText [] = [] := rfl

@[simp] theorem deltaText_append (events more : List StreamEvent) :
    deltaText (events ++ more) = deltaText events ++ deltaText more := by
  simp [deltaText]

def Silent (s : StreamState) (result : StreamState × List StreamEvent) : Prop :=
  result.1.parser = s.parser ∧ result.1.emittedAnswer = s.emittedAnswer ∧ deltaText result.2 = []

theorem thinkingEvents_silent (s : StreamState) (text : List Char) :
    Silent s (thinkingEvents s text) := by
  unfold thinkingEvents
  extract_lets delta
  split
  · exact ⟨rfl, rfl, rfl⟩
  · exact ⟨rfl, rfl, rfl⟩

theorem reasoningEvents_silent (s : StreamState) (delta : Fields) :
    Silent s (reasoningEvents env provider request s delta) := by
  unfold reasoningEvents
  extract_lets continuation continued thinking
  have nothing : deltaText continued = [] := by
    unfold continued
    split <;> rfl
  cases thinking with
  | none => exact ⟨rfl, rfl, nothing⟩
  | some text =>
    obtain ⟨parser, answer, silent⟩ := thinkingEvents_silent s text
    refine ⟨parser, answer, ?_⟩
    rw [deltaText_append, nothing, silent]
    rfl

theorem answerEvents_eq (s : StreamState) (text : List Char) :
    (answerEvents s text).1 =
        { s with emittedAnswer := s.emittedAnswer ++ streamTextSuffix s.emittedAnswer text } ∧
      deltaText (answerEvents s text).2 = streamTextSuffix s.emittedAnswer text := by
  unfold answerEvents
  extract_lets delta
  by_cases nothing : delta = []
  · rw [if_pos nothing]
    change _ ∧ _ = delta
    rw [nothing]
    exact ⟨by rw [show streamTextSuffix s.emittedAnswer text = [] from nothing, List.append_nil],
      rfl⟩
  · rw [if_neg nothing]
    refine ⟨rfl, ?_⟩
    change delta ++ [] = delta
    exact List.append_nil delta

theorem chunkEvents_quiet (s : StreamState) {fields : Fields}
    (quiet : ∀ choice delta, chunkChoice fields = some (choice, delta) →
      extractStreamText env choice delta = none) :
    Silent s (chunkEvents env provider request s fields) := by
  unfold chunkEvents
  extract_lets usage
  have no_usage : deltaText usage = [] := by
    unfold usage
    split <;> rfl
  split
  · exact ⟨rfl, rfl, no_usage⟩
  · rename_i choice delta chosen
    obtain ⟨parser, answer, silent⟩ :=
      reasoningEvents_silent env provider request s delta
    simp only [contentEvents, quiet choice delta chosen]
    refine ⟨parser, answer, ?_⟩
    simp only [deltaText_append, no_usage, silent, deltaText_nil, List.nil_append]
    split <;> rfl

def Answers (s : StreamState) (text : List Char) (result : StreamState × List StreamEvent) : Prop :=
  result.1.parser = .answer ∧ result.1.emittedAnswer = s.emittedAnswer ++ text ∧
    deltaText result.2 = text

theorem contentEvents_piece (s : StreamState) (answering : s.parser = .answer) (choice : Fields)
    {delta : Fields} (content : delta.lookup "content" = some (.string d)) (plain : TagFree d)
    (some_text : d ≠ []) :
    Answers s (streamTextSuffix s.emittedAnswer d) (contentEvents env s choice delta) := by
  obtain ⟨state, text⟩ := answerEvents_eq { s with parser := .answer } d
  simp only [contentEvents, extractStreamText_of_content content some_text, answering,
    splitStreamContent_tagFree plain some_text, piecesEvents, pieceEvents, List.append_nil]
  exact ⟨congrArg StreamState.parser state, congrArg StreamState.emittedAnswer state, text⟩

theorem chunkEvents_piece (s : StreamState) (answering : s.parser = .answer)
    {fields choice delta : Fields} (chosen : chunkChoice fields = some (choice, delta))
    (content : delta.lookup "content" = some (.string d)) (plain : TagFree d) (some_text : d ≠ []) :
    Answers s (streamTextSuffix s.emittedAnswer d) (chunkEvents env provider request s fields) := by
  unfold chunkEvents
  extract_lets usage
  have no_usage : deltaText usage = [] := by
    unfold usage
    split <;> rfl
  obtain ⟨parser, answer, silent⟩ :=
    reasoningEvents_silent env provider request s delta
  obtain ⟨parser', answer', sent⟩ := contentEvents_piece env
    (reasoningEvents env provider request s delta).1 (parser.trans answering) choice content plain
    some_text
  rw [answer] at answer' sent
  simp only [chosen]
  refine ⟨parser', answer', ?_⟩
  simp only [deltaText_append, no_usage, silent, sent, List.nil_append]
  split <;> simp [deltaText]

theorem streamLines_sends (sends : Sends env lines ds) (plain : TagFree ds.flatten)
    (s : StreamState) (answering : s.parser = .answer) :
    (streamLines env provider request s lines).failure = none ∧
      deltaText (streamLines env provider request s lines).events =
        (emit streamTextSuffix s.emittedAnswer ds).flatten := by
  induction sends generalizing s with
  | ended => exact ⟨rfl, rfl⟩
  | done last =>
    simp only [streamLines, last]
    exact ⟨trivial, rfl⟩
  | quiet silent _ ih =>
    rcases silent with skipped | ⟨fields, read, fine, quiet⟩
    · simp only [streamLines, skipped]
      exact ih plain s answering
    · obtain ⟨parser, answer, nothing⟩ := chunkEvents_quiet env provider request s quiet
      obtain ⟨finished, text⟩ := ih plain _ (parser.trans answering)
      simp only [streamLines, read, fine]
      refine ⟨finished, ?_⟩
      rw [deltaText_append, nothing, text, answer]
      rfl
  | piece carries some_text _ ih =>
    obtain ⟨fields, choice, delta, read, fine, chosen, content⟩ := carries
    obtain ⟨plain_head, plain_tail⟩ := plain.head
    obtain ⟨parser, answer, sent⟩ :=
      chunkEvents_piece env provider request s answering chosen content plain_head some_text
    obtain ⟨finished, text⟩ := ih plain_tail _ parser
    simp only [streamLines, read, fine]
    refine ⟨finished, ?_⟩
    rw [deltaText_append, sent, text, answer]
    rfl

theorem streamGenerateEvents_serves {respond : Bool → HttpResponse} {response : HttpResponse}
    {ds : List (List Char)} (serves : Serves env provider request respond response)
    (sends : Sends env response.lines ds) (plain : TagFree ds.flatten) :
    deltaText (streamGenerateEvents env provider request respond).events =
      (emit streamTextSuffix [] ds).flatten := by
  obtain ⟨finished, text⟩ := streamLines_sends env provider request sends plain .start rfl
  obtain ⟨fine, first | ⟨failing, unsupported, again⟩⟩ := serves
  · have served : streamChatCompletionEvents env provider request response =
        streamLines env provider request .start response.lines := if_neg (by omega)
    simp only [streamGenerateEvents, first, served, finished]
    exact text
  · have refused : streamChatCompletionEvents env provider request
        (respond (requestsStreamUsage env provider request)) =
          ⟨[], some .unsupportedStreamUsageOption⟩ := by
      rw [streamChatCompletionEvents, if_pos failing, unsupported]
    have served : streamChatCompletionEvents env provider request (respond false) =
        streamLines env provider request .start response.lines := by
      rw [again]
      exact if_neg (by omega)
    simp only [streamGenerateEvents, refused, served]
    exact text

end Async

theorem syncLines_sends (sends : Sends env lines ds) (plain : TagFree ds.flatten) :
    (syncLines env .answer lines).events = ds := by
  induction sends with
  | ended => rfl
  | done last => simp only [syncLines, last]
  | quiet silent _ ih =>
    rcases silent with skipped | ⟨fields, read, fine, quiet⟩
    · simp only [syncLines, skipped]
      exact ih plain
    · cases chosen : chunkChoice fields with
      | none =>
        simp only [syncLines, read, fine, chosen, Option.bind_none]
        exact ih plain
      | some pair =>
        obtain ⟨choice, delta⟩ := pair
        have no_text : extractStreamText env choice delta = none := quiet choice delta chosen
        simp only [syncLines, read, fine, chosen, Option.bind_some, no_text]
        exact ih plain
  | piece carries some_text _ ih =>
    obtain ⟨fields, choice, delta, read, fine, chosen, content⟩ := carries
    obtain ⟨plain_head, plain_tail⟩ := plain.head
    simp only [syncLines, read, fine, chosen, Option.bind_some,
      extractStreamText_of_content content some_text,
      splitStreamContent_tagFree plain_head some_text, ih plain_tail]
    simp [pieceTexts, orNone, some_text]

theorem streamGenerateSync_sends {response : HttpResponse} {ds : List (List Char)}
    (fine : response.statusCode < 400) (sends : Sends env response.lines ds)
    (plain : TagFree ds.flatten) : (streamGenerateSync env response).events = ds := by
  have served : streamGenerateSync env response = syncLines env .answer response.lines :=
    if_neg (by omega)
  rw [served]
  exact syncLines_sends sends plain

theorem messageContent_string {message : Fields} {text : List Char}
    (content : message.lookup "content" = some (.string text)) :
    messageContent env message = .ok text := by
  by_cases empty : text = []
  · simp [messageContent, content, splitTextAndReasoning, orNone, empty]
  · simp [messageContent, content, splitTextAndReasoning, orNone, empty]

theorem generate_completes {response : HttpResponse} {text : List Char}
    (completes : Completes env response text) (plain : TagFree text) :
    (generate env provider response).map ChatGenerateResponse.content = .ok text := by
  obtain ⟨fine, fields, message, loaded, bare, no_error, found, content⟩ := completes
  have served : ¬ 400 ≤ response.statusCode := by omega
  have unwrapped : unwrapSuccessEnvelope (.object fields) "Chat Completions" = .ok (.object fields) := by
    simp only [unwrapSuccessEnvelope, bare]
  have answered : (completion env provider fields message text).content = text := by
    simp only [completion, extractTagged_tagFree plain, ite_self]
    rfl
  have made : generate env provider response = .ok (completion env provider fields message text) := by
    simp only [generate, if_neg served, loaded, unwrapped, no_error, found, bind, Except.bind,
      messageContent_string content]
    rfl
  rw [made]
  exact congrArg Except.ok answered

/-- A streamed answer is the text that the endpoint sent, and with it the text that the other two
paths give, exactly when no piece repeats the text before it. -/
theorem streamed_text_unchanged_iff {respond : Bool → HttpResponse} {response whole : HttpResponse}
    {ds : List (List Char)} (serves : Serves env provider request respond response)
    (sends : Sends env response.lines ds) (completes : Completes env whole ds.flatten)
    (plain : TagFree ds.flatten) :
    let streamed := deltaText (streamGenerateEvents env provider request respond).events
    (streamed = ds.flatten ∧ streamed = (streamGenerateSync env response).events.flatten ∧
      (generate env provider whole).map ChatGenerateResponse.content = .ok streamed) ↔
        ∀ before d after, ds = before ++ d :: after → ¬ Repeats before.flatten d := by
  intro streamed
  have sent : streamed = (emit streamTextSuffix [] ds).flatten :=
    streamGenerateEvents_serves env provider request serves sends plain
  have kept : streamed = ds.flatten ↔
      ∀ before d after, ds = before ++ d :: after → ¬ Repeats before.flatten d := by
    rw [sent, flatten_emit_eq_iff streamTextSuffix_suffix, unchanged_iff]
    refine forall₃_congr fun before d after => imp_congr_right fun split => ?_
    have some_text : d ≠ [] := sends.nonempty d (by rw [split]; simp)
    rw [List.nil_append, streamTextSuffix_eq_self_iff some_text]
  rw [← kept]
  constructor
  · rintro ⟨same, _⟩
    exact same
  · intro same
    refine ⟨same, ?_, ?_⟩
    · rw [streamGenerateSync_sends serves.1 sends plain, same]
    · rw [same]
      exact generate_completes completes plain

def deltaChunk (d : List Char) : List Char :=
  "\x7b\"choices\":[\x7b\"delta\":\x7b\"content\":\"".toList ++ d ++ "\"\x7d\x7d]\x7d".toList

def messageChunk (text : List Char) : List Char :=
  "\x7b\"choices\":[\x7b\"message\":\x7b\"content\":\"".toList ++ text ++ "\"\x7d\x7d]\x7d".toList

def choiceOf (key : String) (text : List Char) : Json :=
  .object [("choices", .array [.object [(key, .object [("content", .string text)])]])]

/-- Reads the chunks of the words below. -/
def wordEnvironment : StreamEnvironment where
  loads data :=
    ["hel", "lo", "wor", "ld", "hello", "world"].findSome? fun word =>
      if data = deltaChunk word.toList then some (choiceOf "delta" word.toList)
      else if data = messageChunk word.toList then some (choiceOf "message" word.toList)
      else none
  lower := id
  casefold := id

def plainProvider : OpenAICompatibleProvider := ⟨"custom", "auto", true⟩
def plainRequest : ChatGenerateRequest := ⟨"model", none⟩

def streamOf (first second : String) : HttpResponse where
  statusCode := 200
  text := []
  lines := ["data: ".toList ++ deltaChunk first.toList, [],
    "data: ".toList ++ deltaChunk second.toList, [], "data: [DONE]".toList]

def messageOf (word : String) : HttpResponse := ⟨200, messageChunk word.toList, []⟩

/-- Two pieces without a common letter at the cut. -/
theorem streamed_world :
    let streamed := deltaText (streamGenerateEvents wordEnvironment plainProvider plainRequest
      fun _ => streamOf "wor" "ld").events
    (streamed = ["wor".toList, "ld".toList].flatten ∧
      streamed = (streamGenerateSync wordEnvironment (streamOf "wor" "ld")).events.flatten ∧
      (generate wordEnvironment plainProvider (messageOf "world")).map
        ChatGenerateResponse.content = .ok streamed) ↔
      ∀ before d after, ["wor".toList, "ld".toList] = before ++ d :: after →
        ¬ Repeats before.flatten d :=
  streamed_text_unchanged_iff ⟨by decide, .inl rfl⟩
    (.piece ⟨_, _, _, rfl, rfl, rfl, rfl⟩ (by decide) (.quiet (.inl rfl)
      (.piece ⟨_, _, _, rfl, rfl, rfl, rfl⟩ (by decide) (.quiet (.inl rfl) (.done rfl)))))
    ⟨by decide, _, _, rfl, rfl, rfl, rfl, rfl⟩ (by decide +kernel)

/-- A letter on both sides of the cut is lost in one of the two streams. -/
theorem repeated_letter_lost :
    Sends wordEnvironment (streamOf "hel" "lo").lines ["hel".toList, "lo".toList] ∧
      TagFree "hello".toList ∧
      (streamGenerateSync wordEnvironment (streamOf "hel" "lo")).events.flatten =
        "hello".toList ∧
      deltaText (streamGenerateEvents wordEnvironment plainProvider plainRequest
        fun _ => streamOf "hel" "lo").events = "helo".toList := by
  refine ⟨?_, by decide +kernel, by decide +kernel, by decide +kernel⟩
  exact .piece ⟨_, _, _, rfl, rfl, rfl, rfl⟩ (by decide) (.quiet (.inl rfl)
    (.piece ⟨_, _, _, rfl, rfl, rfl, rfl⟩ (by decide) (.quiet (.inl rfl) (.done rfl))))

end AverQel.Providers
