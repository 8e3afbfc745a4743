/- digest: What a whole stream of a Responses result assembles to, item by item. -/
import AverQel.Providers.ResponsesStreams
import AverQel.Providers.StreamedText

namespace AverQel.Providers

open Foundation

variable {text : JsonText} {provider : OpenAICompatibleProvider} {observed : Bool}

section Runs

def CallMemory.pieces : CallMemory → List (Int × ItemEvent) → List CallPiece
  | _, [] => []
  | memory, event :: said => (memory.after event).2 ++ (memory.after event).1.pieces said

theorem callPieces_append (deltas more : List StreamEvent) :
    callPieces (deltas ++ more) = callPieces deltas ++ callPieces more := by
  simp [callPieces]

variable (provider observed)

theorem normalizeStream_of_isEvent {events : List Fields} {said : List (Int × ItemEvent)}
    (each : List.Forall₂ (IsEvent text) events said) (memory : CallMemory) :
    ∃ deltas, normalizeResponsesStream text provider observed memory events = .ok deltas ∧
      deltaText deltas = (said.map fun event => event.2.text).flatten ∧
      callPieces deltas = memory.pieces said := by
  induction each generalizing memory with
  | nil => exact ⟨[], rfl, rfl, rfl⟩
  | cons head _ ih =>
    obtain ⟨deltas, normalized, content, calls⟩ :=
      normalize_of_isEvent provider observed head memory
    obtain ⟨more, rest, contents, others⟩ := ih (memory.after _).1
    refine ⟨deltas ++ more, ?_, ?_, ?_⟩
    · rw [normalizeResponsesStream, normalized]
      change (normalizeResponsesStream text provider observed (memory.after _).1 _ >>= fun later =>
        pure (deltas ++ later)) = _
      rw [rest]
      rfl
    · rw [deltaText_append, content, contents, List.map_cons, List.flatten_cons]
    · rw [callPieces_append, calls, others, CallMemory.pieces]

end Runs

theorem ownEvents_of_own {index : Int} {saying : ItemEvent} (proper : saying ≠ .other)
    (said : List (Int × ItemEvent)) :
    ownEvents ((index, saying) :: said) index = saying :: ownEvents said index := by
  simp only [ownEvents, List.filter_cons]
  rw [if_pos (by simpa using proper), List.map_cons]

theorem ownEvents_of_apart {index : Int} {event : Int × ItemEvent}
    (apart : ¬(event.1 = index ∧ event.2 ≠ .other)) (said : List (Int × ItemEvent)) :
    ownEvents (event :: said) index = ownEvents said index := by
  simp only [ownEvents, List.filter_cons]
  rw [if_neg (by simpa using apart)]

structure CallMemory.SameAt (index : Int) (memory other : CallMemory) : Prop where
  callIds : memory.callIds index = other.callIds index
  callNames : memory.callNames index = other.callNames index
  accumulatedArguments : memory.accumulatedArguments index = other.accumulatedArguments index

theorem CallMemory.SameAt.refl (index : Int) (memory : CallMemory) : memory.SameAt index memory :=
  ⟨rfl, rfl, rfl⟩

theorem CallMemory.after_apart (memory : CallMemory) {index : Int} {event : Int × ItemEvent}
    (apart : ¬(event.1 = index ∧ event.2 ≠ .other)) :
    (memory.after event).1.SameAt index memory ∧
      (memory.after event).2.filter (fun piece => piece.index = index) = [] := by
  obtain ⟨k, saying⟩ := event
  have kept := CallMemory.SameAt.refl index memory
  cases saying with
  | callAdded =>
    have other : k ≠ index := fun same => apart ⟨same, by simp⟩
    refine ⟨⟨?_, ?_, ?_⟩, ?_⟩
    · simp [CallMemory.after, CallMemory.register, Function.update_of_ne other.symm]
    · simp [CallMemory.after, CallMemory.register, Function.update_of_ne other.symm]
    · simp [CallMemory.after, CallMemory.register, Function.update_of_ne other.symm]
    · simp [CallMemory.after, other]
  | argumentsDelta chars =>
    have other : k ≠ index := fun same => apart ⟨same, by simp⟩
    by_cases empty : chars = []
    · simpa only [CallMemory.after, if_pos empty, List.filter_nil, and_true] using kept
    · simp only [CallMemory.after, if_neg empty]
      refine ⟨⟨rfl, rfl, ?_⟩, ?_⟩
      · simp [CallMemory.withArguments, Function.update_of_ne other.symm]
      · simp [other]
  | argumentsDone chars =>
    have other : k ≠ index := fun same => apart ⟨same, by simp⟩
    by_cases empty : (if (memory.accumulatedArguments k).getD [] <+: chars then
        chars.drop ((memory.accumulatedArguments k).getD []).length else []) = []
    · simpa only [CallMemory.after, if_pos empty, List.filter_nil, and_true] using kept
    · simp only [CallMemory.after, if_neg empty]
      refine ⟨⟨rfl, rfl, ?_⟩, ?_⟩
      · simp [CallMemory.withArguments, Function.update_of_ne other.symm]
      · simp [other]
  | textDelta | refusalDelta | other => exact ⟨kept, rfl⟩

theorem CallMemory.after_own {memory other : CallMemory} {index : Int}
    (same : memory.SameAt index other) (saying : ItemEvent) :
    (memory.after (index, saying)).1.SameAt index (other.after (index, saying)).1 ∧
      (memory.after (index, saying)).2 = (other.after (index, saying)).2 ∧
      (other.after (index, saying)).2.filter (fun piece => piece.index = index) =
        (other.after (index, saying)).2 := by
  obtain ⟨callIds, callNames, arguments⟩ := same
  cases saying with
  | callAdded =>
    refine ⟨⟨?_, ?_, ?_⟩, rfl, ?_⟩
    · simp [CallMemory.after, CallMemory.register]
    · simp [CallMemory.after, CallMemory.register]
    · simp [CallMemory.after, CallMemory.register]
    · simp [CallMemory.after]
  | argumentsDelta chars =>
    by_cases empty : chars = []
    · simp only [CallMemory.after, if_pos empty]
      exact ⟨⟨callIds, callNames, arguments⟩, trivial, rfl⟩
    · simp only [CallMemory.after, if_neg empty]
      refine ⟨⟨callIds, callNames, ?_⟩, ?_, ?_⟩
      · simp [CallMemory.withArguments, arguments]
      · rw [callIds, callNames]
      · simp
  | argumentsDone chars =>
    by_cases empty : (if (other.accumulatedArguments index).getD [] <+: chars then
        chars.drop ((other.accumulatedArguments index).getD []).length else []) = []
    · simp only [CallMemory.after, arguments, if_pos empty]
      exact ⟨⟨callIds, callNames, arguments⟩, trivial, rfl⟩
    · simp only [CallMemory.after, arguments, if_neg empty]
      refine ⟨⟨callIds, callNames, ?_⟩, ?_, ?_⟩
      · simp [CallMemory.withArguments]
      · rw [callIds, callNames]
      · simp
  | textDelta | refusalDelta | other => exact ⟨⟨callIds, callNames, arguments⟩, rfl, rfl⟩

theorem CallMemory.filter_pieces (said : List (Int × ItemEvent)) (index : Int)
    {memory other : CallMemory} (same : memory.SameAt index other) :
    (memory.pieces said).filter (fun piece => piece.index = index) =
      other.pieces ((ownEvents said index).map fun saying => (index, saying)) := by
  induction said generalizing memory other with
  | nil => rfl
  | cons event said ih =>
    rw [CallMemory.pieces, List.filter_append]
    by_cases own : event.1 = index ∧ event.2 ≠ .other
    · obtain ⟨k, saying⟩ := event
      obtain ⟨rfl, proper⟩ := own
      obtain ⟨next, emitted, all⟩ := CallMemory.after_own same saying
      rw [ownEvents_of_own proper, List.map_cons, CallMemory.pieces, emitted, all, ih next]
    · obtain ⟨kept, silent⟩ := memory.after_apart own
      rw [ownEvents_of_apart own, silent, List.nil_append]
      refine ih ⟨?_, ?_, ?_⟩
      · exact kept.callIds.trans same.callIds
      · exact kept.callNames.trans same.callNames
      · exact kept.accumulatedArguments.trans same.accumulatedArguments

def OutputItem.streamedCall : OutputItem → Option Json
  | .message _ => none
  | .functionCall callId name arguments => some (Providers.functionCall callId name arguments)

theorem CallMemory.pieces_of_arguments {index : Int} {callId name arguments : List Char}
    {last : List ItemEvent} (chunks : List (List Char)) (memory : CallMemory)
    {before : List Char} (called : memory.callIds index = some callId)
    (named : memory.callNames index = some name)
    (begun : memory.accumulatedArguments index = some before)
    (complete : last = [] ∧ before ++ chunks.flatten = arguments ∨
      last = [.argumentsDone arguments] ∧ before ++ chunks.flatten <+: arguments) :
    (∀ piece ∈ memory.pieces
        ((chunks.map ItemEvent.argumentsDelta ++ last).map fun saying => (index, saying)),
      piece.callId = some callId ∧ piece.name = some name) ∧
    before ++ ((memory.pieces ((chunks.map ItemEvent.argumentsDelta ++ last).map
      fun saying => (index, saying))).map CallPiece.arguments).flatten = arguments := by
  induction chunks generalizing memory before with
  | nil =>
    rw [List.flatten_nil, List.append_nil] at complete
    rcases complete with ⟨rfl, rfl⟩ | ⟨rfl, known⟩
    · exact ⟨by simp [CallMemory.pieces], by simp [CallMemory.pieces]⟩
    · obtain ⟨suffix, rfl⟩ := known
      by_cases empty : suffix = []
      · simp [CallMemory.pieces, CallMemory.after, begun, empty]
      · simp [CallMemory.pieces, CallMemory.after, begun, empty, called, named]
  | cons chunk chunks ih =>
    rw [List.flatten_cons, ← List.append_assoc] at complete
    by_cases empty : chunk = []
    · rw [empty, List.append_nil] at complete
      simpa [CallMemory.pieces, CallMemory.after, empty] using ih memory called named begun complete
    · have known : ((memory.withArguments index (before ++ chunk)).accumulatedArguments index) =
          some (before ++ chunk) := by
        simp [CallMemory.withArguments]
      obtain ⟨signed, whole⟩ := ih (memory.withArguments index (before ++ chunk))
        called named known complete
      simp only [List.map_cons, List.cons_append, CallMemory.pieces, CallMemory.after,
        if_neg empty, begun, Option.getD_some, List.flatten_cons, called, named,
        List.nil_append, List.forall_mem_cons, true_and]
      refine ⟨signed, ?_⟩
      rw [← List.append_assoc]
      exact whole

theorem texts_of_describesParts {parts : List MessagePart} {events : List ItemEvent}
    (describes : DescribesParts parts events) (index : Int) (memory : CallMemory) :
    memory.pieces (events.map fun saying => (index, saying)) = [] ∧
      (events.map ItemEvent.text).flatten = (parts.map MessagePart.text).flatten := by
  induction parts generalizing events with
  | nil =>
    cases describes
    exact ⟨rfl, rfl⟩
  | cons part parts ih =>
    obtain ⟨chunks, rest, rfl, whole, others⟩ := describes
    obtain ⟨silent, content⟩ := ih others
    rw [List.map_cons, List.flatten_cons, ← whole]
    clear whole
    induction chunks with
    | nil => exact ⟨silent, content⟩
    | cons chunk chunks ih =>
      cases part with
      | outputText | refusal =>
        refine ⟨ih.1, ?_⟩
        rw [List.map_cons, List.cons_append, List.map_cons, List.flatten_cons, ih.2,
          List.flatten_cons, List.append_assoc]
        rfl

theorem assembledAt_of_signed {pieces : List CallPiece} {index : Int} {first : CallPiece}
    {rest : List CallPiece} {callId name : List Char}
    (mine : pieces.filter (fun piece => piece.index = index) = first :: rest)
    (signed : ∀ piece ∈ first :: rest, piece.callId = some callId ∧ piece.name = some name) :
    assembledAt pieces index =
      some (functionCall callId name ((first :: rest).map CallPiece.arguments).flatten) := by
  have ids : ∀ chosen : List CallPiece, (∀ piece ∈ chosen, piece.callId = some callId) →
      chosen.filterMap CallPiece.callId = List.replicate chosen.length callId := by
    intro chosen all
    induction chosen with
    | nil => rfl
    | cons piece chosen ih =>
      obtain ⟨head, tail⟩ := List.forall_mem_cons.mp all
      rw [List.filterMap_cons, head, ih tail]
      rfl
  have names : ∀ chosen : List CallPiece, (∀ piece ∈ chosen, piece.name = some name) →
      chosen.filterMap CallPiece.name = List.replicate chosen.length name := by
    intro chosen all
    induction chosen with
    | nil => rfl
    | cons piece chosen ih =>
      obtain ⟨head, tail⟩ := List.forall_mem_cons.mp all
      rw [List.filterMap_cons, head, ih tail]
      rfl
  simp only [assembledAt, mine]
  rw [ids _ fun piece member => (signed piece member).1,
    names _ fun piece member => (signed piece member).2]
  simp [List.getLast?_replicate]

theorem assembledAt_of_silent {pieces : List CallPiece} {index : Int}
    (silent : pieces.filter (fun piece => piece.index = index) = []) :
    assembledAt pieces index = none := by
  simp [assembledAt, silent]

theorem assembledAt_of_describesItem {said : List (Int × ItemEvent)} {index : Int}
    {item : OutputItem} (describes : DescribesItem item (ownEvents said index))
    (memory : CallMemory) :
    assembledAt (memory.pieces said) index = item.streamedCall := by
  have own := CallMemory.filter_pieces said index (CallMemory.SameAt.refl index memory)
  cases item with
  | message =>
    rw [(texts_of_describesParts describes index memory).1] at own
    exact assembledAt_of_silent own
  | functionCall callId name =>
    obtain ⟨initial, chunks, last, events, complete⟩ := describes
    have called : (memory.register index (some callId) (some name) initial).callIds index =
        some callId := by
      simp [CallMemory.register]
    have named : (memory.register index (some callId) (some name) initial).callNames index =
        some name := by
      simp [CallMemory.register]
    have begun : (memory.register index (some callId) (some name) initial).accumulatedArguments
        index = some initial := by
      simp [CallMemory.register]
    obtain ⟨signed, whole⟩ := CallMemory.pieces_of_arguments chunks
      (memory.register index (some callId) (some name) initial) called named begun complete
    rw [events, List.cons_append, List.map_cons, CallMemory.pieces] at own
    rw [assembledAt_of_signed own (List.forall_mem_cons.mpr ⟨⟨rfl, rfl⟩, signed⟩)]
    simp only [CallMemory.after, List.map_cons, List.flatten_cons, OutputItem.streamedCall]
    exact congrArg (fun chars => some (functionCall callId name chars)) whole

theorem map_range_eq {α β : Type} {f : Nat → β} {g : α → β} {rows : List α}
    (same : ∀ k a, rows[k]? = some a → f k = g a) : (List.range rows.length).map f = rows.map g := by
  apply List.ext_getElem
  · simp
  · intro k inside _
    have bound : k < rows.length := by simpa using inside
    simp only [List.getElem_map, List.getElem_range]
    exact same k _ (List.getElem?_eq_getElem bound)

variable {said : List (Int × ItemEvent)}

theorem length_of_known {n : Nat}
    (known : ∀ event ∈ said, event.2 ≠ .other → ∃ k < n, event.1 = (k : Int)) :
    (said.map fun event => event.2.text).flatten.length =
      total (fun k : Nat => ((ownEvents said k).map ItemEvent.text).flatten.length)
        (List.range n) := by
  induction said with
  | nil => exact (total_zero _).symm
  | cons event said ih =>
    obtain ⟨head, tail⟩ := List.forall_mem_cons.mp known
    rw [List.map_cons, List.flatten_cons, List.length_append, ih tail]
    obtain ⟨index, saying⟩ := event
    by_cases proper : saying = .other
    · have same : ∀ k ∈ List.range n,
          ((ownEvents ((index, saying) :: said) k).map ItemEvent.text).flatten.length =
            ((ownEvents said k).map ItemEvent.text).flatten.length := by
        intro k _
        rw [ownEvents_of_apart fun own => own.2 proper]
      rw [total_congr same, proper]
      exact Nat.zero_add _
    · obtain ⟨j, inside, position⟩ := head proper
      change index = (j : Int) at position
      subst position
      have split : ∀ k ∈ List.range n,
          ((ownEvents (((j : Int), saying) :: said) k).map ItemEvent.text).flatten.length =
            (if k = j then saying.text.length else 0) +
              ((ownEvents said k).map ItemEvent.text).flatten.length := by
        intro k _
        by_cases here : k = j
        · rw [here, ownEvents_of_own proper, List.map_cons, List.flatten_cons, List.length_append,
            if_pos rfl]
        · have apart : (j : Int) ≠ k := fun same => here (Int.ofNat_inj.mp same).symm
          rw [ownEvents_of_apart fun own => apart own.1, if_neg here, Nat.zero_add]
      rw [total_congr split, total_add,
        total_ite_eq List.nodup_range (List.mem_range.mpr inside)]

theorem length_texts_of_describes {items : List OutputItem} (describes : Describes items said) :
    (said.map fun event => event.2.text).flatten.length =
      total (fun item => (item.collect MessagePart.text).length) items := by
  have each : ∀ (k : Nat) (item : OutputItem), items[k]? = some item →
      ((ownEvents said (k : Int)).map ItemEvent.text).flatten.length =
        (item.collect MessagePart.text).length := by
    intro k item found
    have described := describes.each k item found
    cases item with
    | message => rw [(texts_of_describesParts described k .empty).2, OutputItem.collect]
    | functionCall =>
      obtain ⟨initial, chunks, last, events, complete⟩ := described
      have silent : ∀ chunks : List (List Char),
          ((chunks.map ItemEvent.argumentsDelta).map ItemEvent.text).flatten = [] := by
        intro chunks
        simp [ItemEvent.text, Function.comp_def]
      rw [events, List.map_append, List.map_cons, List.flatten_append, List.flatten_cons, silent]
      rcases complete with ⟨rfl, _⟩ | ⟨rfl, _⟩ <;> rfl
  have counted := congrArg (total id) (map_range_eq each)
  rw [total_map, total_map] at counted
  rw [length_of_known describes.known]
  exact counted

theorem MessagePart.length_text (parts : List MessagePart) :
    (parts.map MessagePart.text).flatten.length =
      (parts.map MessagePart.outputText?).flatten.length +
        (parts.map MessagePart.refusal?).flatten.length := by
  induction parts with
  | nil => rfl
  | cons part parts ih =>
    simp only [List.map_cons, List.flatten_cons, List.length_append, ih]
    cases part with
    | outputText | refusal =>
      simp only [MessagePart.text, MessagePart.outputText?, MessagePart.refusal?, List.length_nil]
      omega

theorem OutputItem.length_collect (item : OutputItem) :
    (item.collect MessagePart.text).length = (item.collect MessagePart.outputText?).length +
      (item.collect MessagePart.refusal?).length := by
  cases item with
  | message parts => exact MessagePart.length_text parts
  | functionCall => rfl

variable {items : List OutputItem}

theorem collect_eq_of_refusals
    (none_refused : ∀ parts, .message parts ∈ items → ∀ chars, .refusal chars ∈ parts → chars = []) :
    items.map (OutputItem.collect MessagePart.text) =
      items.map (OutputItem.collect MessagePart.outputText?) := by
  apply List.map_congr_left
  intro item member
  cases item with
  | functionCall => rfl
  | message parts =>
    have same : parts.map MessagePart.text = parts.map MessagePart.outputText? := by
      apply List.map_congr_left
      intro part here
      cases part with
      | outputText => rfl
      | refusal chars => exact none_refused parts member chars here
    rw [OutputItem.collect, OutputItem.collect, same]

theorem refusals_of_length
    (same : total (fun item => (item.collect MessagePart.text).length) items =
      total (fun item => (item.collect MessagePart.outputText?).length) items) :
    ∀ parts, .message parts ∈ items → ∀ chars, .refusal chars ∈ parts → chars = [] := by
  have split := total_congr fun item (_ : item ∈ items) => item.length_collect
  rw [total_add] at split
  have nothing : total (fun item => (item.collect MessagePart.refusal?).length) items = 0 := by
    omega
  intro parts member chars here
  have empty := List.length_eq_zero_iff.mp (total_eq_zero_iff.mp nothing _ member)
  rw [OutputItem.collect, List.flatten_eq_nil_iff] at empty
  exact empty chars (List.mem_map.mpr ⟨.refusal chars, here, rfl⟩)

theorem calls_eq_iff (items : List OutputItem) :
    items.filterMap OutputItem.streamedCall = items.filterMap OutputItem.plainCall ↔
      ∀ callId name, .functionCall callId name [] ∉ items := by
  induction items with
  | nil => simp
  | cons item items ih =>
    cases item with
    | message =>
      rw [List.filterMap_cons_none (f := OutputItem.streamedCall) rfl,
        List.filterMap_cons_none (f := OutputItem.plainCall) rfl, ih]
      simp
    | functionCall callId name arguments =>
      have written : functionCall callId name arguments = functionCall callId name
          (if arguments = [] then "{}".toList else arguments) ↔ arguments ≠ [] := by
        by_cases empty : arguments = []
        · simp [functionCall, empty]
        · simp [empty]
      rw [List.filterMap_cons_some (f := OutputItem.streamedCall) rfl,
        List.filterMap_cons_some (f := OutputItem.plainCall) rfl, List.cons.injEq, ih, written]
      constructor
      · rintro ⟨whole, rest⟩ called named member
        rcases List.mem_cons.mp member with same | later
        · cases same
          exact whole rfl
        · exact rest called named later
      · intro none_empty
        refine ⟨?_, fun called named later => none_empty called named (List.mem_cons_of_mem _ later)⟩
        rintro rfl
        exact none_empty callId name List.mem_cons_self

theorem assembled_of_describes {said : List (Int × ItemEvent)} (describes : Describes items said)
    (memory : CallMemory) :
    ((List.range items.length).filterMap fun k : Nat => assembledAt (memory.pieces said) k) =
        items.filterMap OutputItem.streamedCall ∧
      ∀ index : Int, (∀ k < items.length, index ≠ (k : Int)) →
        assembledAt (memory.pieces said) index = none := by
  constructor
  · have named : ((List.range items.length).map fun k : Nat => assembledAt (memory.pieces said) k) =
        items.map OutputItem.streamedCall := map_range_eq
      fun k item found => assembledAt_of_describesItem (describes.each k item found) memory
    have calls := congrArg (List.filterMap id) named
    rwa [List.filterMap_map, List.filterMap_map] at calls
  · intro index apart
    have own := CallMemory.filter_pieces said index (CallMemory.SameAt.refl index memory)
    have silent : ownEvents said index = [] := by
      simp only [ownEvents, List.map_eq_nil_iff, List.filter_eq_nil_iff, decide_eq_true_eq]
      rintro event member ⟨rfl, proper⟩
      obtain ⟨k, inside, position⟩ := describes.known event member proper
      exact apart k inside position
    rw [silent] at own
    exact assembledAt_of_silent own

/-- A stream and a result that say the same are read the same way exactly when no refusal has a
text, the texts arrive in the order of the output, and no call has empty arguments. -/
theorem agrees_iff {payload : Fields} {items : List OutputItem} {events : List Fields}
    {said : List (Int × ItemEvent)} (result : IsResult text payload items)
    (each : List.Forall₂ (IsEvent text) events said) (describes : Describes items said) :
    Agrees text provider observed payload events items.length ↔ Agreeable items said := by
  obtain ⟨response, parsed, content, called⟩ := parse_of_isResult provider result
  obtain ⟨deltas, normalized, texts, pieces⟩ :=
    normalizeStream_of_isEvent provider observed each .empty
  obtain ⟨assembled, nothing⟩ := assembled_of_describes describes .empty
  constructor
  · rintro ⟨response', deltas', parsed', normalized', same, calls, _⟩
    cases parsed.symm.trans parsed'
    cases normalized.symm.trans normalized'
    rw [pieces, assembled, called] at calls
    rw [texts, content] at same
    have lengths := congrArg List.length same
    rw [length_texts_of_describes describes, ← List.flatMap_def, length_flatMap_eq_total] at lengths
    have refusals := refusals_of_length lengths
    exact ⟨refusals, by rw [same, collect_eq_of_refusals refusals], (calls_eq_iff items).mp calls⟩
  · intro agreeable
    refine ⟨response, deltas, parsed, normalized, ?_, ?_, ?_⟩
    · rw [texts, agreeable.order, content, collect_eq_of_refusals agreeable.refusals]
    · rw [pieces, assembled, called]
      exact (calls_eq_iff items).mpr agreeable.arguments
    · rw [pieces]
      exact nothing

def describedText : JsonText := ⟨fun _ => [], fun literal => literal = "0"⟩

def describedItems : List OutputItem :=
  [.message [.outputText "Two notes.".toList],
    .functionCall "call_1".toList "count".toList "[2]".toList]

def describedPayload : Fields :=
  [("output", .array
    [.object [("type", .string "message".toList), ("content", .array
      [.object [("type", .string "output_text".toList), ("text", .string "Two notes.".toList)]])],
      .object [("type", .string "function_call".toList), ("call_id", .string "call_1".toList),
        ("name", .string "count".toList), ("arguments", .string "[2]".toList)]])]

def describedSaid : List (Int × ItemEvent) :=
  [(0, .textDelta "Two ".toList), (1, .callAdded "call_1".toList "count".toList []),
    (0, .textDelta "notes.".toList), (1, .argumentsDelta "[2".toList),
    (1, .argumentsDone "[2]".toList)]

def describedEvents : List Fields :=
  [[("type", .string "response.output_text.delta".toList), ("delta", .string "Two ".toList)],
    [("type", .string "response.output_item.added".toList), ("output_index", .number "1"),
      ("item", .object [("type", .string "function_call".toList),
        ("call_id", .string "call_1".toList), ("name", .string "count".toList)])],
    [("type", .string "response.output_text.delta".toList), ("delta", .string "notes.".toList)],
    [("type", .string "response.function_call_arguments.delta".toList),
      ("output_index", .number "1"), ("delta", .string "[2".toList)],
    [("type", .string "response.function_call_arguments.done".toList),
      ("output_index", .number "1"), ("arguments", .string "[2]".toList)]]

theorem described_isResult : IsResult describedText describedPayload describedItems where
  error := rfl
  status := by decide +kernel
  output := ⟨_, rfl, .cons ⟨rfl, _, rfl, .cons ⟨rfl, rfl⟩ .nil⟩ (.cons ⟨rfl, rfl, rfl, rfl⟩ .nil)⟩
  outputText := .inl rfl

theorem described_isEvent : List.Forall₂ (IsEvent describedText) describedEvents describedSaid :=
  .cons ⟨rfl, rfl, rfl⟩ (.cons ⟨rfl, rfl, rfl, _, rfl, rfl, rfl, rfl, rfl⟩
    (.cons ⟨rfl, rfl, rfl⟩ (.cons ⟨rfl, rfl, rfl, rfl⟩ (.cons ⟨rfl, rfl, rfl, rfl⟩ .nil))))

theorem described_describes : Describes describedItems describedSaid where
  known := by decide
  each := by
    intro k item found
    match k with
    | 0 =>
      cases found
      exact ⟨["Two ".toList, "notes.".toList], [], rfl, rfl, rfl⟩
    | 1 =>
      cases found
      exact ⟨[], ["[2".toList], _, rfl, .inr ⟨rfl, ⟨"]".toList, rfl⟩⟩⟩
    | k + 2 => cases found

theorem agrees_iff_described :
    Agrees describedText plainProvider true describedPayload describedEvents 2 := by
  refine (agrees_iff described_isResult described_isEvent described_describes).mpr ⟨?_, ?_, ?_⟩
  · intro parts member chars refused
    simp only [describedItems, List.mem_cons, List.not_mem_nil, or_false, reduceCtorEq,
      OutputItem.message.injEq] at member
    subst member
    simp at refused
  · rfl
  · simp [describedItems]

def refusedItems : List OutputItem := [.message [.refusal "I cannot.".toList]]

def refusedPayload : Fields :=
  [("output", .array [.object [("type", .string "message".toList), ("content", .array
    [.object [("type", .string "refusal".toList), ("refusal", .string "I cannot.".toList)]])]])]

def refusedSaid : List (Int × ItemEvent) := [(0, .refusalDelta "I cannot.".toList)]

def refusedEvents : List Fields :=
  [[("type", .string "response.refusal.delta".toList), ("delta", .string "I cannot.".toList)]]

theorem refused_isResult : IsResult describedText refusedPayload refusedItems where
  error := rfl
  status := by decide +kernel
  output := ⟨_, rfl, .cons ⟨rfl, _, rfl, .cons ⟨rfl, rfl, rfl⟩ .nil⟩ .nil⟩
  outputText := .inl rfl

theorem refused_isEvent : List.Forall₂ (IsEvent describedText) refusedEvents refusedSaid :=
  .cons ⟨rfl, rfl, rfl⟩ .nil

theorem refused_describes : Describes refusedItems refusedSaid where
  known := by decide
  each := by
    intro k item found
    match k with
    | 0 =>
      cases found
      exact ⟨["I cannot.".toList], [], rfl, rfl, rfl⟩
    | k + 1 => cases found

/-- A refusal is streamed, and is missing from the whole result. -/
theorem not_agrees_refused :
    IsResult describedText refusedPayload refusedItems ∧
      List.Forall₂ (IsEvent describedText) refusedEvents refusedSaid ∧
      Describes refusedItems refusedSaid ∧
      ¬Agrees describedText plainProvider true refusedPayload refusedEvents 1 := by
  refine ⟨refused_isResult, refused_isEvent, refused_describes, ?_⟩
  rintro ⟨response, deltas, parsed, normalized, same, _⟩
  obtain ⟨whole, parsed', content, _⟩ := parse_of_isResult plainProvider refused_isResult
  obtain ⟨streamed, normalized', texts, _⟩ :=
    normalizeStream_of_isEvent plainProvider true refused_isEvent .empty
  cases parsed.symm.trans parsed'
  cases normalized.symm.trans normalized'
  rw [texts, content] at same
  revert same
  decide +kernel

end AverQel.Providers
