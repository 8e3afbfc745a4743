/- digest: The parser of reasoning tags, fed piece by piece: what it keeps of a text that is cut. -/
import AverQel.Foundation.Splitting
import AverQel.Providers.StreamParsing

namespace AverQel.Providers

open Foundation Splitting

/-- What a character of the text belongs to; the last one of a marker is told apart. -/
inductive Part where
  | answer
  | reasoning
  | marker (last : Bool)
  deriving DecidableEq

def partOf (inside : Bool) : Part := if inside then .reasoning else .answer

def markerLabels (text : List Char) : List (Part × Char) :=
  text.dropLast.map (Prod.mk (.marker false)) ++ text.getLast?.toList.map (Prod.mk (.marker true))

namespace ReasoningTags

variable (tags : ReasoningTags)

def awaited (inside : Bool) : List Char := if inside then tags.closing else tags.opening

def newline (after : List Char) : List Char :=
  if tags.dropsNewline ∧ after.head? = some '\n' then ['\n'] else []

/-- The reading of a text: the parts between the tags, which alternate. -/
inductive Reads : Bool → List Char → List (Part × Char) → Bool → Prop
  | done {inside : Bool} {text : List Char} (free : cut (tags.awaited inside) text = none) :
      Reads inside text (text.map (Prod.mk (partOf inside))) inside
  | found {inside last : Bool} {text before after : List Char} {labels : List (Part × Char)}
      (parts : cut (tags.awaited inside) text = some (before, after))
      (later : Reads (!inside) (tags.skipNewline after) labels last) :
      Reads inside text (before.map (Prod.mk (partOf inside)) ++
        (markerLabels (tags.awaited inside ++ tags.newline after) ++ labels)) last

variable {tags} {inside last : Bool}

theorem awaited_ne_nil : tags.awaited inside ≠ [] := by
  cases inside with
  | false => exact tags.opening_ne
  | true => exact tags.closing_ne

theorem newline_append_skipNewline (after : List Char) :
    tags.newline after ++ tags.skipNewline after = after := by
  unfold newline skipNewline
  cases after with
  | nil => simp
  | cons c after => split <;> split <;> simp_all

theorem newline_append {tail rest : List Char}
    (fits : (tags.newline (tail ++ rest)).length ≤ tail.length) :
    tags.newline tail = tags.newline (tail ++ rest) ∧
      tags.skipNewline (tail ++ rest) = tags.skipNewline tail ++ rest := by
  have same : tags.newline tail = tags.newline (tail ++ rest) := by
    cases tail with
    | cons => rfl
    | nil =>
      rw [List.length_eq_zero_iff.mp (Nat.le_zero.mp fits)]
      simp [newline]
  have whole : tags.newline (tail ++ rest) ++ tags.skipNewline (tail ++ rest) =
      tags.newline (tail ++ rest) ++ (tags.skipNewline tail ++ rest) := by
    rw [newline_append_skipNewline, ← same, ← List.append_assoc, newline_append_skipNewline]
  exact ⟨same, List.append_cancel_left whole⟩

theorem exists_reads (tags : ReasoningTags) (inside : Bool) (text : List Char) :
    ∃ labels last, tags.Reads inside text labels last := by
  induction size : text.length using Nat.strong_induction_on generalizing text inside with
  | h n ih =>
    cases found : cut (tags.awaited inside) text with
    | none => exact ⟨_, _, .done found⟩
    | some parts =>
      have cut_ := length_of_cut found
      have tag : 0 < (tags.awaited inside).length := List.length_pos_iff.mpr awaited_ne_nil
      have shorter := tags.skipNewline_length_le parts.2
      obtain ⟨labels, last, later⟩ := ih _ (by omega) (!inside) (tags.skipNewline parts.2) rfl
      exact ⟨_, _, .found found later⟩

theorem length_markerLabels (text : List Char) : (markerLabels text).length = text.length := by
  rcases List.eq_nil_or_concat' text with rfl | ⟨start, c, rfl⟩
  · rfl
  · simp [markerLabels]

theorem map_snd_markerLabels (text : List Char) : (markerLabels text).map Prod.snd = text := by
  rcases List.eq_nil_or_concat' text with rfl | ⟨start, c, rfl⟩
  · rfl
  · simp [markerLabels, Function.comp_def]

theorem getLast?_take_markerLabels {text : List Char} {n : Nat} (some_ : 0 < n)
    (within : n < text.length) :
    ∃ c, ((markerLabels text).take n).getLast? = some (.marker false, c) := by
  obtain ⟨start, c, rfl⟩ := (List.eq_nil_or_concat' text).resolve_left
    (List.length_pos_iff.mp (by omega))
  rw [List.length_append, List.length_singleton] at within
  have before : (markerLabels (start ++ [c])).take n =
      (start.take n).map (Prod.mk (.marker false)) := by
    have fits : n ≤ (start.map (Prod.mk (Part.marker false))).length := by
      rw [List.length_map]
      omega
    simp [markerLabels, List.take_append_of_le_length fits, List.map_take]
  have filled : start.take n ≠ [] := by
    refine List.length_pos_iff.mp ?_
    rw [List.length_take]
    omega
  refine ⟨(start.take n).getLast filled, ?_⟩
  rw [before, List.getLast?_map, List.getLast?_eq_some_getLast filled]
  rfl

variable {labels : List (Part × Char)}

theorem Reads.map_snd {text : List Char} (reads : tags.Reads inside text labels last) :
    labels.map Prod.snd = text := by
  induction reads with
  | done => simp [Function.comp_def]
  | found parts _ ih =>
    rw [List.map_append, List.map_append, map_snd_markerLabels, ih, List.append_assoc,
      newline_append_skipNewline, eq_of_cut parts]
    simp [Function.comp_def]

/-- The boundary behind the first `n` characters is not inside of a marker. -/
def Uncut (labels : List (Part × Char)) (n : Nat) : Prop :=
  ∀ c, (labels.take n).getLast? ≠ some (.marker false, c)

theorem Reads.divide {text rest : List Char}
    (reads : tags.Reads inside (text ++ rest) labels last) (uncut : Uncut labels text.length) :
    ∃ first later mid, labels = first ++ later ∧ first.length = text.length ∧
      tags.Reads inside text first mid ∧ tags.Reads mid rest later last := by
  generalize whole : text ++ rest = content at reads
  induction reads generalizing text with
  | @done inside content free =>
    subst whole
    have absent := (cut_eq_none_iff awaited_ne_nil).mp free
    refine ⟨_, _, inside, List.map_append, List.length_map _, .done ?_, .done ?_⟩
    · exact (cut_eq_none_iff awaited_ne_nil).mpr fun within =>
        absent (within.trans (List.prefix_append _ _).isInfix)
    · exact (cut_eq_none_iff awaited_ne_nil).mpr fun within =>
        absent (within.trans (List.suffix_append _ _).isInfix)
  | @found inside last content before after labels parts later ih =>
    subst whole
    obtain ⟨shape, first_⟩ := (cut_eq_some_iff awaited_ne_nil).mp parts
    -- The boundary stands in the text before the marker, in the marker or behind it.
    rcases Nat.lt_or_ge before.length text.length with behind | early
    · rcases Nat.lt_or_ge text.length
        (before.length + (tags.awaited inside ++ tags.newline after).length) with inner | late
      · obtain ⟨c, cutting⟩ : ∃ c, ((markerLabels (tags.awaited inside ++ tags.newline after)).take
            (text.length - before.length)).getLast? = some (.marker false, c) :=
          getLast?_take_markerLabels (by omega) (by omega)
        refine absurd ?_ (uncut c)
        rw [List.take_append, List.length_map, List.getLast?_append,
          List.take_append_of_le_length (by rw [length_markerLabels]; omega), cutting]
        rfl
      · rw [List.length_append] at late
        have start : before ++ tags.awaited inside <+: text := by
          refine List.prefix_of_prefix_length_le ?_ (List.prefix_append text rest) ?_
          · rw [shape, ← List.append_assoc]
            exact List.prefix_append _ _
          · rw [List.length_append]
            omega
        obtain ⟨tail, rfl⟩ := start
        rw [List.append_assoc, List.append_assoc, List.append_cancel_left_eq,
          List.append_cancel_left_eq] at shape
        subst shape
        simp only [List.length_append] at late
        have fits : (tags.newline (tail ++ rest)).length ≤ tail.length := by omega
        obtain ⟨same, skips⟩ := newline_append fits
        have size : (tags.newline tail ++ tags.skipNewline tail).length = tail.length :=
          congrArg List.length (newline_append_skipNewline tail)
        rw [List.length_append] at size
        have aligned : (before ++ tags.awaited inside ++ tail).length =
            (before.map (Prod.mk (partOf inside)) ++
              markerLabels (tags.awaited inside ++ tags.newline (tail ++ rest))).length +
                (tags.skipNewline tail).length := by
          simp only [List.length_append, List.length_map, length_markerLabels, ← same]
          omega
        have next : Uncut labels (tags.skipNewline tail).length := by
          intro c cutting
          refine uncut c ?_
          rw [aligned, ← List.append_assoc, List.take_append, List.getLast?_append,
            Nat.add_sub_cancel_left, cutting]
          rfl
        obtain ⟨first, later_, mid, split_, long, readsFirst, readsLater⟩ := ih next skips.symm
        refine ⟨_, later_, mid, ?_, ?_, .found ((cut_eq_some_iff awaited_ne_nil).mpr
          ⟨List.append_assoc _ _ _, first_⟩) readsFirst, readsLater⟩
        · rw [split_, same, List.append_assoc, List.append_assoc]
        · rw [aligned, ← List.append_assoc, List.length_append, long, same]
    · have start : text <+: before := by
        refine List.prefix_of_prefix_length_le (List.prefix_append text rest) ?_ early
        rw [shape]
        exact List.prefix_append _ _
      obtain ⟨tail, rfl⟩ := start
      rw [List.append_assoc, List.append_cancel_left_eq] at shape
      refine ⟨text.map (Prod.mk (partOf inside)), _, inside, ?_, List.length_map _, .done ?_,
        .found ((cut_eq_some_iff awaited_ne_nil).mpr ⟨shape, ?_⟩) later⟩
      · rw [List.map_append, List.append_assoc]
      · refine (cut_eq_none_iff awaited_ne_nil).mpr fun within => first_ ?_
        rw [List.append_assoc]
        exact within.trans (List.prefix_append _ _).isInfix
      · refine fun within => first_ ?_
        rw [List.append_assoc]
        exact within.trans (List.suffix_append _ _).isInfix

/-- The reasoning that is told, except for blanks at the end of a block. -/
inductive Shown : List (Part × Char) → List Char → Prop
  | nil : Shown [] []
  | kept {c : Char} {labels : List (Part × Char)} {text : List Char} (rest : Shown labels text) :
      Shown ((.reasoning, c) :: labels) (c :: text)
  | other {x : Part × Char} {labels : List (Part × Char)} {text : List Char}
      (outside : x.1 ≠ .reasoning) (rest : Shown labels text) : Shown (x :: labels) text
  | trimmed {blank text : List Char} {x : Bool × Char} {labels : List (Part × Char)}
      (blanks : ∀ b ∈ blank, Text.isSpace b = true)
      (rest : Shown ((.marker x.1, x.2) :: labels) text) :
      Shown (blank.map (Prod.mk .reasoning) ++ (.marker x.1, x.2) :: labels) text

theorem Shown.append {labels more : List (Part × Char)} {text told : List Char}
    (shown : Shown labels text) (later : Shown more told) : Shown (labels ++ more) (text ++ told) := by
  induction shown with
  | nil => exact later
  | kept _ ih => exact .kept ih
  | other outside _ ih => exact .other outside ih
  | trimmed blanks _ ih =>
    rw [List.append_assoc]
    exact .trimmed blanks ih

theorem shown_reasoning (text : List Char) : Shown (text.map (Prod.mk .reasoning)) text := by
  induction text with
  | nil => exact .nil
  | cons c text ih => exact .kept ih

theorem shown_outside (outside : ∀ x ∈ labels, x.1 ≠ .reasoning) :
    Shown labels [] := by
  induction labels with
  | nil => exact .nil
  | cons x labels ih =>
    rw [List.forall_mem_cons] at outside
    exact .other outside.1 (ih outside.2)

end ReasoningTags

section Pieces

open ReasoningTags

def answerOf (pieces : List Piece) : List Char :=
  pieces.flatMap fun
    | .delta text => text
    | .thinking _ => []

def reasoningOf (pieces : List Piece) : List Char :=
  pieces.flatMap fun
    | .delta _ => []
    | .thinking text => text

structure Separates (labels : List (Part × Char)) (pieces : List Piece) : Prop where
  answer : answerOf pieces = (labels.filter fun x => x.1 = .answer).map Prod.snd
  reasoning : Shown labels (reasoningOf pieces)

theorem Separates.append {labels more : List (Part × Char)} {pieces later : List Piece}
    (separates : Separates labels pieces) (rest : Separates more later) :
    Separates (labels ++ more) (pieces ++ later) := by
  refine ⟨?_, ?_⟩
  · rw [List.filter_append, List.map_append, ← separates.answer, ← rest.answer]
    exact List.flatMap_append
  · have told : reasoningOf (pieces ++ later) = reasoningOf pieces ++ reasoningOf later :=
      List.flatMap_append
    exact told ▸ separates.reasoning.append rest.reasoning

variable {tags : ReasoningTags} {inside last : Bool} {text : List Char}

theorem splitAtTag_eq_cut {tag : List Char} (filled : tag ≠ []) (content : List Char) :
    splitAtTag tag content = cut tag content := by
  induction content with
  | nil => rw [splitAtTag, cut, if_neg filled]
  | cons c rest ih =>
    rw [splitAtTag, cut, ih]
    simp only [List.isPrefixOf_iff_prefix]

def pieceOf (inside : Bool) (text : List Char) : Piece :=
  if inside then .thinking text else .delta text

theorem splitPieces_of_free (free : cut (tags.awaited inside) text = none) :
    splitPieces tags inside text = (if text = [] then [] else [pieceOf inside text], inside) := by
  rw [← splitAtTag_eq_cut awaited_ne_nil] at free
  unfold splitPieces
  by_cases empty : text = []
  · rw [if_pos empty, if_pos empty]
  · rw [if_neg empty, if_neg empty]
    cases inside <;> dsimp only [awaited] at free ⊢ <;> split <;> simp_all [pieceOf]

def toldBefore (inside : Bool) (before : List Char) : List Char :=
  if inside then before.rdropWhile Text.isSpace else before

theorem splitPieces_of_found {before after : List Char}
    (parts : cut (tags.awaited inside) text = some (before, after)) :
    splitPieces tags inside text =
      ((if before = [] then [] else [pieceOf inside (toldBefore inside before)]) ++
        (splitPieces tags (!inside) (tags.skipNewline after)).1,
        (splitPieces tags (!inside) (tags.skipNewline after)).2) := by
  have filled : text ≠ [] := by
    rintro rfl
    cases parts
  rw [← splitAtTag_eq_cut awaited_ne_nil] at parts
  rw [splitPieces.eq_def, if_neg filled]
  cases inside <;> dsimp only [awaited] at parts ⊢ <;> split <;> simp_all [pieceOf, toldBefore]

theorem separates_kept (inside : Bool) (text : List Char) :
    Separates (text.map (Prod.mk (partOf inside))) [pieceOf inside text] := by
  cases inside with
  | false =>
    refine ⟨?_, shown_outside fun x member => ?_⟩
    · simp [answerOf, pieceOf, partOf, List.filter_map, Function.comp_def]
    · obtain ⟨c, _, rfl⟩ := List.mem_map.mp member
      exact Part.noConfusion
  | true =>
    have same : reasoningOf [pieceOf true text] = text := List.append_nil text
    refine ⟨?_, ?_⟩
    · simp [answerOf, pieceOf, partOf, List.filter_map, Function.comp_def]
    · rw [same]
      exact shown_reasoning text

variable {labels : List (Part × Char)}

theorem separates_outside (markers : ∀ x ∈ labels, ∃ last, x.1 = .marker last) :
    Separates labels [] := by
  refine ⟨?_, shown_outside fun x member => ?_⟩
  · rw [List.filter_eq_nil_iff.mpr fun x member => ?_]
    · rfl
    · obtain ⟨last, same⟩ := markers x member
      simp [same]
  · obtain ⟨last, same⟩ := markers x member
    simp [same]

theorem marker_of_mem {text : List Char} {x : Part × Char} (member : x ∈ markerLabels text) :
    ∃ last, x.1 = .marker last := by
  rcases List.mem_append.mp member with early | final
  · obtain ⟨c, _, rfl⟩ := List.mem_map.mp early
    exact ⟨false, rfl⟩
  · obtain ⟨c, _, rfl⟩ := List.mem_map.mp final
    exact ⟨true, rfl⟩

theorem separates_before (inside : Bool) (before : List Char) {x : Bool × Char}
    {pieces : List Piece} (separates : Separates ((.marker x.1, x.2) :: labels) pieces) :
    Separates (before.map (Prod.mk (partOf inside)) ++ (.marker x.1, x.2) :: labels)
      ((if before = [] then [] else [pieceOf inside (toldBefore inside before)]) ++ pieces) := by
  by_cases empty : before = []
  · rw [if_pos empty, empty]
    exact separates
  rw [if_neg empty]
  cases inside with
  | false => exact (separates_kept false before).append separates
  | true =>
    have blank : Separates ((before.rtakeWhile Text.isSpace).map (Prod.mk .reasoning) ++
        (.marker x.1, x.2) :: labels) pieces := by
      refine ⟨?_, .trimmed (fun b member => List.mem_rtakeWhile_imp member) separates.reasoning⟩
      rw [separates.answer, List.filter_append]
      simp [List.filter_map, Function.comp_def]
    have both := (separates_kept true (before.rdropWhile Text.isSpace)).append blank
    rw [← List.append_assoc] at both
    simp only [partOf, if_true, ← List.map_append, List.rdropWhile_append_rtakeWhile] at both
    exact both

theorem separates_splitPieces (reads : tags.Reads inside text labels last) :
    Separates labels (splitPieces tags inside text).1 ∧ (splitPieces tags inside text).2 = last := by
  induction reads with
  | @done inside text free =>
    rw [splitPieces_of_free free]
    refine ⟨?_, rfl⟩
    by_cases empty : text = []
    · rw [if_pos empty, empty]
      exact ⟨rfl, .nil⟩
    · rw [if_neg empty]
      exact separates_kept inside text
  | @found inside last text before after labels parts _ ih =>
    rw [splitPieces_of_found parts]
    refine ⟨?_, ih.2⟩
    have markers : Separates (markerLabels (tags.awaited inside ++ tags.newline after)) [] :=
      separates_outside fun x => marker_of_mem
    have behind := markers.append ih.1
    cases marked : markerLabels (tags.awaited inside ++ tags.newline after) with
    | nil =>
      have size := length_markerLabels (tags.awaited inside ++ tags.newline after)
      rw [marked] at size
      exact absurd (List.length_eq_zero_iff.mp size.symm)
        (List.append_ne_nil_of_left_ne_nil awaited_ne_nil _)
    | cons x =>
      obtain ⟨part, c⟩ := x
      obtain ⟨final, same⟩ := marker_of_mem (marked ▸ List.mem_cons_self)
      obtain rfl : part = .marker final := same
      rw [marked] at behind
      exact separates_before inside before (x := (final, c)) behind

end Pieces

def feed : ParserState → List (List Char) → List Piece × ParserState
  | state, [] => ([], state)
  | state, content :: contents =>
    let (pieces, next) := splitStreamContentForReasoning content state
    let (later, last) := feed next contents
    (pieces ++ later, last)

def dialect (gemma : Bool) : ReasoningTags := if gemma then gemmaTags else thinkTags

def stateOf (gemma inside : Bool) : ParserState :=
  if inside then (if gemma then .gemmaThought else .thinking) else .answer

def Keeps (gemma : Bool) : ParserState → List (List Char) → Prop
  | _, [] => True
  | state, content :: contents =>
    (gemma = true → state = .answer → ¬ gemmaTags.OccurIn content →
      ¬ thinkTags.opening <:+: content) ∧
      Keeps gemma (splitStreamContentForReasoning content state).2 contents

theorem splitStreamContent_eq (gemma inside : Bool) {content : List Char}
    (plain : gemma = false → ¬ gemmaTags.OccurIn content)
    (kept : gemma = true → stateOf gemma inside = .answer → ¬ gemmaTags.OccurIn content →
      ¬ thinkTags.opening <:+: content) :
    splitStreamContentForReasoning content (stateOf gemma inside) =
      ((splitPieces (dialect gemma) inside content).1,
        stateOf gemma (splitPieces (dialect gemma) inside content).2) := by
  -- A text without an opening tag is an answer in both dialects.
  have outside (tags : ReasoningTags) (free : ¬ tags.opening <:+: content) :
      splitPieces tags false content = (if content = [] then [] else [.delta content], false) :=
    splitPieces_of_free ((cut_eq_none_iff tags.opening_ne).mpr free)
  unfold splitStreamContentForReasoning
  cases gemma with
  | true =>
    cases inside with
    | true => rfl
    | false =>
      by_cases marked : gemmaTags.OccurIn content
      · rw [if_pos (.inr marked)]
        rfl
      · rw [if_neg (by simp [stateOf, marked])]
        have here := outside gemmaTags fun within => marked (.inl within)
        have there := outside thinkTags (kept rfl rfl marked)
        simp [stateOf, dialect, here, there]
  | false =>
    rw [if_neg (by cases inside <;> simp [stateOf, plain rfl])]
    cases inside with
    | true => rfl
    | false =>
      by_cases tagged : thinkTags.OccurIn content
      · rw [if_neg (by simp [tagged])]
        rfl
      · have here := outside thinkTags fun within => tagged (.inl within)
        simp [stateOf, dialect, here, tagged]

theorem separates_feed {gemma inside last : Bool} {contents : List (List Char)}
    {labels : List (Part × Char)}
    (reads : (dialect gemma).Reads inside contents.flatten labels last)
    (plain : gemma = false → ∀ content ∈ contents, ¬ gemmaTags.OccurIn content)
    (uncut : ∀ n, ReasoningTags.Uncut labels (contents.take n).flatten.length)
    (keeps : Keeps gemma (stateOf gemma inside) contents) :
    Separates labels (feed (stateOf gemma inside) contents).1 := by
  induction contents generalizing inside labels with
  | nil =>
    obtain rfl := List.map_eq_nil_iff.mp reads.map_snd
    exact ⟨rfl, .nil⟩
  | cons content contents ih =>
    rw [List.flatten_cons] at reads
    have boundary : ReasoningTags.Uncut labels content.length := by
      have one := uncut 1
      rwa [List.take_succ_cons, List.take_zero, List.flatten_singleton] at one
    obtain ⟨first, later, mid, rfl, size, readsFirst, readsLater⟩ := reads.divide boundary
    obtain ⟨separates, state⟩ := separates_splitPieces readsFirst
    have here := splitStreamContent_eq gemma inside (fun g => plain g content List.mem_cons_self) keeps.1
    have rest := keeps.2
    rw [here, state] at rest
    have behind : ∀ n, ReasoningTags.Uncut later (contents.take n).flatten.length := by
      intro n c cutting
      refine uncut (n + 1) c ?_
      rw [List.take_succ_cons, List.flatten_cons, List.length_append, ← size, List.take_append,
        Nat.add_sub_cancel_left, List.getLast?_append, cutting]
      rfl
    have told := ih readsLater (fun g other member => plain g other (List.mem_cons_of_mem _ member))
      behind rest
    rw [feed, here, state]
    exact separates.append told

structure Undivided (contents : List (List Char)) (labels : List (Part × Char)) : Prop where
  uncut : ∀ n, ReasoningTags.Uncut labels (contents.take n).flatten.length
  keeps : Keeps (gemmaTags.OccurIn contents.flatten) .answer contents

structure ReadsAlike (contents : List (List Char)) (labels : List (Part × Char)) : Prop where
  spells : labels.map Prod.snd = contents.flatten
  whole : Separates labels (splitStreamContentForReasoning contents.flatten .answer).1
  fed : Separates labels (feed .answer contents).1

/-- Every text has a reading, and pieces that spare its markers are separated like the whole. -/
theorem feed_readsAlike (contents : List (List Char)) : ∃ labels last,
    (dialect (gemmaTags.OccurIn contents.flatten)).Reads false contents.flatten labels last ∧
      (Undivided contents labels → ReadsAlike contents labels) := by
  obtain ⟨labels, last, reads⟩ :=
    (dialect (gemmaTags.OccurIn contents.flatten)).exists_reads false contents.flatten
  refine ⟨labels, last, reads, fun undivided => ⟨reads.map_snd, ?_, ?_⟩⟩
  · have whole := splitStreamContent_eq (decide (gemmaTags.OccurIn contents.flatten)) false
      of_decide_eq_false fun g _ absent => absurd (of_decide_eq_true g) absent
    exact (congrArg Prod.fst whole) ▸ (separates_splitPieces reads).1
  · refine separates_feed reads (fun g content member within => of_decide_eq_false g ?_)
      undivided.uncut undivided.keeps
    have part := List.infix_of_mem_flatten member
    exact within.imp (fun o => o.trans part) fun c => c.trans part

/-- A cut in the opening tag: the pieces tell the tag and the reasoning as the answer. -/
theorem divided_tag : ¬ ∃ labels, ReadsAlike [['<', 't', 'h', 'i'], ['n', 'k', '>', 'a']] labels := by
  rintro ⟨labels, agrees⟩
  have fed : answerOf (feed .answer [['<', 't', 'h', 'i'], ['n', 'k', '>', 'a']]).1 =
      ['<', 't', 'h', 'i', 'n', 'k', '>', 'a'] := by decide
  have whole : answerOf (splitStreamContentForReasoning
      ['<', 't', 'h', 'i', 'n', 'k', '>', 'a'] .answer).1 = [] := by
    have tagged : splitStreamContentForReasoning ['<', 't', 'h', 'i', 'n', 'k', '>', 'a'] .answer =
        _ := splitStreamContent_eq false false (fun _ => by decide) Bool.noConfusion
    have parts : cut (thinkTags.awaited false) ['<', 't', 'h', 'i', 'n', 'k', '>', 'a'] =
        some ([], ['a']) := by decide
    have rest : splitPieces thinkTags true ['a'] = ([.thinking ['a']], true) :=
      splitPieces_of_free (by decide)
    rw [tagged, show dialect false = thinkTags from rfl, splitPieces_of_found parts,
      show thinkTags.skipNewline ['a'] = ['a'] from rfl, Bool.not_false, rest]
    rfl
  have same := agrees.fed.answer.trans agrees.whole.answer.symm
  rw [fed, show List.flatten [['<', 't', 'h', 'i'], ['n', 'k', '>', 'a']] =
    ['<', 't', 'h', 'i', 'n', 'k', '>', 'a'] from rfl, whole] at same
  cases same

end AverQel.Providers
