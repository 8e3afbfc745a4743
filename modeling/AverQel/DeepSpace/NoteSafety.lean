/- digest: The tags of a rendered note nest, and none of them comes from the Markdown. -/
import AverQel.DeepSpace.NotePages
import AverQel.Foundation.Letters
import AverQel.Foundation.Slices
import AverQel.Foundation.Splitting

namespace AverQel.DeepSpace.Notes

open Foundation
open Foundation.Markup (Token nest nest_element nest_intercalate nest_letters nest_trans)
open Foundation.Text (isSpace stripChars)
open NoteTag (allows dialect)

theorem textOf_append (tokens more : List NoteToken) :
    textOf (tokens ++ more) = textOf tokens ++ textOf more := List.filterMap_append

theorem textOf_letters {text : List Char} (oneLine : '\n' ∉ text) :
    textOf (text.map .letter) = text := by
  induction text with
  | nil => rfl
  | cons c text ih =>
    rw [List.mem_cons, not_or] at oneLine
    have first : textOf [.letter c] = [c] := by
      simp [textOf, Ne.symm oneLine.1]
    rw [List.map_cons, ← List.singleton_append, textOf_append, first, ih oneLine.2,
      List.singleton_append]

theorem textOf_element (tag : NoteTag) (body : List NoteToken) :
    textOf (element tag body) = textOf body := by
  rw [element, textOf_append, textOf_append]
  exact List.append_nil _

theorem textOf_intercalate {sep : List NoteToken} (quiet : textOf sep = [])
    (parts : List (List NoteToken)) : textOf (sep.intercalate parts) = parts.flatMap textOf := by
  induction parts with
  | nil => rfl
  | cons first rest ih =>
    cases rest with
    | nil => rw [List.intercalate_singleton, List.flatMap_singleton]
    | cons =>
      rw [List.intercalate_cons_cons, textOf_append, textOf_append, quiet, List.append_nil, ih,
        ← List.flatMap_cons]

theorem textOf_brokenText {texts : List (List Char)} (oneLine : ∀ text ∈ texts, '\n' ∉ text) :
    textOf (brokenText texts) = texts.flatten := by
  rw [brokenText, textOf_intercalate rfl, List.flatMap_map]
  induction texts with
  | nil => rfl
  | cons text texts ih =>
    rw [List.flatMap_cons, List.flatten_cons, textOf_letters (oneLine text List.mem_cons_self),
      ih fun other member => oneLine other (List.mem_cons_of_mem text member)]

section Blocks

variable {stack : List NoteTag}

theorem nest_text (open_ : ∀ c, c ≠ '\n' → allows stack.head? (.letter c) = true) {text : List Char}
    (oneLine : '\n' ∉ text) : nest allows stack (text.map .letter) = some stack := by
  apply nest_letters
  intro c member
  exact open_ c fun same => oneLine (same ▸ member)

variable {texts : List (List Char)}

theorem nest_brokenText (open_ : ∀ c, c ≠ '\n' → allows stack.head? (.letter c) = true)
    (breaks : allows stack.head? (.alone .br) = true) (oneLine : ∀ text ∈ texts, '\n' ∉ text) :
    nest allows stack (brokenText texts) = some stack := by
  refine nest_intercalate (Markup.nest_alone breaks) ?_
  intro part member
  obtain ⟨text, inside, rfl⟩ := List.mem_map.mp member
  exact nest_text open_ (oneLine text inside)

theorem nest_paragraph (oneLine : ∀ text ∈ texts, '\n' ∉ text) :
    nest allows [] (element .p (brokenText texts)) = some [] := by
  refine nest_element rfl (nest_brokenText ?_ rfl oneLine)
  exact fun _ other => decide_eq_true other

theorem nest_code (oneLine : ∀ text ∈ texts, '\n' ∉ text) :
    nest allows [] (element .pre (element .code (brokenText texts))) = some [] := by
  refine nest_element rfl (nest_element rfl (nest_brokenText ?_ rfl oneLine))
  exact fun _ other => decide_eq_true other

theorem nest_heading (level : Fin 6) {title : List Char} (oneLine : '\n' ∉ title) :
    nest allows [] (element (.h level) (title.map .letter)) = some [] := by
  refine nest_element rfl (nest_text ?_ oneLine)
  exact fun _ other => decide_eq_true other

theorem nest_item {item : List Char} (oneLine : '\n' ∉ item) :
    nest allows [.ul] (element .li (item.map .letter)) = some [.ul] := by
  refine nest_element rfl (nest_text ?_ oneLine)
  exact fun _ other => decide_eq_true other

end Blocks

theorem sublist_of_behindBlanks {text found : List Char} (behind : behindBlanks text = some found) :
    found.Sublist text := by
  cases text with
  | nil => cases behind
  | cons c =>
    rw [behindBlanks] at behind
    split_ifs at behind
    obtain rfl := Option.some.inj behind
    exact (List.dropWhile_suffix isSpace).sublist.cons c

theorem sublist_of_heading {line title : List Char} {level : Nat}
    (found : heading line = some (level, title)) : title.Sublist line := by
  unfold heading at found
  dsimp only at found
  split_ifs at found
  obtain ⟨text, behind, same⟩ := Option.map_eq_some_iff.mp found
  obtain ⟨_, rfl⟩ := Prod.mk.inj same
  exact (sublist_of_behindBlanks behind).trans (List.dropWhile_suffix _).sublist

theorem sublist_of_bullet {beyondAscii : Char → Bool} {line item : List Char}
    (found : bullet beyondAscii line = some item) : item.Sublist line := by
  cases line with
  | nil => cases found
  | cons c rest =>
    rw [bullet] at found
    split_ifs at found with dash digit
    · exact (sublist_of_behindBlanks found).cons c
    · cases more : rest.dropWhile (isDecimal beyondAscii) with
      | nil =>
        rw [more] at found
        cases found
      | cons dot =>
        rw [more] at found
        dsimp only at found
        split_ifs at found
        have inside := (List.dropWhile_suffix (isDecimal beyondAscii) (l := rest)).sublist
        rw [more] at inside
        exact ((sublist_of_behindBlanks found).cons dot).trans (inside.cons c)

theorem not_mem_of_sublist {text line : List Char} (oneLine : '\n' ∉ line)
    (inside : text.Sublist line) : '\n' ∉ text := fun member => oneLine (inside.subset member)

namespace Page

def stack (p : Page) : List NoteTag := if p.inList then [.ul] else []

def taken (p : Page) : List Char := textOf p.tokens ++ p.paragraph.flatten ++ p.codeLines.flatten

/-- At most one of a paragraph, a list and a code block is open, and the tags nest. -/
structure Sound (p : Page) : Prop where
  nested : nest allows [] p.tokens = some p.stack
  apart : p.paragraph ≠ [] → p.inList = false
  coding : p.inCode = true → p.paragraph = [] ∧ p.inList = false
  plain : p.inCode = false → p.codeLines = []
  oneLine : ∀ text, text ∈ p.paragraph ∨ text ∈ p.codeLines → '\n' ∉ text

variable {p : Page}

theorem sound_start : Sound start where
  nested := rfl
  apart _ := rfl
  coding wrong := by cases wrong
  plain _ := rfl
  oneLine text member := by
    rcases member with inside | inside
    · cases inside
    · cases inside

theorem textOf_tokens : textOf p.tokens = p.lines.flatMap textOf := textOf_intercalate rfl p.lines

theorem textOf_append_tokens (block : List NoteToken) :
    textOf (p.append block).tokens = textOf p.tokens ++ textOf block := by
  rw [textOf_tokens, textOf_tokens, append, List.flatMap_append, List.flatMap_singleton]

theorem nest_append_tokens {block : List NoteToken} {now after : List NoteTag}
    (before : nest allows [] p.tokens = some now) (layout : allows now.head? (.letter '\n') = true)
    (fits : nest allows now block = some after) :
    nest allows [] (p.append block).tokens = some after := by
  by_cases first : p.lines = []
  · have nothing : p.tokens = [] := by rw [tokens, first, List.intercalate_nil]
    rw [nothing] at before
    obtain rfl := Option.some.inj before
    rw [tokens, append, first, List.nil_append, List.intercalate_singleton]
    exact fits
  · have newline : nest allows now (['\n'].map .letter) = some now := by
      apply nest_letters
      intro c member
      rw [List.mem_singleton.mp member]
      exact layout
    rw [tokens, append, Slices.intercalate_concat _ first]
    exact nest_trans (nest_trans before newline) fits

theorem layout_stack (p : Page) : allows p.stack.head? (.letter '\n') = true := by
  unfold stack
  cases p.inList <;> rfl

@[simp] theorem flushParagraph_paragraph : p.flushParagraph.paragraph = [] := by
  unfold flushParagraph
  split_ifs with empty
  · exact empty
  · rfl

@[simp] theorem flushParagraph_inCode : p.flushParagraph.inCode = p.inCode := by
  unfold flushParagraph
  split_ifs <;> rfl

@[simp] theorem closeList_inList : p.closeList.inList = false := by
  unfold closeList
  split_ifs with open_
  · rfl
  · exact Bool.eq_false_iff.mpr open_

@[simp] theorem closeList_paragraph : p.closeList.paragraph = p.paragraph := by
  unfold closeList
  split_ifs <;> rfl

@[simp] theorem closeList_inCode : p.closeList.inCode = p.inCode := by
  unfold closeList
  split_ifs <;> rfl

namespace Sound

theorem append (sound : p.Sound) {block : List NoteToken}
    (fits : nest allows p.stack block = some p.stack) : (p.append block).Sound where
  nested := nest_append_tokens sound.nested p.layout_stack fits
  apart := sound.apart
  coding := sound.coding
  plain := sound.plain
  oneLine := sound.oneLine

theorem stack_eq_nil {q : Page} (closed : q.inList = false) : q.stack = [] := by
  rw [stack, closed]
  rfl

theorem flushParagraph (sound : p.Sound) :
    p.flushParagraph.Sound ∧ p.flushParagraph.taken = p.taken := by
  unfold Page.flushParagraph
  split_ifs with empty
  · exact ⟨sound, rfl⟩
  · have oneLine : ∀ text ∈ p.paragraph, '\n' ∉ text := fun text member =>
      sound.oneLine text (.inl member)
    have fits : nest allows p.stack (element .p (brokenText p.paragraph)) = some p.stack := by
      rw [stack_eq_nil (sound.apart empty)]
      exact nest_paragraph oneLine
    have larger := sound.append fits
    constructor
    · exact {
        nested := larger.nested
        apart := fun filled => absurd rfl filled
        coding := fun code => ⟨rfl, (larger.coding code).2⟩
        plain := larger.plain
        oneLine := by
          rintro text (inside | inside)
          · cases inside
          · exact sound.oneLine text (.inr inside) }
    · have text : textOf (p.append (element .p (brokenText p.paragraph))).tokens =
          textOf p.tokens ++ p.paragraph.flatten := by
        rw [textOf_append_tokens, textOf_element, textOf_brokenText oneLine]
      rw [taken, taken, ← text, List.flatten_nil, List.append_nil]
      rfl

theorem closeList (sound : p.Sound) : p.closeList.Sound ∧ p.closeList.taken = p.taken := by
  unfold Page.closeList
  split_ifs with open_
  · have fits : nest allows p.stack [.closes NoteTag.ul] = some [] := by
      rw [stack, open_]
      exact Markup.nest_closes [] NoteTag.ul
    constructor
    · exact {
        nested := nest_append_tokens sound.nested p.layout_stack fits
        apart := fun _ => rfl
        coding := fun code => ⟨(sound.coding code).1, rfl⟩
        plain := sound.plain
        oneLine := sound.oneLine }
    · have text : textOf (p.append [.closes .ul]).tokens = textOf p.tokens := by
        rw [textOf_append_tokens]
        exact List.append_nil _
      rw [taken, taken, ← text]
      rfl
  · exact ⟨sound, rfl⟩

theorem cleared (sound : p.Sound) : p.flushParagraph.closeList.Sound ∧
    p.flushParagraph.closeList.taken = p.taken := by
  obtain ⟨flushed, same⟩ := sound.flushParagraph
  obtain ⟨closed, again⟩ := flushed.closeList
  exact ⟨closed, again.trans same⟩

theorem appendCode (sound : p.Sound) (closed : p.inList = false) : p.appendCode.Sound := by
  refine sound.append ?_
  rw [stack_eq_nil closed]
  exact nest_code fun text member => sound.oneLine text (.inr member)

theorem textOf_appendCode (sound : p.Sound) :
    textOf p.appendCode.tokens = textOf p.tokens ++ p.codeLines.flatten := by
  rw [Page.appendCode, textOf_append_tokens, textOf_element, textOf_element,
    textOf_brokenText fun text member => sound.oneLine text (.inr member)]

theorem taken_append (sound : p.Sound) (idle : p.paragraph = []) (text_ : p.inCode = false)
    (block : List NoteToken) : (p.append block).taken = p.taken ++ textOf block := by
  have none : p.codeLines = [] := sound.plain text_
  show textOf (p.append block).tokens ++ p.paragraph.flatten ++ p.codeLines.flatten = _
  rw [textOf_append_tokens, taken, idle, none]
  simp

theorem openList (sound : p.Sound) (idle : p.paragraph = []) (text_ : p.inCode = false) :
    p.openList.Sound ∧ p.openList.taken = p.taken ∧ p.openList.inList = true ∧
      p.openList.paragraph = [] ∧ p.openList.inCode = false := by
  unfold Page.openList
  split_ifs with open_
  · exact ⟨sound, rfl, open_, idle, text_⟩
  · have closed : p.inList = false := Bool.eq_false_iff.mpr open_
    have fits : nest allows p.stack [.opens .ul] = some [NoteTag.ul] := by
      rw [stack_eq_nil closed]
      exact Markup.nest_opens rfl
    have text := sound.taken_append idle text_ [.opens .ul]
    refine ⟨?_, text.trans (List.append_nil _), rfl, idle, text_⟩
    exact {
      nested := nest_append_tokens sound.nested p.layout_stack fits
      apart := fun filled => absurd idle filled
      coding := fun code => by
        rw [show p.inCode = true from code] at text_
        cases text_
      plain := sound.plain
      oneLine := sound.oneLine }

variable {rawLine : List Char}

theorem endCode (sound : p.Sound) (idle : p.paragraph = []) (closed : p.inList = false) :
    Page.Sound { p.appendCode with codeLines := [], inCode := false } ∧
      Page.taken { p.appendCode with codeLines := [], inCode := false } = p.taken := by
  have written := sound.appendCode closed
  constructor
  · exact {
      nested := written.nested
      apart := written.apart
      coding := fun wrong => by cases wrong
      plain := fun _ => rfl
      oneLine := by
        rintro text (inside | inside)
        · exact written.oneLine text (.inl inside)
        · cases inside }
  · show textOf p.appendCode.tokens ++ p.paragraph.flatten ++ [] = _
    rw [sound.textOf_appendCode, taken, idle]
    simp

theorem startCode (sound : p.Sound) (idle : p.paragraph = []) (closed : p.inList = false) :
    Page.Sound { p with inCode := true } where
  nested := sound.nested
  apart := sound.apart
  coding _ := ⟨idle, closed⟩
  plain wrong := by cases wrong
  oneLine := sound.oneLine

theorem addCode (sound : p.Sound) (code : p.inCode = true) (oneLine : '\n' ∉ rawLine) :
    Page.Sound { p with codeLines := p.codeLines ++ [rawLine] } ∧
      Page.taken { p with codeLines := p.codeLines ++ [rawLine] } = p.taken ++ rawLine := by
  constructor
  · exact {
      nested := sound.nested
      apart := sound.apart
      coding := sound.coding
      plain := fun text => absurd (code.symm.trans text) (by decide)
      oneLine := by
        rintro text (inside | inside)
        · exact sound.oneLine text (.inl inside)
        · rcases List.mem_append.mp inside with before | last
          · exact sound.oneLine text (.inr before)
          · rwa [List.mem_singleton.mp last] }
  · show textOf p.tokens ++ p.paragraph.flatten ++ (p.codeLines ++ [rawLine]).flatten = _
    rw [taken, List.flatten_concat, ← List.append_assoc]

theorem addHeading (sound : p.Sound) (idle : p.paragraph = []) (closed : p.inList = false)
    (text_ : p.inCode = false) (level : Nat) {title : List Char} (oneLine : '\n' ∉ title) :
    (p.appendHeading level title).Sound ∧
      (p.appendHeading level title).taken = p.taken ++ title := by
  constructor
  · refine sound.append ?_
    rw [stack_eq_nil closed]
    exact nest_heading _ oneLine
  · rw [appendHeading, sound.taken_append idle text_, textOf_element, textOf_letters oneLine]

theorem addItem (sound : p.Sound) (idle : p.paragraph = []) (text_ : p.inCode = false)
    {item : List Char} (oneLine : '\n' ∉ item) :
    (p.openList.appendItem item).Sound ∧
      (p.openList.appendItem item).taken = p.taken ++ item := by
  obtain ⟨opened, same, open_, idle, text_⟩ := sound.openList idle text_
  constructor
  · refine opened.append ?_
    rw [stack, open_]
    exact nest_item oneLine
  · rw [appendItem, opened.taken_append idle text_, textOf_element, textOf_letters oneLine, same]

theorem addText (sound : p.Sound) (closed : p.inList = false) (text_ : p.inCode = false)
    {line : List Char} (oneLine : '\n' ∉ line) :
    Page.Sound { p with paragraph := p.paragraph ++ [line] } ∧
      Page.taken { p with paragraph := p.paragraph ++ [line] } = p.taken ++ line := by
  have none : p.codeLines = [] := sound.plain text_
  constructor
  · exact {
      nested := sound.nested
      apart := fun _ => closed
      coding := fun code => absurd (text_.symm.trans code) (by decide)
      plain := sound.plain
      oneLine := by
        rintro text (inside | inside)
        · rcases List.mem_append.mp inside with before | last
          · exact sound.oneLine text (.inl before)
          · rwa [List.mem_singleton.mp last]
        · exact sound.oneLine text (.inr inside) }
  · show textOf p.tokens ++ (p.paragraph ++ [line]).flatten ++ p.codeLines.flatten = _
    rw [taken, none, List.flatten_concat]
    simp

end Sound

theorem sound_readLine (beyondAscii : Char → Bool) (sound : p.Sound) {rawLine : List Char}
    (oneLine : '\n' ∉ rawLine) : (p.readLine beyondAscii rawLine).Sound ∧
      (p.readLine beyondAscii rawLine).taken.Sublist (p.taken ++ rawLine) := by
  have stripped : (stripChars rawLine).Sublist rawLine := (Text.isInfix_stripChars rawLine).sublist
  obtain ⟨cleared, same⟩ := sound.cleared
  have kept : p.taken.Sublist (p.taken ++ rawLine) := List.sublist_append_left _ _
  unfold readLine
  dsimp only
  split_ifs with fence ends code blank
  · obtain ⟨held, again⟩ := cleared.endCode (by simp) (by simp)
    exact ⟨held, by rwa [again, same]⟩
  · have held := cleared.startCode (by simp) (by simp)
    have again : Page.taken { p.flushParagraph.closeList with inCode := true } = p.taken := same
    exact ⟨held, by rwa [again]⟩
  · obtain ⟨held, longer⟩ := sound.addCode code oneLine
    exact ⟨held, by rw [longer]⟩
  · exact ⟨cleared, by rwa [same]⟩
  · have text_ : p.inCode = false := Bool.eq_false_iff.mpr code
    cases title : heading (stripChars rawLine) with
    | some found =>
      have inside := (sublist_of_heading title).trans stripped
      obtain ⟨held, longer⟩ := cleared.addHeading (by simp) (by simp) (by simp [text_]) found.1
        (not_mem_of_sublist oneLine inside)
      refine ⟨held, ?_⟩
      rw [longer, same]
      exact inside.append_left p.taken
    | none =>
      dsimp only
      cases entry : bullet beyondAscii (stripChars rawLine) with
      | some =>
        have inside := (sublist_of_bullet entry).trans stripped
        obtain ⟨flushed, same⟩ := sound.flushParagraph
        obtain ⟨held, longer⟩ := flushed.addItem (by simp) (by simp [text_])
          (not_mem_of_sublist oneLine inside)
        refine ⟨held, ?_⟩
        rw [longer, same]
        exact inside.append_left p.taken
      | none =>
        obtain ⟨closed, same⟩ := sound.closeList
        obtain ⟨held, longer⟩ := closed.addText (by simp) (by simp [text_])
          (not_mem_of_sublist oneLine stripped)
        refine ⟨held, ?_⟩
        rw [longer, same]
        exact stripped.append_left p.taken

theorem sound_foldl (beyondAscii : Char → Bool) (sound : p.Sound) {lines : List (List Char)}
    (oneLine : ∀ line ∈ lines, '\n' ∉ line) :
    (lines.foldl (readLine beyondAscii) p).Sound ∧
      (lines.foldl (readLine beyondAscii) p).taken.Sublist (p.taken ++ lines.flatten) := by
  induction lines generalizing p with
  | nil =>
    rw [List.flatten_nil, List.append_nil]
    exact ⟨sound, List.Sublist.refl _⟩
  | cons rawLine lines ih =>
    obtain ⟨held, first⟩ := sound_readLine beyondAscii sound (oneLine rawLine List.mem_cons_self)
    obtain ⟨last, rest⟩ := ih held fun line member => oneLine line (List.mem_cons_of_mem _ member)
    refine ⟨last, rest.trans ?_⟩
    rw [List.flatten_cons, ← List.append_assoc]
    exact first.append_right _

theorem sound_finish (sound : p.Sound) : nest allows [] p.finish.tokens = some [] ∧
    (textOf p.finish.tokens).Sublist p.taken := by
  have ends : ∀ {q : Page}, q.Sound → nest allows [] q.flushParagraph.closeList.tokens = some [] ∧
      (textOf q.flushParagraph.closeList.tokens).Sublist q.taken := by
    intro q held
    obtain ⟨cleared, same⟩ := held.cleared
    have nested := cleared.nested
    rw [Sound.stack_eq_nil (by simp)] at nested
    refine ⟨nested, ?_⟩
    rw [← same, taken, List.append_assoc]
    exact List.sublist_append_left _ _
  unfold finish
  dsimp only
  split_ifs with code
  · obtain ⟨idle, closed⟩ := sound.coding code
    have written := sound.appendCode closed
    obtain ⟨nested, _⟩ := ends written
    refine ⟨nested, ?_⟩
    -- the code is written, and nothing else is open
    have flushed : p.appendCode.flushParagraph.closeList = p.appendCode := by
      have idle' : p.appendCode.paragraph = [] := idle
      have closed' : p.appendCode.inList = false := closed
      rw [flushParagraph, if_pos idle', closeList, closed']
      rfl
    rw [flushed, sound.textOf_appendCode, taken, idle]
    simp
  · exact ends sound

end Page

end AverQel.DeepSpace.Notes
