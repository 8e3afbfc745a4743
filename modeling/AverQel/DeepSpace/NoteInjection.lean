/- digest: A note has the tags that it would have without any special character. -/
import AverQel.DeepSpace.NoteSafety

namespace AverQel.DeepSpace.Notes

open Foundation
open Foundation.Markup (Token entity? nest)
open Foundation.Text (isSpace stripChars)
open NoteTag (allows dialect)

def isMark (c : Char) : Bool :=
  c = '\n' || c = '\r' || c = '`' || c = '#' || c = '-' || c = '*' || c = '.'

structure Unnoticed (beyondAscii : Char → Bool) (f : Char → Char) : Prop where
  space : ∀ c, isSpace (f c) = isSpace c
  decimal : ∀ c, isDecimal beyondAscii (f c) = isDecimal beyondAscii c
  mark : ∀ c m, isMark m = true → (f c = m ↔ c = m)

/-- An `x` for every character with a meaning in HTML. -/
def neutral (c : Char) : Char := if (entity? c).isSome then 'x' else c

variable {beyondAscii : Char → Bool} {f : Char → Char}

theorem dropWhile_map_of_agree {p : Char → Bool} (agree : ∀ c, p (f c) = p c) (text : List Char) :
    (text.map f).dropWhile p = (text.dropWhile p).map f := by
  have same : p ∘ f = p := funext agree
  rw [List.dropWhile_map, same]

theorem takeWhile_map_of_agree {p : Char → Bool} (agree : ∀ c, p (f c) = p c) (text : List Char) :
    (text.map f).takeWhile p = (text.takeWhile p).map f := by
  have same : p ∘ f = p := funext agree
  rw [List.takeWhile_map, same]

namespace Unnoticed

theorem stripChars_map (blind : Unnoticed beyondAscii f) (text : List Char) :
    stripChars (text.map f) = (stripChars text).map f := by
  rw [stripChars, stripChars, dropWhile_map_of_agree blind.space, List.rdropWhile, List.rdropWhile,
    ← List.map_reverse, dropWhile_map_of_agree blind.space, List.map_reverse]

theorem unifyLineEnds_map (blind : Unnoticed beyondAscii f) (text : List Char) :
    unifyLineEnds (text.map f) = (unifyLineEnds text).map f := by
  induction text using unifyLineEnds.induct with
  | case1 | case2 => rfl
  | case3 c d rest ends ih =>
    have changed : f c = '\r' ∧ f d = '\n' :=
      ⟨(blind.mark c '\r' rfl).mpr ends.1, (blind.mark d '\n' rfl).mpr ends.2⟩
    have kept : f '\n' = '\n' := (blind.mark '\n' '\n' rfl).mpr rfl
    rw [List.map_cons, List.map_cons, unifyLineEnds, if_pos changed, unifyLineEnds, if_pos ends, ih,
      List.map_cons, kept]
  | case4 c d rest other ih =>
    have apart : ¬(f c = '\r' ∧ f d = '\n') := fun both =>
      other ⟨(blind.mark c '\r' rfl).mp both.1, (blind.mark d '\n' rfl).mp both.2⟩
    rw [List.map_cons] at ih
    rw [List.map_cons, List.map_cons, unifyLineEnds, if_neg apart, unifyLineEnds, if_neg other, ih,
      List.map_cons]

theorem isFence_map (blind : Unnoticed beyondAscii f) (line : List Char) :
    isFence (line.map f) = isFence line := by
  have all : ∀ marks : List Char, marks.all isMark = true → ∀ line : List Char,
      marks.isPrefixOf (line.map f) = marks.isPrefixOf line := by
    intro marks
    induction marks with
    | nil =>
      intro _ line
      rw [List.isPrefixOf_nil_left, List.isPrefixOf_nil_left]
    | cons m marks ih =>
      intro marked line
      obtain ⟨first, rest⟩ := Bool.and_eq_true_iff.mp marked
      cases line with
      | nil => rfl
      | cons c =>
        have same : (m == f c) = (m == c) := by
          rw [Bool.eq_iff_iff, beq_iff_eq, beq_iff_eq, eq_comm, blind.mark c m first, eq_comm]
        rw [List.map_cons, List.isPrefixOf, List.isPrefixOf, same, ih rest]
  exact all "```".toList (by decide) line

theorem behindBlanks_map (blind : Unnoticed beyondAscii f) (text : List Char) :
    behindBlanks (text.map f) = (behindBlanks text).map (List.map f) := by
  cases text with
  | nil => rfl
  | cons =>
    rw [List.map_cons, behindBlanks, behindBlanks, blind.space,
      dropWhile_map_of_agree blind.space]
    simp only [ne_eq, List.map_eq_nil_iff]
    split_ifs <;> rfl

theorem heading_map (blind : Unnoticed beyondAscii f) (line : List Char) :
    heading (line.map f) = (heading line).map fun found => (found.1, found.2.map f) := by
  have hash : ∀ c, decide (f c = '#') = decide (c = '#') := fun c =>
    decide_eq_decide.mpr (blind.mark c '#' rfl)
  unfold heading
  dsimp only
  rw [takeWhile_map_of_agree hash, dropWhile_map_of_agree hash, List.length_map,
    blind.behindBlanks_map]
  split_ifs
  · rw [Option.map_map, Option.map_map]
    rfl
  · rfl

theorem bullet_map (blind : Unnoticed beyondAscii f) (line : List Char) :
    bullet beyondAscii (line.map f) = (bullet beyondAscii line).map (List.map f) := by
  cases line with
  | nil => rfl
  | cons c rest =>
    rw [List.map_cons, bullet, bullet, blind.decimal]
    simp only [blind.mark c '-' rfl, blind.mark c '*' rfl]
    split_ifs with dash digit
    · exact blind.behindBlanks_map rest
    · rw [dropWhile_map_of_agree blind.decimal]
      cases rest.dropWhile (isDecimal beyondAscii) with
      | nil => rfl
      | cons dot text =>
        simp only [List.map_cons, blind.mark dot '.' rfl]
        split_ifs
        · exact blind.behindBlanks_map text
        · rfl
    · rfl

end Unnoticed

namespace Page

def mapText (f : Char → Char) (p : Page) : Page where
  lines := p.lines.map (List.map (Token.mapLetter f))
  paragraph := p.paragraph.map (List.map f)
  inList := p.inList
  inCode := p.inCode
  codeLines := p.codeLines.map (List.map f)

variable (f : Char → Char) (p : Page)

theorem map_intercalate {α β : Type} (g : α → β) (sep : List α) (parts : List (List α)) :
    (sep.intercalate parts).map g = (sep.map g).intercalate (parts.map (List.map g)) := by
  induction parts with
  | nil => rfl
  | cons first rest ih =>
    cases rest with
    | nil => rw [List.map_singleton, List.intercalate_singleton, List.intercalate_singleton]
    | cons =>
      rw [List.intercalate_cons_cons, List.map_append, List.map_append, ih]
      exact List.intercalate_cons_cons.symm

theorem map_letters (text : List Char) :
    (text.map Token.letter).map (Token.mapLetter (τ := NoteTag) f) = (text.map f).map .letter := by
  rw [List.map_map, List.map_map]
  rfl

theorem map_element (tag : NoteTag) (body : List NoteToken) :
    (element tag body).map (Token.mapLetter f) = element tag (body.map (Token.mapLetter f)) := by
  rw [element, element, List.map_append, List.map_append]
  rfl

theorem map_brokenText (texts : List (List Char)) :
    (brokenText texts).map (Token.mapLetter f) = brokenText (texts.map (List.map f)) := by
  rw [brokenText, brokenText, map_intercalate, List.map_map, List.map_map]
  congr 1
  apply List.map_congr_left
  intro text _
  exact map_letters f text

theorem mapText_append (line : List NoteToken) :
    (p.append line).mapText f = (p.mapText f).append (line.map (Token.mapLetter f)) := by
  simp only [append, mapText, List.map_append, List.map_singleton]

theorem mapText_flushParagraph :
    p.flushParagraph.mapText f = (p.mapText f).flushParagraph := by
  have same : (p.mapText f).paragraph = [] ↔ p.paragraph = [] := List.map_eq_nil_iff
  unfold flushParagraph
  simp only [same]
  split_ifs
  · rfl
  · simp only [mapText, append, List.map_append, List.map_singleton, List.map_nil, map_element,
      map_brokenText]

theorem mapText_closeList : p.closeList.mapText f = (p.mapText f).closeList := by
  have same : (p.mapText f).inList = p.inList := rfl
  unfold closeList
  rw [same]
  split_ifs
  · simp only [mapText, append, List.map_append]
    rfl
  · rfl

theorem mapText_openList : p.openList.mapText f = (p.mapText f).openList := by
  have same : (p.mapText f).inList = p.inList := rfl
  unfold openList
  rw [same]
  split_ifs
  · rfl
  · simp only [mapText, append, List.map_append]
    rfl

theorem mapText_appendCode : p.appendCode.mapText f = (p.mapText f).appendCode := by
  rw [appendCode, mapText_append, map_element, map_element, map_brokenText]
  rfl

theorem mapText_appendHeading (level : Nat) (title : List Char) :
    (p.appendHeading level title).mapText f =
      (p.mapText f).appendHeading level (title.map f) := by
  rw [appendHeading, mapText_append, map_element, map_letters]
  rfl

theorem mapText_appendItem (item : List Char) :
    (p.appendItem item).mapText f = (p.mapText f).appendItem (item.map f) := by
  rw [appendItem, mapText_append, map_element, map_letters]
  rfl

variable {f}

theorem mapText_readLine (blind : Unnoticed beyondAscii f) (rawLine : List Char) :
    (p.readLine beyondAscii rawLine).mapText f =
      (p.mapText f).readLine beyondAscii (rawLine.map f) := by
  have cleared : (p.mapText f).flushParagraph.closeList = p.flushParagraph.closeList.mapText f := by
    rw [mapText_closeList, mapText_flushParagraph]
  have coding : (p.mapText f).inCode = p.inCode := rfl
  have coding' : (p.flushParagraph.closeList.mapText f).inCode =
      p.flushParagraph.closeList.inCode := rfl
  unfold readLine
  dsimp only
  rw [blind.stripChars_map, blind.isFence_map, blind.heading_map, blind.bullet_map, cleared, coding,
    coding']
  simp only [List.map_eq_nil_iff]
  split_ifs with fence ends code blank
  · rw [← mapText_appendCode]
    rfl
  · rfl
  · simp only [mapText, List.map_append, List.map_singleton]
  · rfl
  · cases heading (stripChars rawLine) with
    | some found => exact mapText_appendHeading f _ found.1 found.2
    | none =>
      dsimp only [Option.map_none]
      cases bullet beyondAscii (stripChars rawLine) with
      | some =>
        dsimp only [Option.map_some]
        rw [mapText_appendItem, mapText_openList, mapText_flushParagraph]
      | none =>
        dsimp only [Option.map_none]
        rw [← mapText_closeList]
        simp only [mapText, List.map_append, List.map_singleton]

theorem mapText_foldl (blind : Unnoticed beyondAscii f) (lines : List (List Char)) :
    (lines.foldl (readLine beyondAscii) p).mapText f =
      (lines.map (List.map f)).foldl (readLine beyondAscii) (p.mapText f) := by
  induction lines generalizing p with
  | nil => rfl
  | cons rawLine lines ih =>
    rw [List.foldl_cons, ih, mapText_readLine p blind, List.map_cons, List.foldl_cons]

theorem mapText_finish : p.finish.mapText f = (p.mapText f).finish := by
  have coding : (p.mapText f).inCode = p.inCode := rfl
  unfold finish
  dsimp only
  rw [mapText_closeList, mapText_flushParagraph, coding]
  split_ifs
  · rw [mapText_appendCode]
  · rfl

theorem pageOf_map (blind : Unnoticed beyondAscii f) (markdown : List Char) :
    pageOf beyondAscii (markdown.map f) = (pageOf beyondAscii markdown).mapText f := by
  have newline : ∀ c, f c = '\n' ↔ c = '\n' := fun c => blind.mark c '\n' rfl
  have started : start.mapText f = start := rfl
  rw [pageOf, pageOf, mapText_finish, mapText_foldl _ blind, started, blind.unifyLineEnds_map,
    Splitting.splitOn_map newline]

theorem tokens_mapText (blind : Unnoticed beyondAscii f) :
    (p.mapText f).tokens = p.tokens.map (Token.mapLetter f) := by
  have newline : f '\n' = '\n' := (blind.mark '\n' '\n' rfl).mpr rfl
  rw [tokens, tokens, map_intercalate, List.map_singleton, Token.mapLetter, newline]
  rfl

end Page

theorem special_of_entity {c : Char} (special : (entity? c).isSome = true) :
    c = '&' ∨ c = '<' ∨ c = '>' ∨ c = '\x22' ∨ c = '\x27' := by
  unfold entity? at special
  split_ifs at special with amp lt gt quot apostrophe
  · exact .inl amp
  · exact .inr (.inl lt)
  · exact .inr (.inr (.inl gt))
  · exact .inr (.inr (.inr (.inl quot)))
  · exact .inr (.inr (.inr (.inr apostrophe)))
  · cases special

theorem unnoticed_neutral (beyondAscii : Char → Bool) : Unnoticed beyondAscii neutral := by
  have either : ∀ c, neutral c = c ∨
      neutral c = 'x' ∧ isSpace c = false ∧ isDecimal beyondAscii c = false ∧ isMark c = false := by
    intro c
    unfold neutral
    split_ifs with special
    · right
      refine ⟨rfl, ?_⟩
      rcases special_of_entity special with rfl | rfl | rfl | rfl | rfl <;>
        exact ⟨by decide, rfl, by decide⟩
    · exact .inl rfl
  constructor
  · intro c
    rcases either c with same | ⟨changed, space, _⟩
    · rw [same]
    · rw [changed, space]
      decide
  · intro c
    rcases either c with same | ⟨changed, _, decimal, _⟩
    · rw [same]
    · rw [changed, decimal]
      rfl
  · intro c m mark
    rcases either c with same | ⟨changed, _, _, plain⟩
    · rw [same]
    · rw [changed]
      constructor
      · rintro rfl
        exact absurd mark (by decide)
      · rintro rfl
        rw [mark] at plain
        cases plain

theorem sublist_unifyLineEnds (markdown : List Char) :
    (unifyLineEnds markdown).Sublist markdown := by
  induction markdown using unifyLineEnds.induct with
  | case1 | case2 => exact List.Sublist.refl _
  | case3 c d rest ends ih =>
    rw [unifyLineEnds, if_pos ends, ends.2]
    exact (ih.cons_cons '\n').cons c
  | case4 c d rest other ih =>
    rw [unifyLineEnds, if_neg other]
    exact ih.cons_cons c

/-- A reader finds in a rendered note nested tags without attributes and text of the Markdown, and
finds the same tags where every special character of the Markdown is an `x`. -/
theorem markdownToSafeHtml_safe (beyondAscii : Char → Bool) (markdown : List Char) :
    ∃ tokens, Markup.read dialect (markdownToSafeHtml beyondAscii markdown) = some tokens ∧
      nest allows [] tokens = some [] ∧ (textOf tokens).Sublist markdown ∧
      Markup.read dialect (markdownToSafeHtml beyondAscii (markdown.map neutral)) =
        some (tokens.map (Token.mapLetter neutral)) := by
  have blind := unnoticed_neutral beyondAscii
  have oneLine : ∀ line ∈ (unifyLineEnds markdown).splitOn '\n', '\n' ∉ line := fun _ member =>
    Splitting.not_mem_of_mem_splitOn member
  obtain ⟨held, taken⟩ := Page.sound_foldl beyondAscii Page.sound_start oneLine
  obtain ⟨nested, spoken⟩ := Page.sound_finish held
  refine ⟨(pageOf beyondAscii markdown).tokens, ?_, nested, ?_, ?_⟩
  · rw [markdownToSafeHtml_eq_write, Markup.read_write]
  · exact ((spoken.trans taken).trans (Splitting.sublist_flatten_splitOn '\n' _)).trans
      (sublist_unifyLineEnds markdown)
  · rw [markdownToSafeHtml_eq_write, Markup.read_write, Page.pageOf_map blind,
      Page.tokens_mapText _ blind]

end AverQel.DeepSpace.Notes
