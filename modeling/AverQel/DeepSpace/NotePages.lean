/- digest: A note as nested tags around texts, and that the note renderer writes exactly this. -/
import AverQel.DeepSpace.NoteMarkdown

namespace AverQel.DeepSpace.Notes

open Foundation
open Foundation.Markup (Dialect Token escape nest write)
open Foundation.Text (stripChars)

/-- The elements of a note; a heading has one of six levels. -/
inductive NoteTag where
  | p
  | br
  | pre
  | code
  | ul
  | li
  | h (level : Fin 6)
  deriving DecidableEq

namespace NoteTag

def name : NoteTag → List Char
  | p => "p".toList
  | br => "br".toList
  | pre => "pre".toList
  | code => "code".toList
  | ul => "ul".toList
  | li => "li".toList
  | h level => 'h' :: (toString (level.val + 1)).toList

def named? (text : List Char) : Option NoteTag :=
  [p, br, pre, code, ul, li, h 0, h 1, h 2, h 3, h 4, h 5].find? fun tag => tag.name = text

theorem forall_of_levels {P : NoteTag → Prop} (p : P .p) (br : P .br) (pre : P .pre)
    (code : P .code) (ul : P .ul) (li : P .li) (h : ∀ level, P (.h level)) : ∀ tag, P tag
  | .p => p
  | .br => br
  | .pre => pre
  | .code => code
  | .ul => ul
  | .li => li
  | .h level => h level

/-- The tags of a note, without attributes. -/
def dialect : Dialect NoteTag where
  name := name
  named? := named?
  filled := forall_of_levels (by decide) (by decide) (by decide) (by decide) (by decide)
    (by decide) (by decide)
  clean := forall_of_levels (by decide) (by decide) (by decide) (by decide) (by decide)
    (by decide) (by decide)
  named?_name := forall_of_levels (by decide) (by decide) (by decide) (by decide) (by decide)
    (by decide) (by decide)

/-- What may stand in an element, or outside of all: blocks on lines of their own, items only in a
list, text and line breaks only in a block. -/
def allows : Option NoteTag → Token NoteTag → Bool
  | none, .opens .p | none, .opens .ul | none, .opens .pre | none, .opens (.h _) => true
  | none, .letter c => c = '\n'
  | some .ul, .opens .li => true
  | some .ul, .letter c => c = '\n'
  | some .pre, .opens .code => true
  | some .p, .alone .br | some .code, .alone .br => true
  | some .p, .letter c | some .code, .letter c | some .li, .letter c
  | some (.h _), .letter c => c ≠ '\n'
  | _, _ => false

end NoteTag

open NoteTag (dialect allows)

abbrev NoteToken := Token NoteTag

def textOf (tokens : List NoteToken) : List Char := tokens.filterMap fun token =>
  match token with
  | .letter c => if c = '\n' then none else some c
  | _ => none

def element (tag : NoteTag) (body : List NoteToken) : List NoteToken :=
  [.opens tag] ++ body ++ [.closes tag]

def brokenText (texts : List (List Char)) : List NoteToken :=
  [.alone .br].intercalate (texts.map (List.map .letter))

/-- A note while it is written: the tokens of its lines, and the texts that are not yet written. -/
structure Page where
  lines : List (List NoteToken)
  paragraph : List (List Char)
  (inList inCode : Bool)
  codeLines : List (List Char)

namespace Page

def start : Page := ⟨[], [], false, false, []⟩

def append (p : Page) (line : List NoteToken) : Page := { p with lines := p.lines ++ [line] }

def flushParagraph (p : Page) : Page :=
  if p.paragraph = [] then p
  else { p.append (element .p (brokenText p.paragraph)) with paragraph := [] }

def closeList (p : Page) : Page :=
  if p.inList then { p.append [.closes .ul] with inList := false } else p

def appendCode (p : Page) : Page :=
  p.append (element .pre (element .code (brokenText p.codeLines)))

def appendHeading (level : Nat) (title : List Char) (p : Page) : Page :=
  p.append (element (.h (Fin.ofNat 6 (level - 1))) (title.map .letter))

def openList (p : Page) : Page :=
  if p.inList then p else { p.append [.opens .ul] with inList := true }

def appendItem (item : List Char) (p : Page) : Page :=
  p.append (element .li (item.map .letter))

def readLine (beyondAscii : Char → Bool) (p : Page) (rawLine : List Char) : Page :=
  let line := stripChars rawLine
  if isFence line then
    let p := p.flushParagraph.closeList
    if p.inCode then { p.appendCode with codeLines := [], inCode := false }
    else { p with inCode := true }
  else if p.inCode then { p with codeLines := p.codeLines ++ [rawLine] }
  else if line = [] then p.flushParagraph.closeList
  else
    match heading line with
    | some (level, title) => p.flushParagraph.closeList.appendHeading level title
    | none =>
      match bullet beyondAscii line with
      | some item => p.flushParagraph.openList.appendItem item
      | none =>
        let p := p.closeList
        { p with paragraph := p.paragraph ++ [line] }

def finish (p : Page) : Page :=
  let p := if p.inCode then p.appendCode else p
  p.flushParagraph.closeList

def tokens (p : Page) : List NoteToken := [.letter '\n'].intercalate p.lines

def written (p : Page) : Renderer where
  output := p.lines.map (write dialect)
  paragraph := p.paragraph.map escape
  inList := p.inList
  inCode := p.inCode
  codeLines := p.codeLines.map escape

end Page

def pageOf (beyondAscii : Char → Bool) (markdown : List Char) : Page :=
  (((unifyLineEnds markdown).splitOn '\n').foldl (Page.readLine beyondAscii) .start).finish

variable (p : Page)

theorem write_element (tag : NoteTag) (body : List NoteToken) :
    write dialect (element tag body) =
      '<' :: (tag.name ++ ['>']) ++ write dialect body ++ '<' :: '/' :: (tag.name ++ ['>']) := by
  rw [element, Markup.write_append, Markup.write_append]
  simp [write, Markup.writeToken, Markup.inner, dialect]

theorem write_brokenText (texts : List (List Char)) :
    write dialect (brokenText texts) = Renderer.broken (texts.map escape) := by
  have texts' : (texts.map (List.map Token.letter)).map (write dialect) = texts.map escape := by
    rw [List.map_map]
    exact List.map_congr_left fun text _ => Markup.write_letters dialect text
  rw [brokenText, Markup.write_intercalate, texts']
  rfl

theorem written_append (line : List NoteToken) :
    (p.append line).written = p.written.append (write dialect line) := by
  simp only [Page.append, Page.written, Renderer.append, List.map_append, List.map_singleton]

theorem written_flushParagraph : p.flushParagraph.written = p.written.flushParagraph := by
  by_cases empty : p.paragraph = []
  · have none : p.written.paragraph = [] := by rw [Page.written, empty, List.map_nil]
    rw [Page.flushParagraph, Renderer.flushParagraph, if_pos empty, if_pos none]
  · have some_ : p.written.paragraph ≠ [] := by simpa [Page.written] using empty
    rw [Page.flushParagraph, Renderer.flushParagraph, if_neg empty, if_neg some_]
    simp only [Page.written, Page.append, Renderer.append, List.map_append, List.map_singleton,
      write_element, write_brokenText]
    rfl

theorem written_closeList : p.closeList.written = p.written.closeList := by
  unfold Page.closeList Renderer.closeList
  cases open_ : p.inList with
  | false =>
    rw [if_neg (by decide), if_neg (by simp [Page.written, open_])]
  | true =>
    rw [if_pos rfl, if_pos (by simp [Page.written, open_])]
    simp only [Page.written, Page.append, Renderer.append, List.map_append]
    rfl

theorem written_openList : p.openList.written = p.written.openList := by
  unfold Page.openList Renderer.openList
  cases open_ : p.inList with
  | true =>
    rw [if_pos rfl, if_pos (by simp [Page.written, open_])]
  | false =>
    rw [if_neg (by decide), if_neg (by simp [Page.written, open_])]
    simp only [Page.written, Page.append, Renderer.append, List.map_append]
    rfl

theorem written_appendCode : p.appendCode.written = p.written.appendCode := by
  rw [Page.appendCode, written_append, Renderer.appendCode, write_element, write_element,
    write_brokenText]
  congr 1
  simp [NoteTag.name, Page.written]

theorem written_appendItem (item : List Char) :
    (p.appendItem item).written = p.written.appendItem item := by
  rw [Page.appendItem, written_append, Renderer.appendItem, write_element, Markup.write_letters]
  rfl

theorem name_heading : ∀ level < 7, 1 ≤ level →
    NoteTag.name (.h (Fin.ofNat 6 (level - 1))) = 'h' :: (toString level).toList := by
  decide

theorem written_appendHeading {level : Nat} (low : 1 ≤ level) (high : level ≤ 6)
    (title : List Char) :
    (p.appendHeading level title).written = p.written.appendHeading level title := by
  rw [Page.appendHeading, written_append, Renderer.appendHeading, write_element,
    Markup.write_letters, name_heading level (Nat.lt_succ_of_le high) low]
  congr 1
  simp

theorem level_of_heading {line title : List Char} {level : Nat}
    (found : heading line = some (level, title)) : 1 ≤ level ∧ level ≤ 6 := by
  unfold heading at found
  dsimp only at found
  split_ifs at found with bounds
  · obtain ⟨_, _, same⟩ := Option.map_eq_some_iff.mp found
    obtain ⟨rfl, _⟩ := Prod.mk.inj same
    exact bounds

theorem written_readLine (beyondAscii : Char → Bool) (rawLine : List Char) :
    (p.readLine beyondAscii rawLine).written = p.written.readLine beyondAscii rawLine := by
  have coding : p.written.inCode = p.inCode := rfl
  have closed : p.flushParagraph.closeList.written = p.written.flushParagraph.closeList := by
    rw [written_closeList, written_flushParagraph]
  have closedCode : p.written.flushParagraph.closeList.inCode =
      p.flushParagraph.closeList.inCode := by
    rw [← closed]
    rfl
  unfold Page.readLine Renderer.readLine
  dsimp only
  rw [coding, closedCode]
  split_ifs with fence ends code blank
  · rw [← closed, ← written_appendCode]
    rfl
  · rw [← closed]
    rfl
  · simp only [Page.written, List.map_append, List.map_singleton]
  · exact closed
  · cases title : heading (stripChars rawLine) with
    | some found =>
      obtain ⟨low, high⟩ := level_of_heading title
      show (p.flushParagraph.closeList.appendHeading found.1 found.2).written = _
      rw [written_appendHeading _ low high, closed]
    | none =>
      dsimp only
      cases entry : bullet beyondAscii (stripChars rawLine) with
      | some =>
        dsimp only
        rw [written_appendItem, written_openList, written_flushParagraph]
      | none =>
        dsimp only
        rw [← written_closeList]
        simp only [Page.written, List.map_append, List.map_singleton]

theorem written_finish : p.finish.written = p.written.finish := by
  have coding : p.written.inCode = p.inCode := rfl
  unfold Page.finish Renderer.finish
  dsimp only
  rw [coding, written_closeList, written_flushParagraph]
  split_ifs with code
  · rw [written_appendCode]
  · rfl

theorem written_foldl (beyondAscii : Char → Bool) (lines : List (List Char)) :
    (lines.foldl (Page.readLine beyondAscii) p).written =
      lines.foldl (Renderer.readLine beyondAscii) p.written := by
  induction lines generalizing p with
  | nil => rfl
  | cons rawLine lines ih => rw [List.foldl_cons, List.foldl_cons, ih, written_readLine]

theorem markdownToSafeHtml_eq_write (beyondAscii : Char → Bool) (markdown : List Char) :
    markdownToSafeHtml beyondAscii markdown =
      write dialect (pageOf beyondAscii markdown).tokens := by
  have started : Page.start.written = Renderer.start := rfl
  have output (q : Page) : q.written.output = q.lines.map (write dialect) := rfl
  rw [Page.tokens, Markup.write_intercalate, pageOf, ← output, written_finish, written_foldl,
    started]
  rfl

end AverQel.DeepSpace.Notes
