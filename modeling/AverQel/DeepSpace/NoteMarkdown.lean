/- digest: How the note tool turns its Markdown into HTML, line by line. -/
import AverQel.Foundation.Markup
import AverQel.Foundation.Text

namespace AverQel.DeepSpace.Notes

open Foundation
open Foundation.Markup (escape)
open Foundation.Text (isSpace stripChars)

/-- `replace("\r\n", "\n")` -/
def unifyLineEnds : List Char → List Char
  | [] => []
  | [c] => [c]
  | c :: d :: rest =>
    if c = '\r' ∧ d = '\n' then '\n' :: unifyLineEnds rest else c :: unifyLineEnds (d :: rest)

/-- `\s+(.+)$`, where the text does not end in a blank. -/
def behindBlanks : List Char → Option (List Char)
  | [] => none
  | c :: rest =>
    let text := rest.dropWhile isSpace
    if isSpace c ∧ text ≠ [] then some text else none

/-- `^(#{1,6})\s+(.+)$` on a stripped line: the level and the title. -/
def heading (line : List Char) : Option (Nat × List Char) :=
  let level := (line.takeWhile fun c => c = '#').length
  if 1 ≤ level ∧ level ≤ 6 then
    (behindBlanks (line.dropWhile fun c => c = '#')).map fun title => (level, title)
  else none

/-- `\d`; the digits beyond ASCII are a table. -/
def isDecimal (beyondAscii : Char → Bool) (c : Char) : Bool :=
  c.isDigit || (127 < c.toNat && beyondAscii c)

/-- `^(?:[-*]|\d+\.)\s+(.+)$` on a stripped line. -/
def bullet (beyondAscii : Char → Bool) (line : List Char) : Option (List Char) :=
  match line with
  | [] => none
  | c :: rest =>
    if c = '-' ∨ c = '*' then behindBlanks rest
    else if isDecimal beyondAscii c then
      match rest.dropWhile (isDecimal beyondAscii) with
      | [] => none
      | dot :: rest => if dot = '.' then behindBlanks rest else none
    else none

def isFence (line : List Char) : Bool := "```".toList.isPrefixOf line

/-- The local state of `_markdown_to_safe_html`. -/
structure Renderer where
  (output paragraph : List (List Char))
  (inList inCode : Bool)
  codeLines : List (List Char)
  deriving DecidableEq

namespace Renderer

def start : Renderer := ⟨[], [], false, false, []⟩

def append (s : Renderer) (line : List Char) : Renderer := { s with output := s.output ++ [line] }

def broken (texts : List (List Char)) : List Char := "<br/>".toList.intercalate texts

def flushParagraph (s : Renderer) : Renderer :=
  if s.paragraph = [] then s
  else
    { s.append ("<p>".toList ++ broken s.paragraph ++ "</p>".toList) with paragraph := [] }

def closeList (s : Renderer) : Renderer :=
  if s.inList then { s.append "</ul>".toList with inList := false } else s

def appendCode (s : Renderer) : Renderer :=
  s.append ("<pre><code>".toList ++ broken s.codeLines ++ "</code></pre>".toList)

def appendHeading (level : Nat) (title : List Char) (s : Renderer) : Renderer :=
  s.append ("<h".toList ++ (toString level).toList ++ ">".toList ++ escape title ++
    "</h".toList ++ (toString level).toList ++ ">".toList)

def openList (s : Renderer) : Renderer :=
  if s.inList then s else { s.append "<ul>".toList with inList := true }

def appendItem (item : List Char) (s : Renderer) : Renderer :=
  s.append ("<li>".toList ++ escape item ++ "</li>".toList)

/-- One line of the loop. -/
def readLine (beyondAscii : Char → Bool) (s : Renderer) (rawLine : List Char) : Renderer :=
  let line := stripChars rawLine
  if isFence line then
    let s := s.flushParagraph.closeList
    if s.inCode then { s.appendCode with codeLines := [], inCode := false }
    else { s with inCode := true }
  else if s.inCode then { s with codeLines := s.codeLines ++ [escape rawLine] }
  else if line = [] then s.flushParagraph.closeList
  else
    match heading line with
    | some (level, title) => s.flushParagraph.closeList.appendHeading level title
    | none =>
      match bullet beyondAscii line with
      | some item => s.flushParagraph.openList.appendItem item
      | none =>
        let s := s.closeList
        { s with paragraph := s.paragraph ++ [escape line] }

def finish (s : Renderer) : Renderer :=
  let s := if s.inCode then s.appendCode else s
  s.flushParagraph.closeList

end Renderer

/-- `_markdown_to_safe_html` -/
def markdownToSafeHtml (beyondAscii : Char → Bool) (markdown : List Char) : List Char :=
  let lines := (unifyLineEnds markdown).splitOn '\n'
  ['\n'].intercalate (lines.foldl (Renderer.readLine beyondAscii) .start).finish.output

/-- A fence that is not closed behind a list, whose line is not a tag. -/
example : markdownToSafeHtml (fun _ => false) "- a\r\n```\r\n<b>".toList =
    "<ul>\n<li>a</li>\n</ul>\n<pre><code>&lt;b&gt;</code></pre>".toList := by decide

end AverQel.DeepSpace.Notes
