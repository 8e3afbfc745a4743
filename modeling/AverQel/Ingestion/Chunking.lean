/- digest: Cutting an extracted text into overlapping chunks, and why the cutting stops. -/
import AverQel.DeepSpace.ReasoningPrivacy
import AverQel.Foundation.Loops
import AverQel.Providers.ResponsesParsing
import AverQel.System.TextAdmission

namespace AverQel.Ingestion.Chunking

open DeepSpace (ignoringCase literal)
open Foundation Loops
open Foundation.Text (isSpace stripChars)
open Providers (Fields Json JsonText asInt truthy)
open AverQel.System (setField)

/-- The case maps and the decimal digits of Unicode, and `str` of a value. -/
structure Environment where
  text : JsonText
  isDecimal : Char → Bool
  lower : List Char → List Char
  capitalize : List Char → List Char

structure ChunkPart where
  chunkIndex : Nat
  content : List Char
  (charStart charEnd : Nat)
  metadata : Fields

/-- The sizes that `chunk` accepts. -/
structure Sizes where
  (chunkSize overlap : Nat)
  minLength : Int
  fits : overlap < chunkSize

def checkSizes (chunkSize overlap minLength : Int) : Except String Sizes :=
  if small : chunkSize ≤ 0 then .error "chunk_size must be positive"
  else if negative : overlap < 0 then .error "overlap must be non-negative"
  else if wide : chunkSize ≤ overlap then .error "overlap must be less than chunk_size"
  else .ok ⟨chunkSize.toNat, overlap.toNat, minLength, by omega⟩

/-- `mode` and `source_metadata` of a call. -/
structure Labels where
  mode : String
  sourceMetadata : Fields

/-- `\\n{2,}` -/
def blankLines : Pattern Char := ⟨.atLeast 2 (.one fun c => c = '\n'), .empty, id⟩

def paragraphsFrom (t : List Char) : Nat → List (Match Char) → List (Nat × List Char)
  | start, [] => if start < t.length then [(start, t.drop start)] else []
  | start, found :: more =>
    (start, (t.drop start).take (found.start - start)) :: paragraphsFrom t found.stop more

/-- `get_paragraphs`: where each paragraph begins, and its text. -/
def getParagraphs (t : List Char) : List (Nat × List Char) :=
  paragraphsFrom t 0 (blankLines.finditer t)

structure Headers where
  (h1 h2 h3 : List Char)

/-- `^(?:\\d+\\.?\\s+)?(References|Bibliography|Appendix|Abstract|Introduction)$` of a line, and
the group. -/
def sectionName (env : Environment) (line : List Char) : Option (List Char) :=
  let number : Regex Char := .optional (.all [.atLeast 1 (.one env.isDecimal),
    .optional (literal "."), .atLeast 1 (.one isSpace)])
  let name : Regex Char := .any (["References", "Bibliography", "Appendix", "Abstract",
    "Introduction"].map ignoringCase)
  ((number.ends ⟨[], line⟩).find? fun middle => (name.ends middle).any (·.rest.isEmpty)).map (·.rest)

/-- The headers that hold behind a text, which may begin with one. -/
def trackHeaders (env : Environment) (stripped : List Char) (headers : Headers) : Headers :=
  let firstLine := stripChars (stripped.takeWhile (· ≠ '\n'))
  if "# ".toList.isPrefixOf firstLine then ⟨stripChars (firstLine.drop 2), [], []⟩
  else if "## ".toList.isPrefixOf firstLine then
    { headers with h2 := stripChars (firstLine.drop 3), h3 := [] }
  else if "### ".toList.isPrefixOf firstLine then
    { headers with h3 := stripChars (firstLine.drop 4) }
  else
    match sectionName env firstLine with
    | some name => ⟨env.capitalize name, [], []⟩
    | none => headers

/-- `_build_metadata` -/
def buildMetadata (labels : Labels) (base : Fields) : Fields :=
  labels.sourceMetadata.foldl (fun metadata field => setField field.1 field.2 metadata)
    (setField "mode" (.string labels.mode.toList) base)

def addHeader (env : Environment) (name : String) (header : List Char) (metadata : Fields) : Fields :=
  if header ≠ [] ∧ ((metadata.lookup name).any (truthy env.text)) = false then
    setField name (.string header) metadata
  else metadata

def chunkMetadata (env : Environment) (labels : Labels) (headers : Headers) : Fields :=
  addHeader env "header_3" headers.h3 (addHeader env "header_2" headers.h2
    (addHeader env "header_1" headers.h1
      (buildMetadata labels [("strategy", .string "semantic".toList)])))

section Splitting

variable (sizes : Sizes)

/-- `\\.[\\s\\n]` -/
def sentenceEnd : Pattern Char := ⟨literal ".", .one fun c => isSpace c || c = '\n', id⟩

/-- `\\n` -/
def lineEnd : Pattern Char := ⟨.empty, .one fun c => c = '\n', id⟩

def lastStop (pattern : Pattern Char) (region : List Char) (middle : Nat) : Option Nat :=
  ((pattern.finditer region).reverse.find? fun found => middle < found.start).map (·.stop)

/-- `split_at` -/
def splitAt (buffer : List Char) : Nat :=
  let region := buffer.take (sizes.chunkSize + sizes.overlap)
  let middle := sizes.chunkSize / 2
  match lastStop sentenceEnd region middle with
  | some stop => stop
  | none =>
    match lastStop lineEnd region middle with
    | some stop => stop
    | none => sizes.chunkSize

/-- `c_text` inside the loop. -/
def cText (buffer : List Char) : List Char := stripChars (buffer.take (splitAt sizes buffer))

def remainder (buffer : List Char) : List Char := stripChars (buffer.drop (splitAt sizes buffer))

/-- `c_text[-overlap:]` -/
def carried (text : List Char) : List Char := text.drop (text.length - sizes.overlap)

def nextBuffer (buffer : List Char) : List Char :=
  if 0 < sizes.overlap ∧ sizes.overlap < (cText sizes buffer).length then
    carried sizes (cText sizes buffer) ++ '\n' :: remainder sizes buffer
  else remainder sizes buffer

end Splitting

/-- The variables of the loop; `chunk_start` is none where the code has `-1`. -/
structure Locals where
  parts : List ChunkPart
  headers : Headers
  index : Nat
  currentChunkText : List Char
  chunkStart : Option Nat

section Chunk

variable (env : Environment) (sizes : Sizes) (labels : Labels)

def Locals.part (locals : Locals) (start : Nat) (content : List Char) : ChunkPart where
  chunkIndex := locals.index
  content := content
  charStart := locals.chunkStart.getD start
  charEnd := locals.chunkStart.getD start + content.length
  metadata := chunkMetadata env labels locals.headers

/-- One turn of the `while` loop. -/
def splitOff (start : Nat) (locals : Locals) : Locals :=
  let content := cText sizes locals.currentChunkText
  let kept := sizes.minLength ≤ content.length
  { parts := if kept then locals.parts ++ [locals.part env labels start content] else locals.parts
    headers := locals.headers
    index := if kept then locals.index + 1 else locals.index
    currentChunkText := nextBuffer sizes locals.currentChunkText
    chunkStart := none }

/-- `len(current_chunk_text) >= chunk_size` -/
def isLong (locals : Locals) : Bool := sizes.chunkSize ≤ locals.currentChunkText.length

def turns (buffer : List Char) : Nat := 2 * buffer.length + 1

def splitLoop (start : Nat) (locals : Locals) : Locals :=
  loop (isLong sizes) (splitOff env sizes labels start) (turns locals.currentChunkText) locals

def addParagraph (start : Nat) (pText : List Char) (locals : Locals) : Locals :=
  { locals with
    headers := trackHeaders env (stripChars pText) locals.headers
    chunkStart := some (locals.chunkStart.getD start)
    currentChunkText := locals.currentChunkText ++ (pText ++ ['\n', '\n']) }

def takeParagraph (locals : Locals) (paragraph : Nat × List Char) : Locals :=
  if stripChars paragraph.2 = [] then locals
  else splitLoop env sizes labels paragraph.1 (addParagraph env paragraph.1 paragraph.2 locals)

def finish (start : Nat) (locals : Locals) : List ChunkPart :=
  let content := stripChars locals.currentChunkText
  if locals.currentChunkText ≠ [] ∧
      (sizes.minLength ≤ content.length ∨ locals.parts.isEmpty = true ∧ content ≠ []) then
    locals.parts ++ [locals.part env labels start content]
  else locals.parts

def initial : Locals := ⟨[], ⟨[], [], []⟩, 0, [], none⟩

/-- `start` of the last paragraph that was looked at. -/
def lastStart (paragraphs : List (Nat × List Char)) : Nat := (paragraphs.getLast?.map (·.1)).getD 0

/-- `chunk`, once the sizes are accepted. -/
def chunkText (text : List Char) : List ChunkPart :=
  finish env sizes labels (lastStart (getParagraphs text))
    ((getParagraphs text).foldl (takeParagraph env sizes labels) initial)

end Chunk

def chunk (env : Environment) (text : List Char) (chunkSize overlap minLength : Int)
    (labels : Labels) : Except String (List ChunkPart) :=
  if text = [] then .ok []
  else do
    let sizes ← checkSizes chunkSize overlap minLength
    return chunkText env sizes labels text

variable (env : Environment)

/-- `_mode_from_block_type` -/
def modeFromBlockType (blockType : List Char) : String :=
  if blockType = "table".toList ∨ blockType = "spreadsheet".toList then "table"
  else if blockType = "slide".toList ∨ blockType = "title".toList then "slide"
  else if blockType = "code".toList then "code"
  else "prose"

/-- `isinstance(value, int | float)` -/
def isNumber : Json → Bool
  | .bool _ => true
  | .number _ => true
  | _ => false

def textOf (block : Fields) : List Char :=
  stripChars (((block.lookup "text").map env.text.str).getD [])

def blockTypeOf (block : Fields) : List Char :=
  env.lower (((block.lookup "block_type").map env.text.str).getD "prose".toList)

def setHeader (name : String) (header : List Char) (metadata : Fields) : Fields :=
  if header = [] then metadata else setField name (.string header) metadata

def setCoordinate (coordinates metadata : Fields) (key : String) : Fields :=
  match coordinates.lookup key with
  | some value =>
    if isNumber value then setField ("coord_" ++ key) (.string (env.text.str value)) metadata
    else metadata
  | none => metadata

/-- `base_meta` -/
def blockMetadata (block : Fields) (headers : Headers) : Fields :=
  let metadata := setHeader "header_3" headers.h3 (setHeader "header_2" headers.h2
    (setHeader "header_1" headers.h1 [("block_type", .string (blockTypeOf env block))]))
  let metadata :=
    match block.lookup "page_number" with
    | some page => if (asInt (some page)).isSome then setField "page_number" page metadata else metadata
    | none => metadata
  match block.lookup "coordinates" with
  | some (.object coordinates) => ["x", "y", "w", "h"].foldl (setCoordinate env coordinates) metadata
  | _ => metadata

structure Layout where
  ordered : List ChunkPart
  (index charCursor : Nat)
  headers : Headers

def Layout.place (layout : Layout) (part : ChunkPart) (i : Nat) : ChunkPart :=
  { part with
    chunkIndex := layout.index + i
    charStart := layout.charCursor + part.charStart
    charEnd := layout.charCursor + part.charEnd }

def takeBlock (chunkSize overlap minLength : Int) (layout : Layout) (block : Fields) :
    Except String Layout :=
  let text := textOf env block
  if text = [] then .ok layout
  else do
    let headers := trackHeaders env text layout.headers
    let nested ← chunk env text chunkSize overlap minLength
      ⟨modeFromBlockType (blockTypeOf env block), blockMetadata env block headers⟩
    return {
      ordered := layout.ordered ++ nested.mapIdx fun i part => layout.place part i
      index := layout.index + nested.length
      charCursor := layout.charCursor + (text.length + 1)
      headers := headers }

def chunkStructured (blocks : List Fields) (chunkSize overlap minLength : Int) :
    Except String (List ChunkPart) := do
  let layout ← blocks.foldlM (takeBlock env chunkSize overlap minLength)
    ⟨[], 0, 0, ⟨[], [], []⟩⟩
  return layout.ordered

end AverQel.Ingestion.Chunking
