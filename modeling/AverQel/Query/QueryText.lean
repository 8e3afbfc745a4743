/- digest: What the retrieval reads off the text of a query: its kind and its section names. -/
import AverQel.Foundation.Text

namespace AverQel.Query

open Foundation.Text (isSpace strip stripChars)

/-- The character tables behind `\w`, `\d`, `str.lower` and case-insensitive matching. -/
structure CharTables where
  isWord : Char → Bool
  isDigit : Char → Bool
  lower : List Char → List Char
  sameLetter : Char → Char → Bool

def CharTables.ascii : CharTables where
  isWord c := c.isAlphanum || c == '_'
  isDigit := Char.isDigit
  lower := List.map Char.toLower
  sameLetter c d := c.toLower == d.toLower

inductive QueryType where
  | factual
  | comparison
  | summarization
  | exploratory
  | verification
  | synthesis
  | action
  deriving DecidableEq, Repr

namespace CharTables

variable (tables : CharTables)

/-- `\b` between two neighbouring characters. -/
def boundary (previous next : Option Char) : Bool :=
  previous.any tables.isWord != next.any tables.isWord

def phraseAtHead (phrases : List String) (previous : Option Char) (text : List Char) : Bool :=
  tables.boundary previous text.head? &&
    phrases.any (fun phrase =>
      phrase.toList.isPrefixOf text &&
        tables.boundary phrase.toList.getLast? (text.drop phrase.toList.length).head?)

/-- `\b(…|…)\b` somewhere in the text. -/
def containsPhrase (phrases : List String) (previous : Option Char) : List Char → Bool
  | [] => tables.phraseAtHead phrases previous []
  | c :: rest =>
    tables.phraseAtHead phrases previous (c :: rest) || containsPhrase phrases (some c) rest

/-- `^…\b` -/
def startsWithPhrase (phrases : List String) (text : List Char) : Bool :=
  phrases.any (fun phrase =>
    phrase.toList.isPrefixOf text &&
      tables.boundary phrase.toList.getLast? (text.drop phrase.toList.length).head?)

/-- `re.sub(r"\s+", " ", …)` -/
def collapseSpaces : List Char → List Char
  | [] => []
  | c :: rest =>
    if isSpace c then
      if rest.head?.any isSpace then collapseSpaces rest else ' ' :: collapseSpaces rest
    else c :: collapseSpaces rest

def normalize (query : String) : List Char :=
  collapseSpaces (tables.lower (stripChars query.toList))

/-- `QueryClassifier.classify` -/
def classify (query : String) : QueryType :=
  let q := tables.normalize query
  let has (phrases : List String) := tables.containsPhrase phrases none q
  let starts (phrases : List String) := tables.startsWithPhrase phrases q
  if q = [] then .factual
  else if has ["crawl", "index", "sync", "refresh", "update", "fetch", "pull from",
      "load data from", "start indexing"] ||
      has ["github", "google drive", "notion", "slack", "web crawler", "website", "url", "http",
        "https"] then .action
  else if has ["compare", "comparison", "difference", "differences", "versus", "vs", "vs.",
      "better", "worse", "similarities", "contrast"] then .comparison
  else if has ["summarize", "summary", "tldr", "tl;dr", "overview", "briefly", "gist",
      "short summary"] ||
      starts ["what is the main idea", "can you summarize", "give me a summary"] then .summarization
  else if has ["is it true", "verify", "validate", "prove", "fact-check", "fact check",
      "does the document say", "is this correct"] ||
      starts ["is this", "is it", "does the document", "does this"] then .verification
  else if has ["synthesize", "combine", "connect", "relate", "relationship between",
      "implications of", "overall impact", "big picture"] then .synthesis
  else if has ["why", "explain", "how come", "explore", "elaborate", "details on",
      "tell me more"] then .exploratory
  else .factual

def dropWord : List Char → List Char → Option (List Char)
  | [], text => some text
  | _ :: _, [] => none
  | w :: word, c :: text => if tables.sameLetter w c then dropWord word text else none

/-- `\d+(?:\.\d+)*\b` at the head of the text: the longest dotted number before a boundary. The
groups read so far are known to end before a boundary or not. -/
def dottedNumber (fuel : Nat) (text : List Char) : Option (List Char) :=
  let digits := text.takeWhile tables.isDigit
  let rest := text.dropWhile tables.isDigit
  if digits = [] then none
  else
    let here := if tables.boundary digits.getLast? rest.head? then some digits else none
    match fuel, rest with
    | fuel + 1, '.' :: more =>
      match dottedNumber fuel more with
      | some longer => some (digits ++ '.' :: longer)
      | none => here
    | _, _ => here

def isRoman (c : Char) : Bool :=
  "ivxlcdm".toList.any (fun letter => tables.sameLetter letter c)

/-- `[ivxlcdm]+\b` at the head of the text. -/
def romanNumber (text : List Char) : Option (List Char) :=
  let letters := text.takeWhile tables.isRoman
  if letters ≠ [] ∧ tables.boundary letters.getLast? (text.dropWhile tables.isRoman).head? then
    some letters
  else none

/-- A match of `_STRUCTURAL_SECTION_QUERY_RE` at the head of the text: label, number and length. -/
def sectionAtHead (previous : Option Char) (text : List Char) :
    Option (List Char × List Char × Nat) :=
  if tables.boundary previous text.head? then
    ["unit", "chapter", "section"].findSome? (fun label =>
      (tables.dropWord label.toList text).bind (fun rest =>
        let number := rest.dropWhile isSpace
        if rest.length = number.length then none
        else ((tables.dottedNumber number.length number).or (tables.romanNumber number)).map
          (fun value => (text.take label.length, value,
            text.length - number.length + value.length))))
  else none

/-- `finditer`: after a match the search goes on behind it. -/
def sectionMatches (previous : Option Char) (skip : Nat) :
    List Char → List (List Char × List Char)
  | [] => []
  | c :: rest =>
    match skip with
    | skip + 1 => sectionMatches (some c) skip rest
    | 0 =>
      match tables.sectionAtHead previous (c :: rest) with
      | some (label, value, length) => (label, value) :: sectionMatches (some c) (length - 1) rest
      | none => sectionMatches (some c) 0 rest

/-- `_extract_structural_section_terms` -/
def extractStructuralSectionTerms (query : String) : List String :=
  ((tables.sectionMatches none 0 query.toList).map (fun found =>
    String.ofList (tables.lower found.1 ++ ' ' :: tables.lower found.2))).eraseDups

end CharTables

end AverQel.Query
