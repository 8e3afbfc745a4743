/- digest: Texts with tags: how their tokens are written and read back, and how the tags nest. -/
import AverQel.Foundation.Totals

namespace AverQel.Foundation.Markup

universe u

/-- The name of the entity that stands for a character with a meaning of its own. -/
def entity? (c : Char) : Option (List Char) :=
  if c = '&' then some "amp".toList
  else if c = '<' then some "lt".toList
  else if c = '>' then some "gt".toList
  else if c = '\x22' then some "quot".toList
  else if c = '\x27' then some "#x27".toList
  else none

def escapeChar (c : Char) : List Char :=
  match entity? c with
  | none => [c]
  | some name => '&' :: (name ++ [';'])

/-- `html.escape` -/
def escape (text : List Char) : List Char := text.flatMap escapeChar

def namedChar? (name : List Char) : Option Char :=
  ['&', '<', '>', '\x22', '\x27'].find? fun c => entity? c = some name

theorem entity?_eq_some {c : Char} {name : List Char} (special : entity? c = some name) :
    namedChar? name = some c ∧ ';' ∉ name := by
  unfold entity? at special
  split_ifs at special with amp lt gt quot apostrophe
  · obtain rfl := Option.some.inj special
    subst amp
    decide
  · obtain rfl := Option.some.inj special
    subst lt
    decide
  · obtain rfl := Option.some.inj special
    subst gt
    decide
  · obtain rfl := Option.some.inj special
    subst quot
    decide
  · obtain rfl := Option.some.inj special
    subst apostrophe
    decide

inductive Token (τ : Type u) where
  | opens (tag : τ)
  | closes (tag : τ)
  | alone (tag : τ)
  | letter (c : Char)

def Token.mapLetter {τ : Type u} (f : Char → Char) : Token τ → Token τ
  | .letter c => .letter (f c)
  | token => token

/-- The tags of a language. They are written without attributes. -/
structure Dialect (τ : Type u) where
  name : τ → List Char
  named? : List Char → Option τ
  filled : ∀ tag, name tag ≠ []
  clean : ∀ tag, '>' ∉ name tag ∧ '/' ∉ name tag
  named?_name : ∀ tag, named? (name tag) = some tag

variable {τ : Type u} (d : Dialect τ)

def inner : Token τ → List Char
  | .opens tag => d.name tag
  | .closes tag => '/' :: d.name tag
  | .alone tag => d.name tag ++ ['/']
  | .letter _ => []

def writeToken : Token τ → List Char
  | .letter c => escapeChar c
  | token => '<' :: (inner d token ++ ['>'])

def write (tokens : List (Token τ)) : List Char := tokens.flatMap (writeToken d)

def width (tokens : List (Token τ)) : Nat := total (fun token => (writeToken d token).length) tokens

theorem length_write (tokens : List (Token τ)) : (write d tokens).length = width d tokens := by
  induction tokens with
  | nil => rfl
  | cons token tokens ih =>
    rw [write, List.flatMap_cons, List.length_append, width, total_cons]
    rw [write] at ih
    rw [ih, width]

theorem write_append (tokens more : List (Token τ)) :
    write d (tokens ++ more) = write d tokens ++ write d more := List.flatMap_append

theorem write_cons (token : Token τ) (tokens : List (Token τ)) :
    write d (token :: tokens) = writeToken d token ++ write d tokens := List.flatMap_cons

theorem write_intercalate (sep : List (Token τ)) (parts : List (List (Token τ))) :
    write d (sep.intercalate parts) = (write d sep).intercalate (parts.map (write d)) := by
  induction parts with
  | nil => rfl
  | cons first rest ih =>
    cases rest with
    | nil => rw [List.map_singleton, List.intercalate_singleton, List.intercalate_singleton]
    | cons =>
      rw [List.intercalate_cons_cons, write_append, write_append, ih]
      exact List.intercalate_cons_cons.symm

theorem write_letters (text : List Char) : write d (text.map .letter) = escape text := by
  rw [write, List.flatMap_map]
  rfl

/-- Where a reader stands: in a text, behind a `<`, or behind an `&`. -/
inductive Place where
  | text
  | tag (seen : List Char)
  | entity (seen : List Char)

def tagToken? (text : List Char) : Option (Token τ) :=
  if text.head? = some '/' then (d.named? text.tail).map .closes
  else if text.getLast? = some '/' then (d.named? text.dropLast).map .alone
  else (d.named? text).map .opens

/-- Read a text to its end. A tag outside the language, an unknown entity and a bare special
character have no reading. -/
def readFrom : Place → List Char → Option (List (Token τ))
  | .text, [] => some []
  | .tag _, [] => none
  | .entity _, [] => none
  | .text, c :: rest =>
    if c = '<' then readFrom (.tag []) rest
    else if c = '&' then readFrom (.entity []) rest
    else if (entity? c).isSome then none
    else (readFrom .text rest).map (.letter c :: ·)
  | .tag seen, c :: rest =>
    if c = '>' then (tagToken? d seen).bind fun token => (readFrom .text rest).map (token :: ·)
    else readFrom (.tag (seen ++ [c])) rest
  | .entity seen, c :: rest =>
    if c = ';' then (namedChar? seen).bind fun special =>
      (readFrom .text rest).map (.letter special :: ·)
    else readFrom (.entity (seen ++ [c])) rest

def read (text : List Char) : Option (List (Token τ)) := readFrom d .text text

theorem readFrom_tag {name : List Char} (clean : '>' ∉ name) (seen rest : List Char) :
    readFrom d (.tag seen) (name ++ '>' :: rest) =
      (tagToken? d (seen ++ name)).bind fun token => (readFrom d .text rest).map (token :: ·) := by
  induction name generalizing seen with
  | nil => rw [List.nil_append, readFrom, if_pos rfl, List.append_nil]
  | cons c name ih =>
    rw [List.mem_cons, not_or] at clean
    rw [List.cons_append, readFrom, if_neg (Ne.symm clean.1), ih clean.2, List.append_assoc]
    rfl

theorem readFrom_entity {name : List Char} (clean : ';' ∉ name) (seen rest : List Char) :
    readFrom d (.entity seen) (name ++ ';' :: rest) =
      (namedChar? (seen ++ name)).bind fun special =>
        (readFrom d .text rest).map (.letter special :: ·) := by
  induction name generalizing seen with
  | nil => rw [List.nil_append, readFrom, if_pos rfl, List.append_nil]
  | cons c name ih =>
    rw [List.mem_cons, not_or] at clean
    rw [List.cons_append, readFrom, if_neg (Ne.symm clean.1), ih clean.2, List.append_assoc]
    rfl

theorem head?_name_ne (tag : τ) (rest : List Char) :
    (d.name tag ++ rest).head? ≠ some '/' := by
  cases name : d.name tag with
  | nil => exact absurd name (d.filled tag)
  | cons c =>
    intro slash
    have first : c = '/' := Option.some.inj slash
    have clean := (d.clean tag).2
    rw [name, first] at clean
    exact clean List.mem_cons_self

theorem tagToken?_inner : ∀ token : Token τ, (∀ c, token ≠ .letter c) →
    tagToken? d (inner d token) = some token
  | .opens tag, _ => by
    have first : (d.name tag).head? ≠ some '/' := by
      simpa using head?_name_ne d tag []
    have last : (d.name tag).getLast? ≠ some '/' := fun slash =>
      (d.clean tag).2 (List.mem_of_getLast? slash)
    rw [inner, tagToken?, if_neg first, if_neg last, d.named?_name]
    rfl
  | .closes tag, _ => by
    rw [inner, tagToken?, if_pos List.head?_cons, List.tail_cons, d.named?_name]
    rfl
  | .alone tag, _ => by
    rw [inner, tagToken?, if_neg (head?_name_ne d tag _), if_pos List.getLast?_concat,
      List.dropLast_concat, d.named?_name]
    rfl
  | .letter c, mark => absurd rfl (mark c)

theorem not_mem_inner : ∀ token : Token τ, '>' ∉ inner d token
  | .opens tag => (d.clean tag).1
  | .closes tag => by
    intro member
    rcases List.mem_cons.mp member with slash | name
    · exact absurd slash (by decide)
    · exact (d.clean tag).1 name
  | .alone tag => by
    intro member
    rcases List.mem_append.mp member with name | slash
    · exact (d.clean tag).1 name
    · exact absurd (List.mem_singleton.mp slash) (by decide)
  | .letter _ => List.not_mem_nil

theorem readFrom_mark {token : Token τ} (mark : ∀ c, token ≠ .letter c) (rest : List Char) :
    readFrom d .text ('<' :: (inner d token ++ ['>']) ++ rest) =
      (readFrom d .text rest).map (token :: ·) := by
  rw [List.cons_append, readFrom, if_pos rfl, List.append_assoc, List.singleton_append,
    readFrom_tag d (not_mem_inner d token), List.nil_append, tagToken?_inner d token mark]
  rfl

theorem readFrom_letter (c : Char) (rest : List Char) :
    readFrom d .text (escapeChar c ++ rest) = (readFrom d .text rest).map (.letter c :: ·) := by
  unfold escapeChar
  cases special : entity? c with
  | none =>
    have plain : c ≠ '<' ∧ c ≠ '&' := by
      constructor
      · rintro rfl
        exact absurd special (by decide)
      · rintro rfl
        exact absurd special (by decide)
    show readFrom d .text (c :: rest) = _
    rw [readFrom, if_neg plain.1, if_neg plain.2, special]
    rfl
  | some name =>
    obtain ⟨named, clean⟩ := entity?_eq_some special
    show readFrom d .text ('&' :: (name ++ [';'] ++ rest)) = _
    rw [readFrom, if_neg (by decide), if_pos rfl, List.append_assoc, List.singleton_append,
      readFrom_entity d clean, List.nil_append, named]
    rfl

theorem readFrom_writeToken (token : Token τ) (rest : List Char) :
    readFrom d .text (writeToken d token ++ rest) = (readFrom d .text rest).map (token :: ·) := by
  cases token with
  | letter c => exact readFrom_letter d c rest
  | opens | closes | alone => exact readFrom_mark d (fun _ same => by cases same) rest

theorem read_write (tokens : List (Token τ)) : read d (write d tokens) = some tokens := by
  induction tokens with
  | nil => rfl
  | cons token tokens ih =>
    rw [read] at ih ⊢
    rw [write_cons, readFrom_writeToken, ih]
    rfl

variable [DecidableEq τ] (allows : Option τ → Token τ → Bool)

/-- The open tags behind a token, the innermost first; `allows` says what may stand in which
element. -/
def enter (stack : List τ) (token : Token τ) : Option (List τ) :=
  match token, stack with
  | .opens tag, stack => if allows stack.head? token then some (tag :: stack) else none
  | .closes tag, innermost :: rest => if innermost = tag then some rest else none
  | .closes _, [] => none
  | .alone _, stack => if allows stack.head? token then some stack else none
  | .letter _, stack => if allows stack.head? token then some stack else none

def nest (stack : List τ) (tokens : List (Token τ)) : Option (List τ) :=
  tokens.foldlM (enter allows) stack

variable {allows}

theorem nest_append (stack : List τ) (tokens more : List (Token τ)) :
    nest allows stack (tokens ++ more) =
      (nest allows stack tokens).bind fun between => nest allows between more :=
  List.foldlM_append

theorem nest_trans {first second third : List τ} {tokens more : List (Token τ)}
    (before : nest allows first tokens = some second)
    (after : nest allows second more = some third) :
    nest allows first (tokens ++ more) = some third := by
  rw [nest_append, before]
  exact after

theorem nest_letters {stack : List τ} {text : List Char}
    (fits : ∀ c ∈ text, allows stack.head? (.letter c) = true) :
    nest allows stack (text.map .letter) = some stack := by
  induction text with
  | nil => rfl
  | cons c text ih =>
    have one : enter allows stack (.letter c) = some stack := if_pos (fits c List.mem_cons_self)
    rw [List.map_cons, nest, List.foldlM_cons, one]
    exact ih fun other member => fits other (List.mem_cons_of_mem c member)

theorem nest_opens {stack : List τ} {tag : τ} (fits : allows stack.head? (.opens tag) = true) :
    nest allows stack [.opens tag] = some (tag :: stack) := by
  have one : enter allows stack (.opens tag) = some (tag :: stack) := if_pos fits
  rw [nest, List.foldlM_cons, one]
  rfl

theorem nest_closes (stack : List τ) (tag : τ) :
    nest allows (tag :: stack) [.closes tag] = some stack := by
  have one : enter allows (tag :: stack) (.closes tag) = some stack := if_pos rfl
  rw [nest, List.foldlM_cons, one]
  rfl

theorem nest_alone {stack : List τ} {tag : τ} (fits : allows stack.head? (.alone tag) = true) :
    nest allows stack [.alone tag] = some stack := by
  have one : enter allows stack (.alone tag) = some stack := if_pos fits
  rw [nest, List.foldlM_cons, one]
  rfl

theorem nest_intercalate {stack : List τ} {sep : List (Token τ)} {parts : List (List (Token τ))}
    (between : nest allows stack sep = some stack)
    (each : ∀ part ∈ parts, nest allows stack part = some stack) :
    nest allows stack (sep.intercalate parts) = some stack := by
  induction parts with
  | nil => rfl
  | cons first rest ih =>
    have head := each first List.mem_cons_self
    have tail := ih fun part member => each part (List.mem_cons_of_mem first member)
    cases rest with
    | nil => rwa [List.intercalate_singleton]
    | cons =>
      rw [List.intercalate_cons_cons]
      exact nest_trans (nest_trans head between) tail

theorem nest_element {stack : List τ} {tag : τ} {body : List (Token τ)}
    (fits : allows stack.head? (.opens tag) = true)
    (inside : nest allows (tag :: stack) body = some (tag :: stack)) :
    nest allows stack ([.opens tag] ++ body ++ [.closes tag]) = some stack :=
  nest_trans (nest_trans (nest_opens fits) inside) (nest_closes stack tag)

end AverQel.Foundation.Markup
