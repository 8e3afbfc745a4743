/- digest: Every letter of a text is handed out with one piece, and only short pieces are left out. -/
import AverQel.Foundation.Slices
import AverQel.Ingestion.ChunkTurns

namespace AverQel.Ingestion.Chunking

open Foundation Loops
open Foundation.Slices (drop_eq_parts)
open Foundation.Text

/-- A piece that is cut off, and the chunk that is made of it unless it is too short. -/
structure Piece where
  content : List Char
  (start repeated : Nat)
  part : Option ChunkPart

def Piece.fresh (piece : Piece) : List Char := (letters piece.content).drop piece.repeated

def handedOut (pieces : List Piece) : List Char := pieces.flatMap Piece.fresh

structure Ledger where
  locals : Locals
  repeated : Nat
  pieces : List Piece

variable (env : Environment) (sizes : Sizes) (labels : Labels)

def repeatedAfter (buffer : List Char) (repeated : Nat) : Nat :=
  let left := repeated - (letters (cText sizes buffer)).length
  if 0 < sizes.overlap ∧ sizes.overlap < (cText sizes buffer).length then
    (letters (carried sizes (cText sizes buffer))).length + left
  else left

/-- The piece that the next turn cuts off. -/
def Ledger.nextPiece (start : Nat) (ledger : Ledger) : Piece :=
  let content := cText sizes ledger.locals.currentChunkText
  { content := content
    start := ledger.locals.chunkStart.getD start
    repeated := ledger.repeated
    part := if sizes.minLength ≤ content.length then
        some (ledger.locals.part env labels start content)
      else none }

def Ledger.cut (start : Nat) (ledger : Ledger) : Ledger where
  locals := splitOff env sizes labels start ledger.locals
  repeated := repeatedAfter sizes ledger.locals.currentChunkText ledger.repeated
  pieces := ledger.pieces ++ [ledger.nextPiece env sizes labels start]

def Ledger.isLong (ledger : Ledger) : Bool := Chunking.isLong sizes ledger.locals

def Ledger.addParagraph (start : Nat) (pText : List Char) (ledger : Ledger) : Ledger :=
  { ledger with locals := Chunking.addParagraph env start pText ledger.locals }

def Ledger.takeParagraph (ledger : Ledger) (paragraph : Nat × List Char) : Ledger :=
  if stripChars paragraph.2 = [] then ledger
  else
    let added := ledger.addParagraph env paragraph.1 paragraph.2
    loop (Ledger.isLong sizes) (Ledger.cut env sizes labels paragraph.1)
      (turns added.locals.currentChunkText) added

/-- What is left behind the last paragraph. -/
def Ledger.lastPiece (start : Nat) (ledger : Ledger) : Piece :=
  let content := stripChars ledger.locals.currentChunkText
  { content := content
    start := ledger.locals.chunkStart.getD start
    repeated := ledger.repeated
    part :=
      if sizes.minLength ≤ content.length ∨ ledger.locals.parts.isEmpty = true ∧ content ≠ [] then
        some (ledger.locals.part env labels start content)
      else none }

def Ledger.finish (start : Nat) (ledger : Ledger) : List Piece :=
  if ledger.locals.currentChunkText = [] then ledger.pieces
  else ledger.pieces ++ [ledger.lastPiece env sizes labels start]

def recorded (text : List Char) : Ledger :=
  (getParagraphs text).foldl (Ledger.takeParagraph env sizes labels) ⟨initial, 0, []⟩

/-- The pieces that `chunk` cuts a text into. -/
def cutPieces (text : List Char) : List Piece :=
  Ledger.finish env sizes labels (lastStart (getParagraphs text)) (recorded env sizes labels text)

theorem locals_takeParagraph (ledger : Ledger) (paragraph : Nat × List Char) :
    (Ledger.takeParagraph env sizes labels ledger paragraph).locals =
      takeParagraph env sizes labels ledger.locals paragraph := by
  rw [Ledger.takeParagraph, takeParagraph]
  split_ifs with blank
  · rfl
  · exact map_loop Ledger.locals (fun _ => rfl) (fun _ => rfl) _ _

theorem locals_recorded (text : List Char) : (recorded env sizes labels text).locals =
    (getParagraphs text).foldl (takeParagraph env sizes labels) initial :=
  (List.foldl_hom Ledger.locals fun ledger paragraph =>
    (locals_takeParagraph env sizes labels ledger paragraph).symm).symm

theorem letters_paragraphsFrom {t : List Char} {breaks : List (Match Char)} {start : Nat}
    (fits : Pattern.Fits start t.length breaks)
    (blank : ∀ found ∈ breaks, letters ((t.take found.stop).drop found.start) = []) :
    (paragraphsFrom t start breaks).flatMap (fun paragraph => letters paragraph.2) =
      letters (t.drop start) := by
  induction breaks generalizing start with
  | nil =>
    rw [paragraphsFrom]
    split_ifs with inside
    · simp
    · rw [List.drop_eq_nil_of_le (Nat.le_of_not_lt inside)]
      rfl
  | cons found more ih =>
    obtain ⟨order, later, _, rest⟩ := fits
    have whole := congrArg letters (drop_eq_parts t order later)
    rw [letters_append, letters_append, blank found List.mem_cons_self, List.nil_append] at whole
    rw [paragraphsFrom, List.flatMap_cons, whole,
      ih rest fun other member => blank other (List.mem_cons_of_mem found member)]

theorem letters_getParagraphs (t : List Char) :
    (getParagraphs t).flatMap (fun paragraph => letters paragraph.2) = letters t := by
  have newlines : blankLines.captured.Within fun c => c = '\n' := by
    refine ⟨⟨?_, ?_, trivial⟩, ?_⟩ <;> exact fun c accepted => of_decide_eq_true accepted
  have blank : ∀ found ∈ blankLines.finditer t,
      letters ((t.take found.stop).drop found.start) = [] := by
    intro found member
    refine letters_eq_nil ?_
    intro c inside
    rw [blankLines.mem_slice_of_mem_finditer newlines trivial member c inside]
    decide
  exact letters_paragraphsFrom (blankLines.fits_finditer t) blank

def Chained (overlap : Nat) : List Char → List Piece → Prop
  | _, [] => True
  | before, piece :: more =>
    (piece.repeated ≤ overlap ∧ (letters piece.content).take piece.repeated <:+: before) ∧
      Chained overlap (before ++ piece.fresh) more

def Piece.Honest (minLength : Int) (piece : Piece) : Prop :=
  (∀ part, piece.part = some part → part.content = piece.content) ∧
    (piece.part = none → (piece.content.length : Int) < minLength)

theorem chained_append {overlap : Nat} {before : List Char} {pieces : List Piece} {last : Piece}
    (chained : Chained overlap before pieces) (small : last.repeated ≤ overlap)
    (repeats : (letters last.content).take last.repeated <:+: before ++ handedOut pieces) :
    Chained overlap before (pieces ++ [last]) := by
  induction pieces generalizing before with
  | nil =>
    rw [handedOut, List.flatMap_nil, List.append_nil] at repeats
    exact ⟨⟨small, repeats⟩, trivial⟩
  | cons piece more ih =>
    refine ⟨chained.1, ih chained.2 ?_⟩
    rw [handedOut, List.flatMap_cons, ← List.append_assoc] at repeats
    exact repeats

/-- The letters read so far are handed out or still in the text, behind those that repeat the end
of what was handed out. -/
structure Balanced (read : List Char) (ledger : Ledger) : Prop where
  parts : ledger.locals.parts = ledger.pieces.filterMap (·.part)
  account : handedOut ledger.pieces ++
    (letters ledger.locals.currentChunkText).drop ledger.repeated = read
  repeats : (letters ledger.locals.currentChunkText).take ledger.repeated <:+
    handedOut ledger.pieces
  inside : ledger.repeated ≤ (letters ledger.locals.currentChunkText).length
  small : ledger.repeated ≤ sizes.overlap
  chained : Chained sizes.overlap [] ledger.pieces

variable {sizes}

theorem handedOut_append (pieces : List Piece) (last : Piece) :
    handedOut (pieces ++ [last]) = handedOut pieces ++ last.fresh := by
  rw [handedOut, List.flatMap_append, List.flatMap_singleton]
  rfl

theorem filterMap_part_singleton (piece : Piece) :
    [piece].filterMap (·.part) = piece.part.toList := by
  cases made : piece.part <;> simp [made]

theorem letters_split (sizes : Sizes) (buffer : List Char) : letters buffer =
    letters (cText sizes buffer) ++ letters (remainder sizes buffer) := by
  rw [cText, remainder, letters_stripChars, letters_stripChars, ← letters_append,
    List.take_append_drop]

theorem letters_carried_suffix (text : List Char) :
    letters (carried sizes text) <:+ letters text :=
  (List.drop_suffix _ text).filter _

theorem length_letters_carried_le (text : List Char) :
    (letters (carried sizes text)).length ≤ sizes.overlap := by
  have few := List.length_filter_le (fun c => !isSpace c) (carried sizes text)
  rw [← letters, carried, List.length_drop] at few
  rw [carried]
  omega

theorem letters_nextBuffer (sizes : Sizes) (buffer : List Char) (repeated : Nat) : ∃ again,
    letters (nextBuffer sizes buffer) = again ++ letters (remainder sizes buffer) ∧
      repeatedAfter sizes buffer repeated =
        again.length + (repeated - (letters (cText sizes buffer)).length) ∧
      again <:+ letters (cText sizes buffer) ∧ again.length ≤ sizes.overlap := by
  rw [nextBuffer, repeatedAfter]
  split_ifs with carries
  · refine ⟨letters (carried sizes (cText sizes buffer)), ?_, rfl, letters_carried_suffix _,
      length_letters_carried_le _⟩
    rw [letters_append]
    rfl
  · exact ⟨[], rfl, by simp, List.nil_suffix, Nat.zero_le _⟩

theorem suffix_of_cut {done first second : List Char} {repeated : Nat}
    (repeats : (first ++ second).take repeated <:+ done) :
    first ++ second.take (repeated - first.length) <:+ done ++ first.drop repeated := by
  rw [List.take_append] at repeats
  rcases Nat.le_total repeated first.length with inside | beyond
  · rw [Nat.sub_eq_zero_of_le inside, List.take_zero, List.append_nil] at repeats ⊢
    obtain ⟨before, whole⟩ := repeats
    refine ⟨before, ?_⟩
    rw [← whole, List.append_assoc, List.take_append_drop]
  · rw [List.take_of_length_le beyond] at repeats
    rw [List.drop_eq_nil_of_le beyond, List.append_nil]
    exact repeats

variable {env : Environment} {sizes : Sizes} {labels : Labels}

theorem honest_nextPiece (start : Nat) (ledger : Ledger) :
    (ledger.nextPiece env sizes labels start).Honest sizes.minLength := by
  refine ⟨?_, ?_⟩
  · intro part made
    simp only [Ledger.nextPiece] at made
    split_ifs at made
    cases made
    rfl
  · intro missing
    simp only [Ledger.nextPiece] at missing
    split_ifs at missing with long
    exact Int.lt_of_not_ge long

theorem honest_lastPiece (start : Nat) (ledger : Ledger) :
    (ledger.lastPiece env sizes labels start).Honest sizes.minLength := by
  refine ⟨?_, ?_⟩
  · intro part made
    simp only [Ledger.lastPiece] at made
    split_ifs at made
    cases made
    rfl
  · intro missing
    simp only [Ledger.lastPiece] at missing
    split_ifs at missing with long
    exact Int.lt_of_not_ge fun enough => long (Or.inl enough)

theorem parts_nextPiece (start : Nat) (ledger : Ledger) :
    (splitOff env sizes labels start ledger.locals).parts =
      ledger.locals.parts ++ (ledger.nextPiece env sizes labels start).part.toList := by
  simp only [splitOff, Ledger.nextPiece]
  split_ifs <;> simp

variable {ledger : Ledger}

theorem Balanced.cut {read : List Char} (balanced : Balanced sizes read ledger) (start : Nat) :
    Balanced sizes read (Ledger.cut env sizes labels start ledger) := by
  obtain ⟨again, text, count, suffix, few⟩ :=
    letters_nextBuffer sizes ledger.locals.currentChunkText ledger.repeated
  have split := letters_split sizes ledger.locals.currentChunkText
  have fresh : (ledger.nextPiece env sizes labels start).fresh =
      (letters (cText sizes ledger.locals.currentChunkText)).drop ledger.repeated := rfl
  have pieces : handedOut (Ledger.cut env sizes labels start ledger).pieces =
      handedOut ledger.pieces ++
        (letters (cText sizes ledger.locals.currentChunkText)).drop ledger.repeated := by
    rw [← fresh, ← handedOut_append]
    rfl
  have buffer : letters (Ledger.cut env sizes labels start ledger).locals.currentChunkText =
      again ++ letters (remainder sizes ledger.locals.currentChunkText) := text
  have repeated : (Ledger.cut env sizes labels start ledger).repeated = again.length +
      (ledger.repeated - (letters (cText sizes ledger.locals.currentChunkText)).length) := count
  have account := balanced.account
  have repeats := balanced.repeats
  have inside := balanced.inside
  have small := balanced.small
  have shorter := suffix.length_le
  rw [split] at account repeats inside
  rw [List.length_append] at inside
  refine ⟨?_, ?_, ?_, ?_, ?_, ?_⟩
  · show (splitOff env sizes labels start ledger.locals).parts =
      (ledger.pieces ++ [ledger.nextPiece env sizes labels start]).filterMap (·.part)
    rw [parts_nextPiece, balanced.parts, List.filterMap_append, filterMap_part_singleton]
  · rw [List.drop_append] at account
    rw [pieces, buffer, repeated, List.drop_append, Nat.add_sub_cancel_left,
      List.drop_eq_nil_of_le (Nat.le_add_right _ _), List.nil_append, List.append_assoc]
    exact account
  · rw [pieces, buffer, repeated, List.take_append, Nat.add_sub_cancel_left,
      List.take_of_length_le (Nat.le_add_right _ _)]
    obtain ⟨front, whole⟩ := suffix
    have longer : again ++ (letters (remainder sizes ledger.locals.currentChunkText)).take
        (ledger.repeated - (letters (cText sizes ledger.locals.currentChunkText)).length) <:+ _ :=
      List.suffix_append front _
    rw [← List.append_assoc, whole] at longer
    exact longer.trans (suffix_of_cut repeats)
  · rw [buffer, repeated, List.length_append]
    omega
  · rw [repeated]
    omega
  · refine chained_append balanced.chained small ?_
    rw [List.nil_append]
    rw [List.take_append] at repeats
    exact (List.prefix_append _ _).isInfix.trans repeats.isInfix

theorem Balanced.addParagraph (env : Environment) {read : List Char}
    (balanced : Balanced sizes read ledger) (start : Nat) (pText : List Char) :
    Balanced sizes (read ++ letters pText) (ledger.addParagraph env start pText) := by
  have text : letters (ledger.addParagraph env start pText).locals.currentChunkText =
      letters ledger.locals.currentChunkText ++ letters pText := by
    show letters (ledger.locals.currentChunkText ++ (pText ++ ['\n', '\n'])) = _
    have newlines : letters ['\n', '\n'] = [] := by decide
    rw [letters_append, letters_append, newlines, List.append_nil]
  have inside := balanced.inside
  refine ⟨balanced.parts, ?_, ?_, ?_, balanced.small, balanced.chained⟩
  · show handedOut ledger.pieces ++ (letters _).drop ledger.repeated = _
    rw [text, List.drop_append_of_le_length inside, ← List.append_assoc, balanced.account]
  · show (letters _).take ledger.repeated <:+ _
    rw [text, List.take_append_of_le_length inside]
    exact balanced.repeats
  · rw [text, List.length_append]
    exact Nat.le_add_right_of_le inside

theorem Balanced.takeParagraph {read : List Char} (balanced : Balanced sizes read ledger)
    (paragraph : Nat × List Char) :
    Balanced sizes (read ++ letters paragraph.2)
      (Ledger.takeParagraph env sizes labels ledger paragraph) := by
  rw [Ledger.takeParagraph]
  split_ifs with blank
  · have nothing : letters paragraph.2 = [] := by
      rw [← letters_stripChars, blank]
      rfl
    rw [nothing, List.append_nil]
    exact balanced
  · have added := balanced.addParagraph env paragraph.1 paragraph.2
    have keep : ∀ other : Ledger, Ledger.isLong sizes other = true →
        Balanced sizes (read ++ letters paragraph.2) other → Balanced sizes
          (read ++ letters paragraph.2) (Ledger.cut env sizes labels paragraph.1 other) :=
      fun _ _ inv => inv.cut paragraph.1
    exact invariant_loop keep _ added

theorem balanced_recorded (env : Environment) (sizes : Sizes) (labels : Labels) (text : List Char) :
    Balanced sizes (letters text) (recorded env sizes labels text) := by
  have start : Balanced sizes [] (⟨initial, 0, []⟩ : Ledger) :=
    ⟨rfl, rfl, List.nil_suffix, Nat.zero_le _, Nat.zero_le _, trivial⟩
  have along : ∀ (paragraphs : List (Nat × List Char)) (read : List Char) (ledger : Ledger),
      Balanced sizes read ledger → Balanced sizes
        (read ++ paragraphs.flatMap fun paragraph => letters paragraph.2)
        (paragraphs.foldl (Ledger.takeParagraph env sizes labels) ledger) := by
    intro paragraphs
    induction paragraphs with
    | nil =>
      intro read ledger balanced
      rw [List.flatMap_nil, List.append_nil]
      exact balanced
    | cons paragraph more ih =>
      intro read ledger balanced
      rw [List.flatMap_cons, ← List.append_assoc]
      exact ih _ _ (balanced.takeParagraph paragraph)
  have whole := along (getParagraphs text) [] _ start
  rwa [letters_getParagraphs, List.nil_append] at whole

theorem parts_lastPiece (start : Nat) (more : ledger.locals.currentChunkText ≠ []) :
    finish env sizes labels start ledger.locals =
      ledger.locals.parts ++ (ledger.lastPiece env sizes labels start).part.toList := by
  rw [finish, Ledger.lastPiece]
  simp only [ne_eq, more, not_false_eq_true, true_and]
  split_ifs
  · rfl
  · exact (List.append_nil _).symm

theorem fresh_lastPiece (start : Nat) (ledger : Ledger) :
    (ledger.lastPiece env sizes labels start).fresh =
      (letters ledger.locals.currentChunkText).drop ledger.repeated := by
  rw [← letters_stripChars ledger.locals.currentChunkText]
  rfl

theorem forall_pieces_cut {P : Piece → Prop}
    (next : ∀ start ledger, P (Ledger.nextPiece env sizes labels start ledger)) (start : Nat)
    (all : ∀ piece ∈ ledger.pieces, P piece) :
    ∀ piece ∈ (ledger.cut env sizes labels start).pieces, P piece := by
  intro piece member
  rcases List.mem_append.mp member with earlier | new
  · exact all piece earlier
  · rw [List.mem_singleton.mp new]
    exact next start ledger

theorem forall_cutPieces {P : Piece → Prop}
    (next : ∀ start ledger, P (Ledger.nextPiece env sizes labels start ledger))
    (last : ∀ start ledger, P (Ledger.lastPiece env sizes labels start ledger)) (text : List Char) :
    ∀ piece ∈ cutPieces env sizes labels text, P piece := by
  have along : ∀ (paragraphs : List (Nat × List Char)) (ledger : Ledger),
      (∀ piece ∈ ledger.pieces, P piece) → ∀ piece ∈
        (paragraphs.foldl (Ledger.takeParagraph env sizes labels) ledger).pieces, P piece := by
    intro paragraphs
    induction paragraphs with
    | nil => exact fun ledger all => all
    | cons paragraph more ih =>
      intro ledger all
      refine ih _ ?_
      rw [Ledger.takeParagraph]
      split_ifs
      · exact all
      · exact invariant_loop (I := fun other : Ledger => ∀ piece ∈ other.pieces, P piece)
          (fun other _ inv => forall_pieces_cut next paragraph.1 inv) _ all
  have before := along (getParagraphs text) ⟨initial, 0, []⟩
    (fun _ member => absurd member List.not_mem_nil)
  rw [cutPieces, Ledger.finish]
  split_ifs
  · exact before
  · intro piece member
    rcases List.mem_append.mp member with earlier | new
    · exact before piece earlier
    · rw [List.mem_singleton.mp new]
      exact last _ _

theorem balanced_cutPieces (env : Environment) (sizes : Sizes) (labels : Labels)
    (text : List Char) :
    chunkText env sizes labels text = (cutPieces env sizes labels text).filterMap (·.part) ∧
      handedOut (cutPieces env sizes labels text) = letters text ∧
      Chained sizes.overlap [] (cutPieces env sizes labels text) := by
  have balanced := balanced_recorded env sizes labels text
  have run := locals_recorded env sizes labels text
  rw [chunkText, ← run, cutPieces]
  generalize recorded env sizes labels text = ledger at balanced
  generalize lastStart (getParagraphs text) = start
  rw [Ledger.finish]
  split_ifs with empty
  · have account := balanced.account
    rw [empty, letters, List.filter_nil, List.drop_nil, List.append_nil] at account
    refine ⟨?_, account, balanced.chained⟩
    rw [← balanced.parts, finish, if_neg fun more => more.1 empty]
  · refine ⟨?_, ?_, ?_⟩
    · rw [parts_lastPiece start empty, balanced.parts, List.filterMap_append,
        filterMap_part_singleton]
    · rw [handedOut_append, fresh_lastPiece, balanced.account]
    · refine chained_append balanced.chained balanced.small ?_
      rw [List.nil_append]
      show (letters (stripChars _)).take ledger.repeated <:+: _
      rw [letters_stripChars]
      exact balanced.repeats.isInfix

/-- The pieces of a text, without what they repeat, have its letters in order; the chunks are made
of all of them but those that are too short. -/
theorem cutPieces_cover (env : Environment) (sizes : Sizes) (labels : Labels) (text : List Char) :
    chunkText env sizes labels text = (cutPieces env sizes labels text).filterMap (·.part) ∧
      handedOut (cutPieces env sizes labels text) = letters text ∧
      Chained sizes.overlap [] (cutPieces env sizes labels text) ∧
      ∀ piece ∈ cutPieces env sizes labels text, piece.Honest sizes.minLength := by
  obtain ⟨parts, account, chained⟩ := balanced_cutPieces env sizes labels text
  exact ⟨parts, account, chained, forall_cutPieces honest_nextPiece honest_lastPiece text⟩

def Lossless (contents : List (List Char)) (text : List Char) : Prop :=
  ∃ overlaps : List Nat, overlaps.length = contents.length ∧
    (List.zipWith (fun content overlap => (letters content).drop overlap) contents overlaps).flatten =
      letters text

/-- Texts of ASCII characters. -/
def asciiText : Environment where
  text := ⟨fun | .string chars => chars | _ => [], fun _ => false⟩
  isDecimal := Char.isDigit
  lower := List.map Char.toLower
  capitalize
    | [] => []
    | c :: rest => c.toUpper :: rest.map Char.toLower

def fourByTwo : Sizes := ⟨4, 2, 2, by decide⟩

/-- One letter and the blanks behind it are a piece of their own, which is too short. -/
theorem not_lossless_spacedLetter : ¬∀ (env : Environment) (sizes : Sizes) (labels : Labels)
    (text : List Char), sizes.minLength ≤ sizes.overlap →
      Lossless ((chunkText env sizes labels text).map (·.content)) text := by
  intro lossless
  have contents : (chunkText asciiText fourByTwo ⟨"prose", []⟩ "a    bcd".toList).map (·.content) =
      ["bcd".toList] := by decide +kernel
  obtain ⟨overlaps, length, same⟩ := lossless asciiText fourByTwo ⟨"prose", []⟩ "a    bcd".toList
    (by decide)
  rw [contents] at length same
  obtain ⟨overlap, rfl⟩ := List.length_eq_one_iff.mp length
  have text : letters "a    bcd".toList = ['a', 'b', 'c', 'd'] := by decide
  have kept : letters "bcd".toList = ['b', 'c', 'd'] := by decide
  rw [text, List.zipWith_cons_cons, List.zipWith_nil_left, kept, List.flatten_singleton] at same
  have size := congrArg List.length same
  rw [List.length_drop] at size
  have few : ['b', 'c', 'd'].length - overlap ≤ 3 := Nat.sub_le _ _
  rw [size] at few
  exact absurd few (by decide)

end AverQel.Ingestion.Chunking
