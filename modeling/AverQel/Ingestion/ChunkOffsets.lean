/- digest: When the offsets of the chunks locate them in the text, and among its blocks. -/
import AverQel.Ingestion.ChunkPieces
import Mathlib.Tactic.MkIffOfInductiveProp

namespace AverQel.Ingestion.Chunking

open Foundation Loops
open Foundation.Slices
open Foundation.Text
open Providers (Fields)

structure Placement where
  piece : Piece
  part : ChunkPart
  before : Nat

def placements : Nat → List Piece → List Placement
  | _, [] => []
  | before, piece :: more =>
    piece.part.toList.map (fun part => ⟨piece, part, before⟩) ++
      placements (before + piece.fresh.length) more

section Claims

variable (whole : List Char)

/-- `text[char_start:char_end]` -/
def window (part : ChunkPart) : List Char := (whole.take part.charEnd).drop part.charStart

structure Placement.Located (placement : Placement) : Prop where
  ordered : placement.part.charStart ≤ placement.part.charEnd
  inside : placement.part.charEnd ≤ whole.length
  occurs : placement.piece.fresh <:+: letters (window whole placement.part)

def Located (chunks : List Placement) : Prop :=
  (∀ placement ∈ chunks, placement.Located whole) ∧
    chunks.Pairwise fun earlier later => earlier.part.charStart < later.part.charStart

def Piece.reach (piece : Piece) : Nat := piece.start + piece.content.length

/-- The letters in front of the start are handed out before the piece, and the text goes on behind
the start for the length of the piece, past its last letter. -/
@[mk_iff]
structure Placement.Covered (placement : Placement) : Prop where
  fits : placement.piece.reach ≤ whole.length
  first : placement.piece.fresh = [] ∨
    (letters (whole.take placement.piece.start)).length ≤ placement.before
  last : placement.piece.fresh = [] ∨ placement.before + placement.piece.fresh.length ≤
    (letters (whole.take placement.piece.reach)).length

def Careful (chunks : List Placement) : Prop :=
  (∀ placement ∈ chunks, placement.Covered whole) ∧
    chunks.Pairwise fun earlier later => earlier.piece.start ≠ later.piece.start

instance (placement : Placement) : Decidable (placement.Covered whole) :=
  decidable_of_iff _ (placement.covered_iff whole).symm

instance (chunks : List Placement) : Decidable (Careful whole chunks) :=
  inferInstanceAs (Decidable (_ ∧ _))

def Unrepeated (chunks : List Placement) : Prop :=
  ∀ placement ∈ chunks, placement.piece.fresh ≠ [] → ∀ before after,
    letters whole = before ++ placement.piece.fresh ++ after → before.length = placement.before

/-- What the cutting makes sure of: the offsets are those of the piece, its letters stand behind
those before it, and no piece starts before an earlier one. -/
structure Placement.Sound (placement : Placement) : Prop where
  charStart : placement.part.charStart = placement.piece.start
  charEnd : placement.part.charEnd = placement.piece.reach
  place : ((letters whole).drop placement.before).take placement.piece.fresh.length =
    placement.piece.fresh

def Sound (chunks : List Placement) : Prop :=
  (∀ placement ∈ chunks, placement.Sound whole) ∧
    chunks.Pairwise fun earlier later => earlier.piece.start ≤ later.piece.start

end Claims

section Windows

variable {whole : List Char}

theorem letters_take (n : Nat) : letters (whole.take n) =
    (letters whole).take (letters (whole.take n)).length := by
  have parts := letters_append (whole.take n) (whole.drop n)
  rw [List.take_append_drop] at parts
  rw [parts, List.take_left]

theorem letters_window {part : ChunkPart} (ordered : part.charStart ≤ part.charEnd) :
    letters (window whole part) = ((letters whole).take (letters (whole.take part.charEnd)).length).drop
      (letters (whole.take part.charStart)).length := by
  have parts := letters_append ((whole.take part.charEnd).take part.charStart)
    ((whole.take part.charEnd).drop part.charStart)
  rw [List.take_append_drop, List.take_take, Nat.min_eq_left ordered] at parts
  rw [← letters_take, parts, List.drop_left]
  rfl

variable {placement : Placement}

theorem Placement.Sound.ordered (sound : placement.Sound whole) :
    placement.part.charStart ≤ placement.part.charEnd := by
  rw [sound.charStart, sound.charEnd]
  exact Nat.le_add_right _ _

theorem Placement.located_of_covered (sound : placement.Sound whole)
    (covered : placement.Covered whole) : placement.Located whole := by
  refine ⟨sound.ordered, sound.charEnd ▸ covered.fits, ?_⟩
  rw [letters_window sound.ordered, sound.charStart, sound.charEnd]
  rcases covered.first with nothing | first
  · rw [nothing]
    exact List.nil_infix
  · rcases covered.last with nothing | last
    · rw [nothing]
      exact List.nil_infix
    · rw [← sound.place]
      exact isInfix_window first last

theorem Placement.covered_of_located (sound : placement.Sound whole)
    (once : placement.piece.fresh ≠ [] → ∀ before after,
      letters whole = before ++ placement.piece.fresh ++ after → before.length = placement.before)
    (located : placement.Located whole) :
    placement.Covered whole := by
  have occurs := located.occurs
  rw [letters_window sound.ordered, sound.charStart, sound.charEnd] at occurs
  by_cases nothing : placement.piece.fresh = []
  · exact ⟨sound.charEnd ▸ located.inside, Or.inl nothing, Or.inl nothing⟩
  · obtain ⟨first, last⟩ := window_of_isInfix nothing (once nothing) occurs
    exact ⟨sound.charEnd ▸ located.inside, Or.inr first, Or.inr last⟩

theorem located_of_careful {chunks : List Placement} (sound : Sound whole chunks)
    (careful : Careful whole chunks) : Located whole chunks := by
  refine ⟨fun placement member =>
    placement.located_of_covered (sound.1 placement member) (careful.1 placement member), ?_⟩
  refine (sound.2.and careful.2).imp_of_mem ?_
  intro earlier later first second order
  rw [(sound.1 earlier first).charStart, (sound.1 later second).charStart]
  exact Nat.lt_of_le_of_ne order.1 order.2

theorem careful_of_located {chunks : List Placement} (sound : Sound whole chunks)
    (unrepeated : Unrepeated whole chunks) (located : Located whole chunks) :
    Careful whole chunks := by
  refine ⟨fun placement member => placement.covered_of_located (sound.1 placement member)
    (unrepeated placement member) (located.1 placement member), ?_⟩
  refine located.2.imp_of_mem ?_
  intro earlier later first second order
  rw [(sound.1 earlier first).charStart, (sound.1 later second).charStart] at order
  exact Nat.ne_of_lt order

end Windows

theorem map_part_placements (before : Nat) (pieces : List Piece) :
    (placements before pieces).map (·.part) = pieces.filterMap (·.part) := by
  induction pieces generalizing before with
  | nil => rfl
  | cons piece more ih =>
    rw [placements, List.map_append, ih, List.filterMap_cons]
    cases piece.part <;> rfl

theorem map_piece_placements (before : Nat) (pieces : List Piece) :
    ((placements before pieces).map (·.piece)).Sublist pieces := by
  induction pieces generalizing before with
  | nil => exact List.Sublist.slnil
  | cons piece more ih =>
    rw [placements, List.map_append]
    cases piece.part with
    | none => exact (ih _).cons piece
    | some => exact (ih _).cons_cons piece

theorem place_of_mem_placements {pieces : List Piece} {front : List Char} (back : List Char)
    {placement : Placement} (member : placement ∈ placements front.length pieces) :
    ((front ++ handedOut pieces ++ back).drop placement.before).take placement.piece.fresh.length =
      placement.piece.fresh ∧ placement.piece ∈ pieces ∧
        placement.piece.part = some placement.part := by
  induction pieces generalizing front with
  | nil => cases member
  | cons piece more ih =>
    rw [placements] at member
    rcases List.mem_append.mp member with here | later
    · obtain ⟨part, made, rfl⟩ := List.mem_map.mp here
      refine ⟨?_, List.mem_cons_self, Option.mem_toList.mp made⟩
      rw [handedOut, List.flatMap_cons, List.append_assoc, List.drop_left, List.append_assoc,
        List.take_left]
    · rw [← List.length_append] at later
      obtain ⟨place, inside, made⟩ := ih later
      refine ⟨?_, List.mem_cons_of_mem piece inside, made⟩
      rw [handedOut, List.flatMap_cons, ← List.append_assoc front]
      exact place

section Starts

variable {env : Environment} {sizes : Sizes} {labels : Labels}

def Piece.Marked (piece : Piece) : Prop := ∀ part, piece.part = some part →
  part.charStart = piece.start ∧ part.charEnd = piece.reach

theorem marked_nextPiece (start : Nat) (ledger : Ledger) :
    (ledger.nextPiece env sizes labels start).Marked := by
  intro part made
  simp only [Ledger.nextPiece] at made
  split_ifs at made
  cases made
  exact ⟨rfl, rfl⟩

theorem marked_lastPiece (start : Nat) (ledger : Ledger) :
    (ledger.lastPiece env sizes labels start).Marked := by
  intro part made
  simp only [Ledger.lastPiece] at made
  split_ifs at made
  cases made
  exact ⟨rfl, rfl⟩

structure InOrder (bound : Nat) (ledger : Ledger) : Prop where
  starts : ledger.pieces.Pairwise fun earlier later => earlier.start ≤ later.start
  next : ∀ piece ∈ ledger.pieces, piece.start ≤ ledger.locals.chunkStart.getD bound
  recorded : ledger.locals.chunkStart.getD bound ≤ bound

variable {ledger : Ledger}

theorem InOrder.cut {bound : Nat} (order : InOrder bound ledger) :
    InOrder bound (ledger.cut env sizes labels bound) := by
  refine ⟨?_, ?_, Nat.le_refl bound⟩
  · refine List.pairwise_append.mpr ⟨order.starts, List.pairwise_singleton _ _, ?_⟩
    intro piece member last new
    rw [List.mem_singleton.mp new]
    exact order.next piece member
  · intro piece member
    rcases List.mem_append.mp member with earlier | new
    · exact (order.next piece earlier).trans order.recorded
    · rw [List.mem_singleton.mp new]
      exact order.recorded

theorem InOrder.later {bound start : Nat} (order : InOrder bound ledger) (after : bound ≤ start) :
    InOrder start ledger := by
  have next := order.next
  have recorded := order.recorded
  refine ⟨order.starts, ?_, ?_⟩
  · intro piece member
    have earlier := next piece member
    cases begun : ledger.locals.chunkStart with
    | none =>
      rw [begun] at earlier
      exact Nat.le_trans earlier after
    | some =>
      rw [begun] at earlier
      exact earlier
  · cases begun : ledger.locals.chunkStart with
    | none => exact Nat.le_refl start
    | some =>
      rw [begun] at recorded
      exact Nat.le_trans recorded after

theorem InOrder.takeParagraph {bound : Nat} (order : InOrder bound ledger)
    {paragraph : Nat × List Char} (after : bound ≤ paragraph.1) :
    InOrder paragraph.1 (Ledger.takeParagraph env sizes labels ledger paragraph) := by
  have moved := order.later after
  rw [Ledger.takeParagraph]
  split_ifs
  · exact moved
  · have added : InOrder paragraph.1 (ledger.addParagraph env paragraph.1 paragraph.2) :=
      ⟨moved.starts, moved.next, moved.recorded⟩
    exact invariant_loop (I := InOrder paragraph.1) (fun other _ inv => inv.cut) _ added

theorem starts_paragraphsFrom {t : List Char} {breaks : List (Match Char)} {start : Nat}
    (fits : Pattern.Fits start t.length breaks) :
    (∀ paragraph ∈ paragraphsFrom t start breaks, start ≤ paragraph.1 ∧ paragraph.1 ≤ t.length) ∧
      (paragraphsFrom t start breaks).Pairwise fun earlier later => earlier.1 ≤ later.1 := by
  induction breaks generalizing start with
  | nil =>
    rw [paragraphsFrom]
    split_ifs with inside
    · refine ⟨?_, List.pairwise_singleton _ _⟩
      intro paragraph member
      rw [List.mem_singleton.mp member]
      exact ⟨Nat.le_refl start, Nat.le_of_lt inside⟩
    · exact ⟨fun _ member => absurd member List.not_mem_nil, List.Pairwise.nil⟩
  | cons found more ih =>
    obtain ⟨order, later, limit, rest⟩ := fits
    obtain ⟨within, sorted⟩ := ih rest
    rw [paragraphsFrom]
    refine ⟨?_, List.pairwise_cons.mpr ⟨?_, sorted⟩⟩
    · intro paragraph member
      rcases List.mem_cons.mp member with rfl | inside
      · exact ⟨Nat.le_refl start, by omega⟩
      · have bounds := within paragraph inside
        exact ⟨by omega, bounds.2⟩
    · intro paragraph inside
      have bounds := within paragraph inside
      omega

theorem InOrder.foldl {paragraphs : List (Nat × List Char)} {bound : Nat}
    (order : InOrder bound ledger) (after : ∀ paragraph ∈ paragraphs, bound ≤ paragraph.1)
    (sorted : paragraphs.Pairwise fun earlier later => earlier.1 ≤ later.1) :
    InOrder ((paragraphs.getLast?.map (·.1)).getD bound)
      (paragraphs.foldl (Ledger.takeParagraph env sizes labels) ledger) := by
  induction paragraphs generalizing bound ledger with
  | nil => exact order
  | cons paragraph more ih =>
    obtain ⟨first, rest⟩ := List.pairwise_cons.mp sorted
    have last : (((paragraph :: more).getLast?.map (·.1)).getD bound) =
        (more.getLast?.map (·.1)).getD paragraph.1 := by
      rw [List.getLast?_cons]
      cases more.getLast? <;> rfl
    rw [last]
    exact ih (order.takeParagraph (after paragraph List.mem_cons_self)) first rest

theorem starts_cutPieces (env : Environment) (sizes : Sizes) (labels : Labels) (text : List Char) :
    ((cutPieces env sizes labels text).Pairwise fun earlier later => earlier.start ≤ later.start) ∧
      ∀ piece ∈ cutPieces env sizes labels text, piece.start ≤ text.length := by
  obtain ⟨within, sorted⟩ := starts_paragraphsFrom (blankLines.fits_finditer text)
  have started : InOrder 0 (⟨initial, 0, []⟩ : Ledger) :=
    ⟨List.Pairwise.nil, fun _ member => absurd member List.not_mem_nil, Nat.le_refl 0⟩
  have order : InOrder (lastStart (getParagraphs text)) (recorded env sizes labels text) :=
    started.foldl (fun paragraph _ => Nat.zero_le _) sorted
  have inside : lastStart (getParagraphs text) ≤ text.length := by
    rw [lastStart]
    cases last : (getParagraphs text).getLast? with
    | none => exact Nat.zero_le _
    | some paragraph => exact (within paragraph (List.mem_of_getLast? last)).2
  rw [cutPieces, Ledger.finish]
  have bound : ∀ piece ∈ (recorded env sizes labels text).pieces, piece.start ≤ text.length :=
    fun piece member => ((order.next piece member).trans order.recorded).trans inside
  split_ifs
  · exact ⟨order.starts, bound⟩
  · refine ⟨List.pairwise_append.mpr ⟨order.starts, List.pairwise_singleton _ _, ?_⟩, ?_⟩
    · intro piece member last new
      rw [List.mem_singleton.mp new]
      exact order.next piece member
    · intro piece member
      rcases List.mem_append.mp member with earlier | new
      · exact bound piece earlier
      · rw [List.mem_singleton.mp new]
        exact order.recorded.trans inside

end Starts

theorem sound_placements (env : Environment) (sizes : Sizes) (labels : Labels)
    (text : List Char) : Sound text (placements 0 (cutPieces env sizes labels text)) := by
  obtain ⟨_, account, _⟩ := balanced_cutPieces env sizes labels text
  have marked : ∀ piece ∈ cutPieces env sizes labels text, piece.Marked :=
    forall_cutPieces marked_nextPiece marked_lastPiece text
  obtain ⟨starts, _⟩ := starts_cutPieces env sizes labels text
  refine ⟨?_, ?_⟩
  · intro placement member
    have first : placement ∈ placements ([] : List Char).length (cutPieces env sizes labels text) :=
      member
    obtain ⟨place, inside, made⟩ := place_of_mem_placements [] first
    obtain ⟨charStart, charEnd⟩ := marked placement.piece inside placement.part made
    rw [List.nil_append, List.append_nil, account] at place
    exact ⟨charStart, charEnd, place⟩
  · have sorted := starts.sublist (map_piece_placements 0 (cutPieces env sizes labels text))
    rwa [List.pairwise_map] at sorted

theorem sound_congr {whole other : List Char} {chunks : List Placement}
    (same : letters whole = letters other) (sound : Sound whole chunks) : Sound other chunks := by
  refine ⟨?_, sound.2⟩
  intro placement member
  obtain ⟨charStart, charEnd, place⟩ := sound.1 placement member
  exact ⟨charStart, charEnd, same ▸ place⟩

theorem place_append {l piece : List Char} (front : List Char) {n : Nat}
    (place : (l.drop n).take piece.length = piece) (back : List Char) :
    ((front ++ (l ++ back)).drop (front.length + n)).take piece.length = piece := by
  have size := congrArg List.length place
  rw [List.length_take] at size
  rw [List.drop_length_add_append, List.drop_append, List.take_append_of_le_length (by omega)]
  exact place

def Placement.shift (front : List Char) (part : ChunkPart) (placement : Placement) : Placement where
  piece := { placement.piece with start := front.length + placement.piece.start }
  part := part
  before := (letters front).length + placement.before

theorem Placement.Sound.shift {text : List Char} {placement : Placement}
    (sound : placement.Sound text) (front back : List Char) {part : ChunkPart}
    (charStart : part.charStart = front.length + placement.part.charStart)
    (charEnd : part.charEnd = front.length + placement.part.charEnd) :
    (placement.shift front part).Sound (front ++ (text ++ back)) := by
  refine ⟨?_, ?_, ?_⟩
  · show part.charStart = front.length + placement.piece.start
    rw [charStart, sound.charStart]
  · show part.charEnd = front.length + placement.piece.start + placement.piece.content.length
    rw [charEnd, sound.charEnd, Piece.reach, Nat.add_assoc]
  · show ((letters (front ++ (text ++ back))).drop ((letters front).length + placement.before)).take
      placement.piece.fresh.length = placement.piece.fresh
    rw [letters_append, letters_append]
    exact place_append _ sound.place _

theorem Placement.Sound.append {text : List Char} {placement : Placement}
    (sound : placement.Sound text) (back : List Char) : placement.Sound (text ++ back) := by
  refine ⟨sound.charStart, sound.charEnd, ?_⟩
  have place := place_append [] sound.place (letters back)
  rw [List.nil_append, List.length_nil, Nat.zero_add, ← letters_append] at place
  exact place

variable (env : Environment) (sizes : Sizes)

structure Reading where
  layout : Layout
  read : List Char
  chunks : List Placement

def Reading.takeBlock (reading : Reading) (block : Fields) : Reading :=
  let text := textOf env block
  if text = [] then reading
  else
    let headers := trackHeaders env text reading.layout.headers
    let labels : Labels :=
      ⟨modeFromBlockType (blockTypeOf env block), blockMetadata env block headers⟩
    let nested := placements 0 (cutPieces env sizes labels text)
    { layout := {
        ordered := reading.layout.ordered ++
          (nested.map (·.part)).mapIdx fun i part => reading.layout.place part i
        index := reading.layout.index + (nested.map (·.part)).length
        charCursor := reading.layout.charCursor + (text.length + 1)
        headers := headers }
      read := reading.read ++ (text ++ ['\n'])
      chunks := reading.chunks ++ nested.mapIdx fun i placement =>
        placement.shift reading.read (reading.layout.place placement.part i) }

def readBlocks (blocks : List Fields) : Reading :=
  blocks.foldl (Reading.takeBlock env sizes) ⟨⟨[], 0, 0, ⟨[], [], []⟩⟩, [], []⟩

def joinedText (blocks : List Fields) : List Char :=
  ['\n'].intercalate ((blocks.map (textOf env)).filter (· ≠ []))

theorem checkSizes_sizes (sizes : Sizes) :
    checkSizes sizes.chunkSize sizes.overlap sizes.minLength = .ok sizes := by
  obtain ⟨chunkSize, overlap, minLength, fits⟩ := sizes
  simp only [checkSizes]
  rw [dif_neg (by omega), dif_neg (by omega), dif_neg (by omega)]
  rfl

theorem chunk_eq_chunkText (labels : Labels) {text : List Char} (filled : text ≠ []) :
    chunk env text sizes.chunkSize sizes.overlap sizes.minLength labels =
      .ok ((placements 0 (cutPieces env sizes labels text)).map (·.part)) := by
  obtain ⟨parts, _, _⟩ := balanced_cutPieces env sizes labels text
  rw [map_part_placements, ← parts, chunk, if_neg filled, checkSizes_sizes]
  rfl

theorem takeBlock_layout (reading : Reading) (block : Fields) :
    takeBlock env sizes.chunkSize sizes.overlap sizes.minLength reading.layout block =
      .ok (reading.takeBlock env sizes block).layout := by
  rw [takeBlock, Reading.takeBlock]
  simp only [bind, Except.bind]
  split_ifs with empty
  · rfl
  · rw [chunk_eq_chunkText env sizes _ empty]
    rfl

theorem layout_readBlocks (blocks : List Fields) :
    blocks.foldlM (takeBlock env sizes.chunkSize sizes.overlap sizes.minLength)
      ⟨[], 0, 0, ⟨[], [], []⟩⟩ = .ok (readBlocks env sizes blocks).layout := by
  have along : ∀ (blocks : List Fields) (reading : Reading),
      blocks.foldlM (takeBlock env sizes.chunkSize sizes.overlap sizes.minLength) reading.layout =
        .ok (blocks.foldl (Reading.takeBlock env sizes) reading).layout := by
    intro blocks
    induction blocks with
    | nil => exact fun reading => rfl
    | cons block more ih =>
      intro reading
      rw [List.foldlM_cons, takeBlock_layout]
      exact ih (reading.takeBlock env sizes block)
  exact along blocks ⟨⟨[], 0, 0, ⟨[], [], []⟩⟩, [], []⟩

/-- The chunks of the blocks read so far stand in the text that was read, before its end. -/
structure Steady (reading : Reading) : Prop where
  cursor : reading.layout.charCursor = reading.read.length
  ordered : reading.layout.ordered = reading.chunks.map (·.part)
  sound : Sound reading.read reading.chunks
  before : ∀ placement ∈ reading.chunks, placement.piece.start < reading.read.length

variable {env sizes}

theorem Sound.nest {text : List Char} {nested : List Placement} (sound : Sound text nested)
    {layout : Layout} {front : List Char} (cursor : layout.charCursor = front.length)
    (back : List Char) : Sound (front ++ (text ++ back)) (nested.mapIdx fun i placement =>
      placement.shift front (layout.place placement.part i)) := by
  refine ⟨?_, ?_⟩
  · intro placement member
    obtain ⟨i, inside, rfl⟩ := List.mem_mapIdx.mp member
    have here := sound.1 nested[i] (List.getElem_mem inside)
    exact here.shift front back (congrArg (· + _) cursor) (congrArg (· + _) cursor)
  · rw [List.pairwise_iff_getElem]
    intro i j first second order
    rw [List.getElem_mapIdx, List.getElem_mapIdx]
    rw [List.length_mapIdx] at first second
    exact Nat.add_le_add_left (List.pairwise_iff_getElem.mp sound.2 i j first second order) _

theorem Steady.takeBlock {reading : Reading} (steady : Steady reading) (block : Fields) :
    Steady (reading.takeBlock env sizes block) := by
  rw [Reading.takeBlock]
  simp only
  split_ifs with empty
  · exact steady
  · generalize Labels.mk _ _ = labels
    generalize textOf env block = text
    obtain ⟨_, inside⟩ := starts_cutPieces env sizes labels text
    have nested := (sound_placements env sizes labels text).nest steady.cursor ['\n']
    have within : ∀ placement ∈ placements 0 (cutPieces env sizes labels text),
        placement.piece.start ≤ text.length := by
      intro placement member
      exact inside placement.piece ((map_piece_placements 0 _).subset (List.mem_map_of_mem member))
    generalize placements 0 (cutPieces env sizes labels text) = chunks at *
    refine ⟨?_, ?_, ⟨?_, ?_⟩, ?_⟩
    · simp [steady.cursor]
    · rw [List.map_append, ← steady.ordered]
      refine congrArg (reading.layout.ordered ++ ·) (List.ext_getElem (by simp) ?_)
      intro i _ _
      simp [Placement.shift]
    · intro placement member
      rcases List.mem_append.mp member with earlier | new
      · exact (steady.sound.1 placement earlier).append _
      · exact nested.1 placement new
    · refine List.pairwise_append.mpr ⟨steady.sound.2, nested.2, ?_⟩
      intro earlier first later second
      obtain ⟨i, bound, rfl⟩ := List.mem_mapIdx.mp second
      exact Nat.le_trans (Nat.le_of_lt (steady.before earlier first)) (Nat.le_add_right _ _)
    · intro placement member
      have longer : (reading.read ++ (text ++ ['\n'])).length =
          reading.read.length + (text.length + 1) := by
        simp
      rw [longer]
      rcases List.mem_append.mp member with earlier | new
      · have bound := steady.before placement earlier
        omega
      · obtain ⟨i, bound, rfl⟩ := List.mem_mapIdx.mp new
        have last := within chunks[i] (List.getElem_mem bound)
        show reading.read.length + chunks[i].piece.start < _
        omega

theorem steady_readBlocks (env : Environment) (sizes : Sizes) (blocks : List Fields) :
    Steady (readBlocks env sizes blocks) := by
  have nothing : Sound [] [] := ⟨fun _ member => absurd member List.not_mem_nil, List.Pairwise.nil⟩
  have along : ∀ (blocks : List Fields) (reading : Reading), Steady reading →
      Steady (blocks.foldl (Reading.takeBlock env sizes) reading) := by
    intro blocks
    induction blocks with
    | nil => exact fun reading steady => steady
    | cons block more ih => exact fun reading steady => ih _ (steady.takeBlock block)
  exact along blocks _ ⟨rfl, rfl, nothing, fun _ member => absurd member List.not_mem_nil⟩

theorem letters_readBlocks (env : Environment) (sizes : Sizes) (blocks : List Fields) :
    letters (readBlocks env sizes blocks).read =
      blocks.flatMap fun block => letters (textOf env block) := by
  have newline : letters ['\n'] = [] := by decide
  have along : ∀ (blocks : List Fields) (reading : Reading),
      letters (blocks.foldl (Reading.takeBlock env sizes) reading).read =
        letters reading.read ++ blocks.flatMap fun block => letters (textOf env block) := by
    intro blocks
    induction blocks with
    | nil => exact fun reading => (List.append_nil _).symm
    | cons block more ih =>
      intro reading
      have taken : letters (reading.takeBlock env sizes block).read =
          letters reading.read ++ letters (textOf env block) := by
        rw [Reading.takeBlock]
        simp only
        split_ifs with empty
        · rw [empty]
          exact (List.append_nil _).symm
        · rw [letters_append, letters_append, newline, List.append_nil]
      rw [List.foldl_cons, ih, taken, List.flatMap_cons, List.append_assoc]
  exact along blocks _

theorem letters_intercalate (texts : List (List Char)) :
    letters (['\n'].intercalate texts) = texts.flatMap letters := by
  have newline : letters ['\n'] = [] := by decide
  induction texts with
  | nil => rfl
  | cons text more ih =>
    cases more with
    | nil => simp
    | cons =>
      rw [List.intercalate_cons_cons, letters_append, letters_append, newline, ih]
      simp

theorem letters_joinedText (env : Environment) (blocks : List Fields) :
    letters (joinedText env blocks) = blocks.flatMap fun block => letters (textOf env block) := by
  rw [joinedText, letters_intercalate]
  induction blocks with
  | nil => rfl
  | cons block more ih =>
    rw [List.map_cons, List.flatMap_cons, ← ih]
    by_cases empty : textOf env block = []
    · simp [empty, letters]
    · simp [empty]

structure LocatedWithCare (whole : List Char) (chunks : List Placement) : Prop where
  enough : Careful whole chunks → Located whole chunks
  needed : Unrepeated whole chunks → Located whole chunks → Careful whole chunks

theorem locatedWithCare {whole : List Char} {chunks : List Placement} (sound : Sound whole chunks) :
    LocatedWithCare whole chunks :=
  ⟨located_of_careful sound, careful_of_located sound⟩

end AverQel.Ingestion.Chunking
