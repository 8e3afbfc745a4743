/- digest: Writing the note of a conversation, and when nothing of it is cut off. -/
import AverQel.Base
import AverQel.DeepSpace.NoteSafety
import AverQel.Foundation.Transition
import Mathlib.Data.List.TakeDrop

namespace AverQel.DeepSpace.Notes

open Foundation
open Foundation.Markup (nest nest_trans width)
open Foundation.Text (stripChars)
open Foundation.Transition (Guarded guarded_iff_of_guarded guarded_true
  invariant_of_guarded trace)
open NoteTag (allows dialect)

/-- `MAX_NOTE_LENGTH` -/
def maxNoteLength : Nat := 100000

/-- The columns of a conversation that the note tool reads or writes. -/
structure Conversation where
  (id tenantId userId : Uuid)
  kind : String
  contentHtml : Option (List Char)
  updatedAt : Time

abbrev Conversations := Table Conversation Conversation.id

/-- A call of `write_note`, with its time and whether its commit goes through. -/
structure NoteCall where
  (tenantId userId conversationId : Uuid)
  markdown : List Char
  mode : String
  now : Time
  commits : Bool

inductive NoteError where
  | contentRequired
  | contentTooLarge
  | conversationNotFound
  | invalidMode
  | commitFailed

/-- What `read_note` returns. -/
structure NoteView where
  conversationId : Uuid
  contentHtml : List Char
  length : Nat

variable (beyondAscii : Char → Bool) (t : Conversations) (call : NoteCall)

def conversation? : Option Conversation :=
  (t.find? call.conversationId).filter fun row =>
    row.tenantId = call.tenantId ∧ row.userId = call.userId ∧ row.kind = "deepspace"

def store (content : List Char) : Conversations :=
  t.modify call.conversationId
    (fun row => { row with contentHtml := some content, updatedAt := call.now }) fun _ => rfl

def renderInto (content : List Char) : Except NoteError (List Char) :=
  let rendered := markdownToSafeHtml beyondAscii call.markdown
  if call.mode = "append" ∧ content ≠ [] then .ok (content ++ '\n' :: rendered)
  else if call.mode ≠ "replace" then .error .invalidMode
  else .ok rendered

def readNote : Except NoteError NoteView :=
  match conversation? t call with
  | none => .error .conversationNotFound
  | some row =>
    let content := row.contentHtml.getD []
    .ok ⟨call.conversationId, content, content.length⟩

def writeNote : Except NoteError (Conversations × NoteView) :=
  if stripChars call.markdown = [] then .error .contentRequired
  else if maxNoteLength < call.markdown.length then .error .contentTooLarge
  else
    match conversation? t call with
    | none => .error .conversationNotFound
    | some row =>
      match renderInto beyondAscii call (row.contentHtml.getD []) with
      | .error error => .error error
      | .ok rendered =>
        let stored := store t call (rendered.take maxNoteLength)
        if call.commits then (readNote stored call).map fun view => (stored, view)
        else .error .commitFailed

def afterCall : Conversations :=
  match writeNote beyondAscii t call with
  | .ok (stored, _) => stored
  | .error _ => t

def noteOf (t : Conversations) (id : Uuid) : List Char :=
  ((t.find? id).bind Conversation.contentHtml).getD []

def complete : List Char :=
  let content := noteOf t call.conversationId
  let rendered := markdownToSafeHtml beyondAscii call.markdown
  if call.mode = "append" ∧ content ≠ [] then content ++ '\n' :: rendered else rendered

def AllOrNothing : Prop :=
  match writeNote beyondAscii t call with
  | .ok (stored, _) => noteOf stored call.conversationId = complete beyondAscii t call ∧
      ∀ id, id ≠ call.conversationId → noteOf stored id = noteOf t id
  | .error _ => afterCall beyondAscii t call = t

def Balanced (content : List Char) : Prop :=
  ∃ tokens, content = Markup.write dialect tokens ∧ nest allows [] tokens = some []

def AllBalanced (t : Conversations) : Prop := ∀ id, Balanced (noteOf t id)

def accepts : Prop :=
  stripChars call.markdown ≠ [] ∧ call.markdown.length ≤ maxNoteLength ∧
    (conversation? t call).isSome ∧
    (call.mode = "append" ∧ noteOf t call.conversationId ≠ [] ∨ call.mode = "replace") ∧
    call.commits

def noteWidth : Nat :=
  let content := noteOf t call.conversationId
  (if call.mode = "append" ∧ content ≠ [] then content.length + 1 else 0) +
    width dialect (pageOf beyondAscii call.markdown).tokens

def Fits : Prop := accepts t call → noteWidth beyondAscii t call ≤ maxNoteLength

instance : Decidable (accepts t call) := inferInstanceAs (Decidable (_ ∧ _))

instance : Decidable (Fits beyondAscii t call) := inferInstanceAs (Decidable (_ → _))

variable {beyondAscii : Char → Bool} {t : Conversations} {call : NoteCall}

theorem length_complete :
    (complete beyondAscii t call).length = noteWidth beyondAscii t call := by
  have rendered : (markdownToSafeHtml beyondAscii call.markdown).length =
      width dialect (pageOf beyondAscii call.markdown).tokens := by
    rw [markdownToSafeHtml_eq_write, Markup.length_write]
  unfold complete noteWidth
  dsimp only
  split_ifs
  · rw [List.length_append, List.length_cons, rendered]
    omega
  · rw [rendered, Nat.zero_add]

theorem conversation?_eq_some {row : Conversation} (found : conversation? t call = some row) :
    t.find? call.conversationId = some row ∧ row.contentHtml.getD [] = noteOf t call.conversationId := by
  obtain ⟨here, _⟩ := Option.filter_eq_some_iff.mp found
  exact ⟨here, by rw [noteOf, here, Option.bind_some]⟩

theorem conversation?_store (content : List Char) : conversation? (store t call content) call =
    (conversation? t call).map fun row =>
      { row with contentHtml := some content, updatedAt := call.now } := by
  rw [conversation?, conversation?, store, Table.find?_modify, if_pos rfl]
  cases t.find? call.conversationId with
  | none => rfl
  | some =>
    rw [Option.map_some, Option.filter_some, Option.filter_some]
    split_ifs <;> rfl

theorem renderInto_noteOf : renderInto beyondAscii call (noteOf t call.conversationId) =
    if call.mode = "append" ∧ noteOf t call.conversationId ≠ [] ∨ call.mode = "replace" then
      .ok (complete beyondAscii t call)
    else .error .invalidMode := by
  unfold renderInto complete
  dsimp only
  by_cases append : call.mode = "append" ∧ noteOf t call.conversationId ≠ []
  · rw [if_pos append, if_pos (.inl append), if_pos append]
  · by_cases replace : call.mode = "replace"
    · rw [if_neg append, if_neg (not_not.mpr replace), if_pos (.inr replace), if_neg append]
    · rw [if_neg append, if_pos replace, if_neg (not_or.mpr ⟨append, replace⟩)]

theorem writeNote_cases (beyondAscii : Char → Bool) (t : Conversations) (call : NoteCall) :
    (accepts t call ∧ ∃ view, writeNote beyondAscii t call =
      .ok (store t call ((complete beyondAscii t call).take maxNoteLength), view)) ∨
    (¬accepts t call ∧ ∃ error, writeNote beyondAscii t call = .error error) := by
  unfold writeNote
  by_cases blank : stripChars call.markdown = []
  · exact .inr ⟨fun accepted => accepted.1 blank, _, if_pos blank⟩
  rw [if_neg blank]
  by_cases long : maxNoteLength < call.markdown.length
  · exact .inr ⟨fun accepted => Nat.not_le.mpr long accepted.2.1, _, if_pos long⟩
  rw [if_neg long]
  cases found : conversation? t call with
  | none =>
    refine .inr ⟨fun accepted => ?_, _, rfl⟩
    have some_ := accepted.2.2.1
    rw [found] at some_
    cases some_
  | some =>
    obtain ⟨_, content⟩ := conversation?_eq_some found
    dsimp only
    rw [content, renderInto_noteOf]
    by_cases mode : call.mode = "append" ∧ noteOf t call.conversationId ≠ [] ∨ call.mode = "replace"
    swap
    · rw [if_neg mode]
      exact .inr ⟨fun accepted => mode accepted.2.2.2.1, _, rfl⟩
    rw [if_pos mode]
    split_ifs with commits
    · left
      refine ⟨⟨blank, Nat.not_lt.mp long, by rw [found]; rfl, mode, commits⟩, ?_⟩
      have view : ∃ view, readNote (store t call ((complete beyondAscii t call).take maxNoteLength))
          call = .ok view := by
        rw [readNote, conversation?_store, found]
        exact ⟨_, rfl⟩
      obtain ⟨view, read⟩ := view
      refine ⟨view, ?_⟩
      dsimp only
      rw [read]
      rfl
    · exact .inr ⟨fun accepted => commits accepted.2.2.2.2, _, rfl⟩

theorem noteOf_store {content : List Char} (found : (conversation? t call).isSome = true)
    (id : Uuid) : noteOf (store t call content) id =
      if id = call.conversationId then content else noteOf t id := by
  obtain ⟨row, here⟩ := Option.isSome_iff_exists.mp found
  rw [noteOf, store, Table.find?_modify]
  split_ifs with same
  · rw [same, (conversation?_eq_some here).1]
    rfl
  · rfl

theorem allOrNothing_iff_fits : AllOrNothing beyondAscii t call ↔ Fits beyondAscii t call := by
  unfold AllOrNothing Fits
  rcases writeNote_cases beyondAscii t call with
    ⟨accepted, view, stored⟩ | ⟨refused, error, raised⟩
  · rw [stored]
    dsimp only
    rw [noteOf_store accepted.2.2.1, if_pos rfl, List.take_eq_self_iff, length_complete]
    constructor
    · rintro ⟨fits, _⟩ _
      exact fits
    · intro fits
      refine ⟨fits accepted, fun id other => ?_⟩
      rw [noteOf_store accepted.2.2.1, if_neg other]
  · rw [raised]
    dsimp only
    refine iff_of_true ?_ fun accepted => absurd accepted refused
    rw [afterCall, raised]

theorem balanced_markdownToSafeHtml (markdown : List Char) :
    Balanced (markdownToSafeHtml beyondAscii markdown) := by
  have oneLine : ∀ line ∈ (unifyLineEnds markdown).splitOn '\n', '\n' ∉ line := fun _ member =>
    Splitting.not_mem_of_mem_splitOn member
  obtain ⟨held, _⟩ := Page.sound_foldl beyondAscii Page.sound_start oneLine
  exact ⟨_, markdownToSafeHtml_eq_write beyondAscii markdown, (Page.sound_finish held).1⟩

theorem balanced_append {content more : List Char} (first : Balanced content)
    (second : Balanced more) : Balanced (content ++ '\n' :: more) := by
  obtain ⟨tokens, rfl, nested⟩ := first
  obtain ⟨below, rfl, nested'⟩ := second
  refine ⟨tokens ++ (.letter '\n' :: below), ?_, nest_trans nested ?_⟩
  · rw [Markup.write_append, Markup.write_cons]
    rfl
  · have newline : nest allows [] ([.letter '\n'] : List NoteToken) = some [] := rfl
    exact nest_trans newline nested'

theorem balanced_complete (balanced : AllBalanced t) :
    Balanced (complete beyondAscii t call) := by
  unfold complete
  dsimp only
  split_ifs
  · exact balanced_append (balanced _) (balanced_markdownToSafeHtml _)
  · exact balanced_markdownToSafeHtml _

theorem allBalanced_afterCall (balanced : AllBalanced t) (fits : Fits beyondAscii t call) :
    AllBalanced (afterCall beyondAscii t call) := by
  rcases writeNote_cases beyondAscii t call with
    ⟨accepted, view, stored⟩ | ⟨_, error, raised⟩
  · intro id
    rw [afterCall, stored]
    dsimp only
    rw [noteOf_store accepted.2.2.1]
    split_ifs
    · have whole : (complete beyondAscii t call).take maxNoteLength =
          complete beyondAscii t call := by
        rw [List.take_eq_self_iff, length_complete]
        exact fits accepted
      rw [whole]
      exact balanced_complete balanced
    · exact balanced id
  · rw [afterCall, raised]
    exact balanced

/-- From balanced notes, every call of a run is all or nothing and every stored note balanced
exactly when all that is accepted fits. -/
theorem allOrNothing_iff_guarded (beyondAscii : Char → Bool) (t : Conversations)
    (balanced : AllBalanced t) (calls : List NoteCall) :
    (Guarded (AllOrNothing beyondAscii) (afterCall beyondAscii) t calls ∧
      ∀ s ∈ trace (afterCall beyondAscii) t calls, AllBalanced s) ↔
    Guarded (Fits beyondAscii) (afterCall beyondAscii) t calls := by
  have same : Guarded (AllOrNothing beyondAscii) (afterCall beyondAscii) t calls ↔
      Guarded (Fits beyondAscii) (afterCall beyondAscii) t calls :=
    guarded_iff_of_guarded (I := fun _ => True) (fun _ _ _ _ => trivial)
      (fun _ _ _ _ => allOrNothing_iff_fits) trivial (guarded_true _ t calls)
  constructor
  · intro both
    exact same.mp both.1
  · intro fits
    refine ⟨same.mpr fits, ?_⟩
    exact invariant_of_guarded (fun _ _ held => allBalanced_afterCall held) balanced fits

def noDigits : Char → Bool := fun _ => false

def emptyNote : Conversations := .single ⟨7700, 7701, 7702, "deepspace", none, 0⟩

def noteCall (mode : String) (markdown : List Char) : NoteCall :=
  ⟨7701, 7702, 7700, markdown, mode, 1, true⟩

theorem allBalanced_emptyNote : AllBalanced emptyNote := by
  intro id
  have empty : noteOf emptyNote id = [] := by
    rw [noteOf]
    cases found : emptyNote.find? id with
    | none => rfl
    | some =>
      have member := (Table.find?_eq_some_iff.mp found).1
      rw [List.mem_singleton.mp member]
      rfl
  rw [empty]
  exact ⟨[], rfl, rfl⟩

def shortCalls : List NoteCall :=
  [noteCall "append" "a".toList, noteCall "replace" "# <A>".toList, noteCall "replace" " ".toList,
    noteCall "append" "- b\n- c".toList, noteCall "prepend" "d".toList]

theorem allOrNothing_shortCalls :
    Guarded (Fits noDigits) (afterCall noDigits) emptyNote shortCalls ∧
      Guarded (AllOrNothing noDigits) (afterCall noDigits) emptyNote shortCalls ∧
      ∀ s ∈ trace (afterCall noDigits) emptyNote shortCalls, AllBalanced s := by
  have fits : Guarded (Fits noDigits) (afterCall noDigits) emptyNote shortCalls := by
    decide +kernel
  exact ⟨fits,
    (allOrNothing_iff_guarded noDigits emptyNote allBalanced_emptyNote shortCalls).mpr fits⟩

def brackets (n : Nat) : List Char := List.replicate n '<'

theorem unifyLineEnds_brackets (n : Nat) : unifyLineEnds (brackets n) = brackets n := by
  induction n with
  | zero => rfl
  | succ n ih =>
    cases n with
    | zero => rfl
    | succ n =>
      have apart : ¬('<' = '\r' ∧ '<' = '\n') := by decide
      show unifyLineEnds ('<' :: '<' :: brackets n) = _
      rw [unifyLineEnds, if_neg apart]
      exact congrArg ('<' :: ·) ih

theorem stripChars_brackets (n : Nat) : stripChars (brackets n) = brackets n := by
  have full : ¬Text.isSpace '<' = true := by decide
  cases n with
  | zero => rfl
  | succ n =>
    have whole : (brackets (n + 1)).dropWhile Text.isSpace = brackets (n + 1) :=
      List.dropWhile_cons_of_neg full
    rw [stripChars, whole, brackets, List.replicate_succ', List.rdropWhile_concat_neg _ _ _ full]

theorem width_brackets (n : Nat) :
    width dialect (pageOf noDigits (brackets (n + 1))).tokens = 4 * (n + 1) + 7 := by
  have oneLine : '\n' ∉ brackets (n + 1) := by
    intro member
    exact absurd (List.eq_of_mem_replicate member) (by decide)
  have page : pageOf noDigits (brackets (n + 1)) =
      ⟨[element .p (brokenText [brackets (n + 1)])], [], false, false, []⟩ := by
    have line : Page.readLine noDigits .start (brackets (n + 1)) =
        ⟨[], [brackets (n + 1)], false, false, []⟩ := by
      rw [Page.readLine, stripChars_brackets]
      rfl
    rw [pageOf, unifyLineEnds_brackets, List.splitOn_eq_singleton oneLine, List.foldl_cons,
      List.foldl_nil, line]
    rfl
  have escaped (n : Nat) : (Markup.escape (brackets n)).length = 4 * n := by
    induction n with
    | zero => rfl
    | succ n ih =>
      have one : Markup.escape (brackets (n + 1)) = "&lt;".toList ++ Markup.escape (brackets n) :=
        rfl
      rw [one, List.length_append, ih]
      show 4 + 4 * n = 4 * (n + 1)
      omega
  have text : Renderer.broken [Markup.escape (brackets (n + 1))] =
      Markup.escape (brackets (n + 1)) := List.intercalate_singleton
  rw [page, ← Markup.length_write, Page.tokens, List.intercalate_singleton, write_element,
    write_brokenText, List.map_singleton, text]
  simp only [List.length_append, List.length_cons, escaped]
  show 3 + 4 * (n + 1) + (0 + 4) = _
  omega

theorem accepts_brackets {n : Nat} (short : n + 1 ≤ maxNoteLength) :
    accepts emptyNote (noteCall "replace" (brackets (n + 1))) := by
  refine ⟨?_, ?_, rfl, .inr rfl, rfl⟩
  · show stripChars (brackets (n + 1)) ≠ []
    rw [stripChars_brackets]
    exact List.cons_ne_nil '<' _
  · show (brackets (n + 1)).length ≤ maxNoteLength
    rwa [brackets, List.length_replicate]

theorem noteWidth_brackets (n : Nat) :
    noteWidth noDigits emptyNote (noteCall "replace" (brackets (n + 1))) = 4 * (n + 1) + 7 := by
  rw [← width_brackets]
  exact Nat.zero_add _

theorem not_allOrNothing_of_wide {n : Nat} (short : n + 1 ≤ maxNoteLength)
    (wide : maxNoteLength < 4 * (n + 1) + 7) :
    ¬Guarded (AllOrNothing noDigits) (afterCall noDigits) emptyNote
      [noteCall "replace" (brackets (n + 1))] := by
  rintro ⟨call, _⟩
  have fits := allOrNothing_iff_fits.mp call (accepts_brackets short)
  rw [noteWidth_brackets] at fits
  omega

/-- A Markdown text of 30000 characters, whose rendering has 120007. -/
theorem not_allOrNothing_brackets :
    ¬∀ (t : Conversations), AllBalanced t → ∀ calls : List NoteCall,
      Guarded (AllOrNothing noDigits) (afterCall noDigits) t calls ∧
        ∀ s ∈ trace (afterCall noDigits) t calls, AllBalanced s := by
  intro always
  have short : 29999 + 1 ≤ maxNoteLength := by decide
  have wide : maxNoteLength < 4 * (29999 + 1) + 7 := by decide
  exact not_allOrNothing_of_wide short wide (always emptyNote allBalanced_emptyNote _).1

end AverQel.DeepSpace.Notes
