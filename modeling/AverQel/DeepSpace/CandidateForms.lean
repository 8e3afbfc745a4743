/- digest: The candidates of one prompt have keys of different forms, and are explicit together. -/
import AverQel.DeepSpace.MemoryCandidates
import AverQel.Foundation.Letters

namespace AverQel.DeepSpace

open Foundation

def keyLetter (key : String) : Option Char := key.toList.head?

theorem keyLetter_append {letter : Char} {label : String} (starts : keyLetter label = some letter)
    (text : String) : keyLetter (label ++ text) = some letter := by
  rw [keyLetter] at starts
  rw [keyLetter, String.toList_append, List.head?_append, starts]
  rfl

theorem keyLetter_truncate (key : String) : keyLetter (Text.truncate 120 key) = keyLetter key := by
  rw [keyLetter, keyLetter, Text.truncate, String.toList_ofList]
  cases key.toList with
  | nil | cons => rfl

theorem keyLetter_strip {key : String} {letter : Char} (starts : keyLetter key = some letter)
    (filled : Text.isSpace letter = false) : keyLetter (Text.strip key) = some letter := by
  rw [keyLetter] at starts
  rw [keyLetter, Text.strip, String.toList_ofList]
  cases whole : key.toList with
  | nil =>
    rw [whole] at starts
    cases starts
  | cons c rest =>
    rw [whole] at starts
    obtain rfl := Option.some.inj starts
    exact Text.head?_stripChars filled rest

variable (lib : TextLibrary)

def formOf (candidate : MemoryCandidate) : Option Char × Bool :=
  (keyLetter candidate.key, candidate.explicit)

def formLetters : List (Option Char) :=
  [some 'f', some 'p', some 'd', some 'c', some 'g', some 'a', some 'w']

def forms (explicit : Bool) : List (Option Char × Bool) :=
  formLetters.map fun letter => (letter, explicit)

variable {lib}

variable {explicit : Bool}

theorem formOf_structuredCandidate {key value : String} {candidate : MemoryCandidate}
    (built : structuredCandidate lib key value explicit = some candidate) :
    formOf candidate = (keyLetter key, explicit) := by
  unfold structuredCandidate at built
  dsimp only at built
  split_ifs at built
  obtain rfl := Option.some.inj built
  rw [formOf, keyLetter_truncate]

theorem form_found {α : Type} (mark : Option Char × Bool) {form : α → Option MemoryCandidate}
    (labelled : ∀ a, ∀ candidate ∈ form a, formOf candidate = mark) (found : Option α) :
    (((found.map form).toList.filterMap id).map formOf).Sublist [mark] := by
  cases found with
  | none => exact List.nil_sublist _
  | some a =>
    cases built : form a with
    | none =>
      simp only [Option.map_some, built, Option.toList_some, List.filterMap_cons, id_eq,
        List.filterMap_nil, List.map_nil]
      exact List.nil_sublist _
    | some candidate =>
      simp only [Option.map_some, built, Option.toList_some, List.filterMap_cons, id_eq,
        List.filterMap_nil, List.map_cons, List.map_nil]
      rw [labelled a candidate built]

variable {patterns : PromptPatterns}

theorem form_label {label text value : String} {letter : Char}
    (starts : keyLetter label = some letter) :
    ∀ candidate ∈ structuredCandidate lib (label ++ text) value explicit,
      formOf candidate = (some letter, explicit) := by
  intro candidate built
  rw [formOf_structuredCandidate built, keyLetter_append starts]

theorem forms_structuredForms {text : String} {found : List (Option MemoryCandidate)}
    (taken : structuredForms lib patterns text explicit = some found) :
    ((found.filterMap id).map formOf).Sublist (forms explicit) := by
  have both {xs ys : List (Option MemoryCandidate)} {ls ms : List (Option Char × Bool)}
      (first : ((xs.filterMap id).map formOf).Sublist ls)
      (second : ((ys.filterMap id).map formOf).Sublist ms) :
      (((xs ++ ys).filterMap id).map formOf).Sublist (ls ++ ms) := by
    rw [List.filterMap_append, List.map_append]
    exact first.append second
  have pair {a b : Option MemoryCandidate} (l m : Option Char × Bool)
      (first : ∀ candidate ∈ a, formOf candidate = l)
      (second : ∀ candidate ∈ b, formOf candidate = m) :
      (([a, b].filterMap id).map formOf).Sublist [l, m] :=
    both (form_found l (fun _ : Unit => first) (some ()))
      (form_found m (fun _ : Unit => second) (some ()))
  have facts : keyLetter "fact_" = some 'f' := by decide
  have preferences : keyLetter "preference_" = some 'p' := by decide
  have decisions : keyLetter "decision_" = some 'd' := by decide
  have commitments : keyLetter "commitment_" = some 'c' := by decide
  have goals : keyLetter "goal_" = some 'g' := by decide
  have artifacts : keyLetter "artifact_" = some 'a' := by decide
  have workflows : keyLetter "workflow_" = some 'w' := by decide
  have all : forms explicit = [(some 'f', explicit)] ++ [(some 'p', explicit)] ++
      [(some 'd', explicit)] ++ [(some 'c', explicit)] ++ [(some 'g', explicit)] ++
        [(some 'a', explicit), (some 'w', explicit)] := rfl
  rw [all]
  unfold structuredForms at taken
  dsimp only at taken
  cases artifact : patterns.artifact text with
  | none =>
    rw [artifact] at taken
    obtain rfl := Option.some.inj taken
    refine List.Sublist.trans (both (both (both (both (form_found (some 'f', explicit) ?_ _)
      (form_found (some 'p', explicit) ?_ _)) (form_found (some 'd', explicit) ?_ _))
      (form_found (some 'c', explicit) ?_ _)) (form_found (some 'g', explicit) ?_ _))
      (List.sublist_append_left _ _)
    · exact fun _ => form_label facts
    · exact fun _ => form_label preferences
    · exact fun _ => form_label decisions
    · exact fun _ => form_label commitments
    · exact fun _ => form_label goals
  | some =>
    rw [artifact] at taken
    obtain ⟨rule, _, rfl⟩ := Option.map_eq_some_iff.mp taken
    refine both (both (both (both (both (form_found (some 'f', explicit) ?_ _)
      (form_found (some 'p', explicit) ?_ _)) (form_found (some 'd', explicit) ?_ _))
      (form_found (some 'c', explicit) ?_ _)) (form_found (some 'g', explicit) ?_ _))
      (pair (some 'a', explicit) (some 'w', explicit) ?_ ?_)
    · exact fun _ => form_label facts
    · exact fun _ => form_label preferences
    · exact fun _ => form_label decisions
    · exact fun _ => form_label commitments
    · exact fun _ => form_label goals
    · exact form_label artifacts
    · exact form_label workflows

theorem forms_candidatesFromPrompt {prompt : String} {candidates : List MemoryCandidate}
    (taken : candidatesFromPrompt lib patterns prompt = some candidates) :
    ∃ explicit, (candidates.map formOf).Sublist (forms explicit) := by
  unfold candidatesFromPrompt at taken
  dsimp only at taken
  by_cases short : (Text.joinWords prompt).length < 8 ∨ 2000 < (Text.joinWords prompt).length
  · rw [if_pos short] at taken
    obtain rfl := Option.some.inj taken
    exact ⟨true, List.nil_sublist _⟩
  · rw [if_neg short] at taken
    obtain ⟨found, structured, rfl⟩ := Option.map_eq_some_iff.mp taken
    refine ⟨(patterns.explicit (Text.joinWords prompt)).isSome, ?_⟩
    refine ((List.take_sublist _ _).map formOf).trans ?_
    split_ifs with alone
    · -- a fact that has no other form
      have general : ∀ candidate ∈ structuredCandidate lib ("fact_" ++ slug lib
          (((patterns.explicit (Text.joinWords prompt)).map Text.strip).getD ""))
          (((patterns.explicit (Text.joinWords prompt)).map Text.strip).getD "") true,
          formOf candidate = (some 'f', true) := form_label (by decide)
      have one := form_found (some 'f', true) (fun _ : Unit => general) (some ())
      rw [alone.1]
      exact one.trans (by decide)
    · exact forms_structuredForms structured

theorem forms_handledCandidates (lib : TextLibrary) (patterns : PromptPatterns)
    (preferences : MemoryPreferences) (turn : FinishedTurn) :
    ∃ explicit, ((handledCandidates lib patterns preferences turn).map formOf).Sublist
      (forms explicit) := by
  unfold handledCandidates
  dsimp only
  cases taken : candidatesFromPrompt lib patterns turn.prompt with
  | none =>
    refine ⟨true, ?_⟩
    split_ifs <;> exact List.nil_sublist _
  | some =>
    obtain ⟨explicit, all⟩ := forms_candidatesFromPrompt taken
    refine ⟨explicit, ?_⟩
    rw [Option.getD_some]
    split_ifs
    · exact List.nil_sublist _
    · exact all
    · exact (List.filter_sublist.map formOf).trans all

end AverQel.DeepSpace
