/- digest: Which of the patterns that a prompt matches become candidates of it. -/
import AverQel.DeepSpace.CandidateForms
import AverQel.Foundation.Slices

namespace AverQel.DeepSpace

open Foundation

/-- The patterns of `_candidates_from_prompt`. -/
inductive PatternKind where
  | fact
  | preference
  | workflow
  | decision
  | commitment
  | goal
  | artifact
  deriving DecidableEq, Repr

namespace PatternKind

def order : List PatternKind :=
  [fact, preference, workflow, decision, commitment, goal, artifact]

def appended : List PatternKind :=
  [fact, preference, decision, commitment, goal, artifact, workflow]

def others : List PatternKind := [fact, preference, decision, commitment, goal, artifact]

variable (lib : TextLibrary) (patterns : PromptPatterns) (text : String) (explicit : Bool)

/-- The candidate of a pattern, when the pattern matches. -/
def matched : PatternKind → Option (Option MemoryCandidate)
  | fact => (patterns.fact text).map fun (subject, value) =>
      structuredCandidate lib ("fact_" ++ slug lib (Text.strip subject))
        ("My " ++ Text.strip subject ++ " is " ++ Text.strip value) explicit
  | preference => (patterns.preference text).map fun (predicate, value) =>
      structuredCandidate lib ("preference_" ++ slug lib value)
        ("I " ++ lib.lower predicate ++ " " ++ Text.strip value) explicit
  | workflow => (patterns.workflow text).map fun (context, rule) =>
      structuredCandidate lib ("workflow_" ++ slug lib context)
        ("For " ++ Text.strip context ++ ", " ++ Text.strip rule) explicit
  | decision => (patterns.decision text).map fun decision =>
      structuredCandidate lib ("decision_" ++ slug lib (Text.strip decision))
        ("Decision: " ++ Text.strip decision) explicit
  | commitment => (patterns.commitment text).map fun commitment =>
      structuredCandidate lib ("commitment_" ++ slug lib (Text.strip commitment))
        ("Commitment: " ++ Text.strip commitment) explicit
  | goal => (patterns.goal text).map fun goal =>
      structuredCandidate lib ("goal_" ++ slug lib (Text.strip goal))
        ("Project goal: " ++ Text.strip goal) explicit
  | artifact => (patterns.artifact text).map fun (name, value) =>
      structuredCandidate lib ("artifact_" ++ slug lib (Text.strip name))
        ("Artifact " ++ Text.strip name ++ ": " ++ Text.strip value) explicit

def yields (kind : PatternKind) : Option MemoryCandidate :=
  (kind.matched lib patterns text explicit).join

def letter : PatternKind → Char
  | fact => 'f'
  | preference => 'p'
  | workflow => 'w'
  | decision => 'd'
  | commitment => 'c'
  | goal => 'g'
  | artifact => 'a'

end PatternKind

section Forms

variable {lib : TextLibrary} {patterns : PromptPatterns} {text : String} {explicit : Bool}

open PatternKind

theorem structuredForms_of_none (unnamed : patterns.artifact text = none) :
    structuredForms lib patterns text explicit =
      some (others.filterMap fun kind => kind.matched lib patterns text explicit) := by
  have none_ : artifact.matched lib patterns text explicit = none := by rw [matched, unnamed]; rfl
  rw [structuredForms, unnamed, List.filterMap_eq_flatMap_toList]
  simp only [others, List.flatMap_cons, List.flatMap_nil, List.append_nil, none_,
    Option.toList_none, List.append_assoc]
  rfl

theorem structuredForms_of_some {named : String × String}
    (found : patterns.artifact text = some named) :
    structuredForms lib patterns text explicit =
      (patterns.workflow text).map fun _ =>
        appended.filterMap fun kind => kind.matched lib patterns text explicit := by
  rw [structuredForms, found]
  refine Option.map_congr fun rule ruled => ?_
  have file : (artifact.matched lib patterns text explicit).toList = [structuredCandidate lib
      ("artifact_" ++ slug lib (Text.strip named.1))
      ("Artifact " ++ Text.strip named.1 ++ ": " ++ Text.strip named.2) explicit] := by
    rw [matched, found]
    rfl
  have flow : (workflow.matched lib patterns text explicit).toList = [structuredCandidate lib
      ("workflow_" ++ slug lib rule.1)
      ("For " ++ Text.strip rule.1 ++ ", " ++ Text.strip rule.2) explicit] := by
    rw [matched, ruled]
    rfl
  rw [List.filterMap_eq_flatMap_toList]
  simp only [appended, List.flatMap_cons, List.flatMap_nil, List.append_nil, List.append_assoc,
    file, flow, List.cons_append, List.nil_append]
  rfl

theorem filterMap_matched (lib : TextLibrary) (patterns : PromptPatterns) (text : String)
    (explicit : Bool) (kinds : List PatternKind) :
    (kinds.filterMap fun kind => kind.matched lib patterns text explicit).filterMap id =
      kinds.filterMap fun kind => kind.yields lib patterns text explicit :=
  List.filterMap_filterMap

variable {kind : PatternKind}

theorem exists_of_yields {candidate : MemoryCandidate}
    (found : kind.yields lib patterns text explicit = some candidate) :
    ∃ label name value, keyLetter label = some kind.letter ∧
      structuredCandidate lib (label ++ name) value explicit = some candidate := by
  have labelled {α : Type} {hit : Option α} {label : String} {name value : α → String}
      (starts : keyLetter label = some kind.letter)
      (built : (hit.map fun a =>
        structuredCandidate lib (label ++ name a) (value a) explicit).join = some candidate) :
      ∃ label name value, keyLetter label = some kind.letter ∧
        structuredCandidate lib (label ++ name) value explicit = some candidate := by
    obtain ⟨a, _, same⟩ := Option.map_eq_some_iff.mp (Option.join_eq_some_iff.mp built)
    exact ⟨label, name a, value a, starts, same⟩
  cases kind
  all_goals exact labelled (by decide) found

theorem keyLetter_of_yields {candidate : MemoryCandidate}
    (found : kind.yields lib patterns text explicit = some candidate) :
    keyLetter candidate.key = some kind.letter := by
  obtain ⟨label, name, value, starts, built⟩ := exists_of_yields found
  exact congrArg Prod.fst (form_label starts candidate built)

theorem not_sensitive_of_structuredCandidate {key value : String} {candidate : MemoryCandidate}
    (built : structuredCandidate lib key value explicit = some candidate) :
    isSensitiveCandidate lib candidate.value = false := by
  unfold structuredCandidate at built
  dsimp only at built
  split_ifs at built with size sensitive
  obtain rfl := Option.some.inj built
  exact eq_false_of_ne_true sensitive

theorem not_sensitive_of_yields {candidate : MemoryCandidate}
    (found : kind.yields lib patterns text explicit = some candidate) :
    isSensitiveCandidate lib candidate.value = false := by
  obtain ⟨_, _, _, _, built⟩ := exists_of_yields found
  exact not_sensitive_of_structuredCandidate built

end Forms

variable (lib : TextLibrary) (patterns : PromptPatterns) (prompt : String)

/-- The text in which the patterns look, and whether the prompt is an explicit request. -/
def consideredText : Option (String × Bool) :=
  let normalized := Text.joinWords prompt
  if normalized.length < 8 ∨ 2000 < normalized.length then none
  else
    let explicitMatch := patterns.explicit normalized
    let explicitText := (explicitMatch.map Text.strip).getD ""
    some (if explicitText = "" then normalized else explicitText, explicitMatch.isSome)

def generalFact (text : String) : Option MemoryCandidate :=
  structuredCandidate lib ("fact_" ++ slug lib text) text true

/-- The candidates are those of the first three patterns that match with an admissible value, or
the explicit request itself when there is none. -/
structure Extracts (candidates : List MemoryCandidate) : Prop where
  few : candidates.length ≤ 3
  harmless : ∀ candidate ∈ candidates, isSensitiveCandidate lib candidate.value = false
  complete : ∀ text explicit, consideredText patterns prompt = some (text, explicit) →
    ∀ before kind after, PatternKind.order = before ++ kind :: after →
      ∀ candidate ∈ kind.yields lib patterns text explicit,
        (before.filterMap fun kind => kind.yields lib patterns text explicit).length < 3 →
          candidate ∈ candidates
  matched : ∀ candidate ∈ candidates, ∃ text explicit,
    consideredText patterns prompt = some (text, explicit) ∧
      ((∃ kind : PatternKind, kind.yields lib patterns text explicit = some candidate) ∨
        (explicit = true ∧ generalFact lib text = some candidate ∧
          ∀ kind : PatternKind, kind.yields lib patterns text explicit = none))

/-- A named file and a workflow rule stand together: the file needs the rule, and an admissible
rule needs the file and at most two candidates beside its own. -/
structure Extractable : Prop where
  ruled : ∀ text explicit, consideredText patterns prompt = some (text, explicit) →
    (patterns.artifact text).isSome → (patterns.workflow text).isSome
  named : ∀ text explicit, consideredText patterns prompt = some (text, explicit) →
    (PatternKind.workflow.yields lib patterns text explicit).isSome →
      (patterns.artifact text).isSome ∧
        (PatternKind.others.filterMap fun kind =>
          kind.yields lib patterns text explicit).length ≤ 2

variable {lib patterns prompt}

theorem candidatesFromPrompt_of_none (skipped : consideredText patterns prompt = none) :
    candidatesFromPrompt lib patterns prompt = some [] := by
  unfold consideredText at skipped
  unfold candidatesFromPrompt
  dsimp only at skipped ⊢
  split_ifs at skipped ⊢
  rfl

theorem candidatesFromPrompt_of_some (lib : TextLibrary) {text : String} {explicit : Bool}
    (considered : consideredText patterns prompt = some (text, explicit)) :
    ∃ general : List (Option MemoryCandidate),
      (general = [] ∨ explicit = true ∧ general = [generalFact lib text]) ∧
        candidatesFromPrompt lib patterns prompt =
          (structuredForms lib patterns text explicit).map fun forms =>
            ((if forms = [] then general else forms).filterMap id).take 3 := by
  unfold consideredText at considered
  unfold candidatesFromPrompt
  dsimp only at considered ⊢
  by_cases size : (Text.joinWords prompt).length < 8 ∨ 2000 < (Text.joinWords prompt).length
  · rw [if_pos size] at considered
    cases considered
  · rw [if_neg size] at considered ⊢
    obtain ⟨same, request⟩ := Prod.mk.inj (Option.some.inj considered)
    rw [same, request]
    by_cases general : explicit = true ∧
        ((patterns.explicit (Text.joinWords prompt)).map Text.strip).getD "" ≠ ""
    · obtain ⟨asked, filled⟩ := general
      rw [if_neg filled] at same
      refine ⟨[generalFact lib text], .inr ⟨asked, rfl⟩, Option.map_congr fun forms _ => ?_⟩
      rw [same] at filled ⊢
      by_cases empty : forms = []
      · rw [if_pos ⟨asked, empty, filled⟩, if_pos empty, generalFact]
      · rw [if_neg fun alone => empty alone.2.1, if_neg empty]
    · refine ⟨[], .inl rfl, Option.map_congr fun forms _ => ?_⟩
      rw [if_neg fun alone => general ⟨alone.1, alone.2.2⟩]
      by_cases empty : forms = []
      · rw [if_pos empty, empty]
      · rw [if_neg empty]

section Considered

variable {text : String} {explicit : Bool}
  (considered : consideredText patterns prompt = some (text, explicit))

include considered

theorem extracts_of_kinds (kinds : List PatternKind)
    (first : ∀ candidate ∈ (PatternKind.order.filterMap fun kind =>
        kind.yields lib patterns text explicit).take 3,
      candidate ∈ (kinds.filterMap fun kind => kind.yields lib patterns text explicit).take 3) :
    Extracts lib patterns prompt
      ((kinds.filterMap fun kind => kind.yields lib patterns text explicit).take 3) := by
  have found : ∀ candidate ∈ (kinds.filterMap fun kind =>
      kind.yields lib patterns text explicit).take 3,
      ∃ kind : PatternKind, kind.yields lib patterns text explicit = some candidate := by
    intro candidate member
    obtain ⟨kind, _, built⟩ := List.mem_filterMap.mp (List.mem_of_mem_take member)
    exact ⟨kind, built⟩
  refine ⟨List.length_take_le 3 _, ?_, ?_, ?_⟩
  · intro candidate member
    obtain ⟨kind, built⟩ := found candidate member
    exact not_sensitive_of_yields built
  · intro text' explicit' same
    obtain ⟨rfl, rfl⟩ := Prod.mk.inj (Option.some.inj (considered.symm.trans same))
    exact (Slices.forall_mem_take_filterMap _ 3).mp first
  · intro candidate member
    exact ⟨text, explicit, considered, .inl (found candidate member)⟩

theorem extracts_of_general (asked : explicit = true)
    (nothing : ∀ kind : PatternKind, kind.yields lib patterns text explicit = none) :
    Extracts lib patterns prompt (([generalFact lib text].filterMap id).take 3) := by
  have shape : ∀ candidate ∈ ([generalFact lib text].filterMap id).take 3,
      generalFact lib text = some candidate := by
    intro candidate member
    obtain ⟨form, inside, same⟩ := List.mem_filterMap.mp (List.mem_of_mem_take member)
    rw [List.mem_singleton.mp inside] at same
    exact same
  refine ⟨List.length_take_le 3 _, ?_, ?_, ?_⟩
  · intro candidate member
    exact not_sensitive_of_structuredCandidate (shape candidate member)
  · intro text' explicit' same before kind after _ candidate built
    obtain ⟨rfl, rfl⟩ := Prod.mk.inj (Option.some.inj (considered.symm.trans same))
    rw [nothing kind] at built
    cases built
  · intro candidate member
    exact ⟨text, explicit, considered, .inr ⟨asked, shape candidate member, nothing⟩⟩

theorem Extracts.workflow_mem {candidates : List MemoryCandidate} {rule : MemoryCandidate}
    (extracts : Extracts lib patterns prompt candidates)
    (ruled : PatternKind.workflow.yields lib patterns text explicit = some rule) :
    rule ∈ candidates := by
  refine extracts.complete text explicit considered [.fact, .preference] .workflow
    [.decision, .commitment, .goal, .artifact] rfl rule ruled ?_
  exact lt_of_le_of_lt (List.length_filterMap_le _ _) (by decide)

end Considered

section Kinds

variable {text : String} {explicit : Bool}

open PatternKind

theorem not_mem_others {rule : MemoryCandidate}
    (ruled : workflow.yields lib patterns text explicit = some rule) :
    rule ∉ others.filterMap fun kind => kind.yields lib patterns text explicit := by
  intro member
  obtain ⟨kind, other, built⟩ := List.mem_filterMap.mp member
  have letters := (keyLetter_of_yields ruled).symm.trans (keyLetter_of_yields built)
  revert other
  cases kind <;> first | exact absurd letters (by decide) | exact fun wrong => absurd wrong (by decide)

theorem filterMap_order (unruled : workflow.yields lib patterns text explicit = none) :
    (order.filterMap fun kind => kind.yields lib patterns text explicit) =
      others.filterMap fun kind => kind.yields lib patterns text explicit := by
  have split : order = [fact, preference] ++ workflow :: [decision, commitment, goal, artifact] := rfl
  have rest : others = [fact, preference] ++ [decision, commitment, goal, artifact] := rfl
  rw [split, rest, List.filterMap_append, List.filterMap_append, List.filterMap_cons_none unruled]

theorem filterMap_appended :
    (appended.filterMap fun kind => kind.yields lib patterns text explicit) =
      (others.filterMap fun kind => kind.yields lib patterns text explicit) ++
        (workflow.yields lib patterns text explicit).toList := by
  have split : appended = others ++ [workflow] := rfl
  rw [split, List.filterMap_append, List.filterMap_cons, List.filterMap_nil]
  cases workflow.yields lib patterns text explicit <;> rfl

end Kinds

section Agreement

variable {text : String} {explicit : Bool}
  (considered : consideredText patterns prompt = some (text, explicit))

open PatternKind

include considered

theorem extractable_iff : Extractable lib patterns prompt ↔
    ((patterns.artifact text).isSome → (patterns.workflow text).isSome) ∧
      ((workflow.yields lib patterns text explicit).isSome → (patterns.artifact text).isSome ∧
        (others.filterMap fun kind => kind.yields lib patterns text explicit).length ≤ 2) := by
  constructor
  · exact fun h => ⟨h.ruled text explicit considered, h.named text explicit considered⟩
  · rintro ⟨ruled, named⟩
    refine ⟨?_, ?_⟩
    all_goals
      intro text' explicit' same
      obtain ⟨rfl, rfl⟩ := Prod.mk.inj (Option.some.inj (considered.symm.trans same))
      assumption

theorem extracts_iff_of_unnamed (unnamed : patterns.artifact text = none) :
    (∃ candidates, candidatesFromPrompt lib patterns prompt = some candidates ∧
        Extracts lib patterns prompt candidates) ↔
      workflow.yields lib patterns text explicit = none := by
  obtain ⟨general, shape, taken⟩ := candidatesFromPrompt_of_some lib considered
  rw [structuredForms_of_none unnamed, Option.map_some] at taken
  have forms := filterMap_matched lib patterns text explicit others
  rw [taken]
  by_cases empty : (others.filterMap fun kind => kind.matched lib patterns text explicit) = []
  · rw [if_pos empty]
    rw [empty, List.filterMap_nil] at forms
    constructor
    · rintro ⟨candidates, same, extracts⟩
      obtain rfl := Option.some.inj same
      refine Option.eq_none_iff_forall_ne_some.mpr fun rule ruled => ?_
      have member := List.mem_of_mem_take (extracts.workflow_mem considered ruled)
      obtain ⟨form, inside, built⟩ := List.mem_filterMap.mp member
      rcases shape with rfl | ⟨_, rfl⟩
      · cases inside
      · -- the general fact has another letter
        rw [List.mem_singleton.mp inside] at built
        have fact := form_label (by decide : keyLetter "fact_" = some 'f') rule built
        have letters := (congrArg Prod.fst fact).symm.trans (keyLetter_of_yields ruled)
        exact absurd letters (by decide)
    · intro unruled
      have order := filterMap_order unruled
      rw [← forms] at order
      have nothing : ∀ kind : PatternKind, kind.yields lib patterns text explicit = none := by
        intro kind
        refine List.filterMap_eq_nil_iff.mp order kind ?_
        cases kind <;> decide
      refine ⟨_, rfl, ?_⟩
      rcases shape with rfl | ⟨asked, rfl⟩
      · refine extracts_of_kinds considered [] fun candidate member => ?_
        rw [order] at member
        exact member
      · exact extracts_of_general considered asked nothing
  · rw [if_neg empty, forms]
    constructor
    · rintro ⟨candidates, same, extracts⟩
      obtain rfl := Option.some.inj same
      refine Option.eq_none_iff_forall_ne_some.mpr fun rule ruled => ?_
      exact not_mem_others ruled (List.mem_of_mem_take (extracts.workflow_mem considered ruled))
    · intro unruled
      refine ⟨_, rfl, extracts_of_kinds considered others fun candidate member => ?_⟩
      rw [filterMap_order unruled] at member
      exact member

theorem extracts_iff_of_named {named rule : String × String}
    (found : patterns.artifact text = some named) (ruled : patterns.workflow text = some rule) :
    (∃ candidates, candidatesFromPrompt lib patterns prompt = some candidates ∧
        Extracts lib patterns prompt candidates) ↔
      ((workflow.yields lib patterns text explicit).isSome →
        (others.filterMap fun kind => kind.yields lib patterns text explicit).length ≤ 2) := by
  obtain ⟨general, _, taken⟩ := candidatesFromPrompt_of_some lib considered
  rw [structuredForms_of_some found, ruled, Option.map_some, Option.map_some] at taken
  have filled : (appended.filterMap fun kind => kind.matched lib patterns text explicit) ≠ [] := by
    intro empty
    have none_ := List.filterMap_eq_nil_iff.mp empty artifact (by decide)
    rw [matched, found] at none_
    cases none_
  rw [if_neg filled, filterMap_matched] at taken
  rw [taken]
  cases flow : workflow.yields lib patterns text explicit with
  | none =>
    refine iff_of_true ⟨_, rfl, extracts_of_kinds considered appended fun candidate member => ?_⟩
      fun wrong => absurd wrong (by simp)
    rw [filterMap_order flow] at member
    rw [filterMap_appended, flow, Option.toList_none, List.append_nil]
    exact member
  | some =>
    rw [Option.isSome_some, forall_prop_of_true rfl]
    constructor
    · rintro ⟨candidates, same, extracts⟩
      obtain rfl := Option.some.inj same
      by_contra many
      have member := extracts.workflow_mem considered flow
      rw [filterMap_appended, List.take_append_of_le_length (by omega)] at member
      exact not_mem_others flow (List.mem_of_mem_take member)
    · intro few
      refine ⟨_, rfl, extracts_of_kinds considered appended fun other member => ?_⟩
      obtain ⟨kind, _, built⟩ := List.mem_filterMap.mp (List.mem_of_mem_take member)
      rw [List.take_of_length_le]
      · refine List.mem_filterMap.mpr ⟨kind, ?_, built⟩
        cases kind <;> decide
      · rw [filterMap_appended, flow, List.length_append, Option.toList_some, List.length_singleton]
        omega

end Agreement

/-- When the candidates of a prompt are there and complete. -/
theorem candidatesFromPrompt_extracts_iff (lib : TextLibrary) (patterns : PromptPatterns)
    (prompt : String) :
    (∃ candidates, candidatesFromPrompt lib patterns prompt = some candidates ∧
        Extracts lib patterns prompt candidates) ↔
      Extractable lib patterns prompt := by
  cases considered : consideredText patterns prompt with
  | none =>
    refine iff_of_true ⟨[], candidatesFromPrompt_of_none considered, Nat.zero_le 3, ?_, ?_, ?_⟩
      ⟨?_, ?_⟩
    · exact fun candidate wrong => absurd wrong List.not_mem_nil
    · exact fun text explicit same => absurd (considered.symm.trans same) (by simp)
    · exact fun candidate wrong => absurd wrong List.not_mem_nil
    · exact fun text explicit same => absurd (considered.symm.trans same) (by simp)
    · exact fun text explicit same => absurd (considered.symm.trans same) (by simp)
  | some found =>
    obtain ⟨text, explicit⟩ := found
    rw [extractable_iff considered]
    cases named : patterns.artifact text with
    | none =>
      rw [extracts_iff_of_unnamed considered named]
      simp
    | some =>
      cases ruled : patterns.workflow text with
      | none =>
        obtain ⟨general, _, taken⟩ := candidatesFromPrompt_of_some lib considered
        rw [structuredForms_of_some named, ruled] at taken
        rw [taken]
        simp
      | some =>
        rw [extracts_iff_of_named considered named ruled]
        simp

/-- "The file notes.md contains the plan" -/
def filePatterns : PromptPatterns where
  explicit _ := none
  fact _ := none
  preference _ := none
  workflow _ := none
  decision _ := none
  commitment _ := none
  goal _ := none
  artifact text :=
    if text = "The file notes.md contains the plan" then some ("notes.md", "the plan") else none

/-- A named file without a workflow rule ends in an error. -/
theorem not_extracts_namedFile :
    ¬∃ candidates, candidatesFromPrompt .plain filePatterns "The file notes.md contains the plan" =
        some candidates ∧
      Extracts .plain filePatterns "The file notes.md contains the plan" candidates := by
  rintro ⟨candidates, taken, _⟩
  have raised : candidatesFromPrompt .plain filePatterns "The file notes.md contains the plan" =
      none := by decide +kernel
  rw [raised] at taken
  cases taken

end AverQel.DeepSpace
