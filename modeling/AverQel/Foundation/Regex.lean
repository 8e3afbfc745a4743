/- digest: Backtracking regular expressions, and replacing what they match. -/
import Mathlib.Data.List.Basic

namespace AverQel.Foundation

universe u

/-- An expression; a repetition that is not greedy stops as early as it can. -/
inductive Regex (σ : Type u) where
  | empty
  | one (accepts : σ → Bool)
  | seq (first second : Regex σ)
  | alt (first second : Regex σ)
  | star (greedy : Bool) (body : Regex σ)
  | look (ahead : Regex σ)
  | edge (word : σ → Bool)
  | atEnd

/-- A position in a text: what is before it, the last symbol first, and what is left. -/
@[ext]
structure Cursor (σ : Type u) where
  before : List σ
  rest : List σ

namespace Cursor

variable {σ : Type u}

def Eats (here there : Cursor σ) (eaten : List σ) : Prop :=
  there.before = eaten.reverse ++ here.before ∧ here.rest = eaten ++ there.rest

theorem eats_nil (here : Cursor σ) : here.Eats here [] := ⟨rfl, rfl⟩

theorem Eats.trans {here there last : Cursor σ} {eaten more : List σ}
    (first : here.Eats there eaten) (second : there.Eats last more) :
    here.Eats last (eaten ++ more) := by
  refine ⟨?_, ?_⟩
  · rw [second.1, first.1, List.reverse_append, List.append_assoc]
  · rw [first.2, second.2, List.append_assoc]

end Cursor

namespace Regex

variable {σ : Type u}

def all : List (Regex σ) → Regex σ
  | [] => .empty
  | r :: rest => .seq r (all rest)

def any : List (Regex σ) → Regex σ
  | [] => .one fun _ => false
  | [r] => r
  | r :: rest => .alt r (any rest)

def optional (r : Regex σ) : Regex σ := .alt r .empty

def times (n : Nat) (r : Regex σ) : Regex σ := all (List.replicate n r)

/-- `r{n,}` -/
def atLeast (n : Nat) (r : Regex σ) : Regex σ := .seq (times n r) (.star true r)

def upTo : Nat → Regex σ → Regex σ
  | 0, _ => .empty
  | n + 1, r => optional (.seq r (upTo n r))

/-- `r{n,m}` -/
def between (n m : Nat) (r : Regex σ) : Regex σ := .seq (times n r) (upTo (m - n) r)

/-- The positions at which a repetition may stop, the preferred one first. -/
def starEnds (body : Cursor σ → List (Cursor σ)) (greedy : Bool) :
    Nat → Cursor σ → List (Cursor σ)
  | 0, here => [here]
  | fuel + 1, here =>
    let further := (body here).filter fun next => next.rest.length < here.rest.length
    let more := further.flatMap (starEnds body greedy fuel)
    if greedy then more ++ [here] else here :: more

/-- The positions at which a match that begins here may stop, the preferred one first. -/
def ends : Regex σ → Cursor σ → List (Cursor σ)
  | .empty, here => [here]
  | .one accepts, here =>
    match here.rest with
    | [] => []
    | a :: rest => if accepts a then [⟨a :: here.before, rest⟩] else []
  | .seq first second, here => (ends first here).flatMap (ends second)
  | .alt first second, here => ends first here ++ ends second here
  | .star greedy body, here => starEnds (ends body) greedy here.rest.length here
  | .look ahead, here => if (ends ahead here).isEmpty then [] else [here]
  | .edge word, here =>
    if here.before.head?.any word = here.rest.head?.any word then [] else [here]
  | .atEnd, here => if here.rest.isEmpty then [here] else []

def Within (p : σ → Prop) : Regex σ → Prop
  | .one accepts => ∀ a, accepts a = true → p a
  | .seq first second => first.Within p ∧ second.Within p
  | .alt first second => first.Within p ∧ second.Within p
  | .star _ body => body.Within p
  | _ => True

theorem within_true (r : Regex σ) : r.Within fun _ => True := by
  induction r with
  | one => exact fun _ _ => trivial
  | seq first second ihf ihs | alt first second ihf ihs => exact ⟨ihf, ihs⟩
  | star greedy body ih => exact ih
  | _ => trivial

theorem starEnds_within {p : σ → Prop} {body : Cursor σ → List (Cursor σ)}
    (eats : ∀ here, ∀ there ∈ body here, ∃ eaten, here.Eats there eaten ∧ ∀ a ∈ eaten, p a)
    (greedy : Bool) (fuel : Nat) (here : Cursor σ) :
    ∀ there ∈ starEnds body greedy fuel here, ∃ eaten, here.Eats there eaten ∧ ∀ a ∈ eaten, p a := by
  have nothing : ∀ a ∈ ([] : List σ), p a := fun _ member => absurd member List.not_mem_nil
  induction fuel generalizing here with
  | zero =>
    intro there member
    rw [starEnds, List.mem_singleton] at member
    exact ⟨[], member ▸ here.eats_nil, nothing⟩
  | succ fuel ih =>
    intro there member
    have reached : there ∈ ((body here).filter fun next =>
        next.rest.length < here.rest.length).flatMap (starEnds body greedy fuel) ∨ there = here := by
      rw [starEnds] at member
      cases greedy with
      | true => simpa using member
      | false => simpa [or_comm] using member
    rcases reached with further | rfl
    · obtain ⟨next, kept, later⟩ := List.mem_flatMap.mp further
      obtain ⟨eaten, first, head⟩ := eats here next (List.mem_of_mem_filter kept)
      obtain ⟨more, second, tail⟩ := ih next there later
      exact ⟨eaten ++ more, first.trans second, List.forall_mem_append.mpr ⟨head, tail⟩⟩
    · exact ⟨[], there.eats_nil, nothing⟩

theorem ends_within {p : σ → Prop} {r : Regex σ} (within : r.Within p) (here : Cursor σ) :
    ∀ there ∈ ends r here, ∃ eaten, here.Eats there eaten ∧ ∀ a ∈ eaten, p a := by
  have nothing : ∀ a ∈ ([] : List σ), p a := fun _ member => absurd member List.not_mem_nil
  induction r generalizing here with
  | empty =>
    intro there member
    rw [ends, List.mem_singleton] at member
    exact ⟨[], member ▸ here.eats_nil, nothing⟩
  | one accepts =>
    intro there member
    obtain ⟨before, rest⟩ := here
    cases rest with
    | nil => cases member
    | cons a rest =>
      simp only [ends] at member
      split at member
      · rename_i accepted
        rw [List.mem_singleton] at member
        exact ⟨[a], member ▸ ⟨rfl, rfl⟩, List.forall_mem_singleton.mpr (within a accepted)⟩
      · cases member
  | seq first second ihf ihs =>
    intro there member
    obtain ⟨middle, reached, later⟩ := List.mem_flatMap.mp member
    obtain ⟨eaten, head, one⟩ := ihf within.1 here middle reached
    obtain ⟨more, tail, other⟩ := ihs within.2 middle there later
    exact ⟨eaten ++ more, head.trans tail, List.forall_mem_append.mpr ⟨one, other⟩⟩
  | alt first second ihf ihs =>
    intro there member
    rcases List.mem_append.mp member with left | right
    · exact ihf within.1 here there left
    · exact ihs within.2 here there right
  | star greedy body ih => exact starEnds_within (ih within) greedy _ here
  | look | edge =>
    intro there member
    rw [ends] at member
    split at member
    · cases member
    · rw [List.mem_singleton] at member
      exact ⟨[], member ▸ here.eats_nil, nothing⟩
  | atEnd =>
    intro there member
    rw [ends] at member
    split at member
    · rw [List.mem_singleton] at member
      exact ⟨[], member ▸ here.eats_nil, nothing⟩
    · cases member

theorem ends_eats (r : Regex σ) (here : Cursor σ) :
    ∀ there ∈ ends r here, ∃ eaten, here.Eats there eaten := by
  intro there member
  obtain ⟨eaten, eats, _⟩ := ends_within r.within_true here there member
  exact ⟨eaten, eats⟩

end Regex

structure Pattern (σ : Type u) where
  captured : Regex σ
  tail : Regex σ
  replacement : List σ → List σ

structure Match (σ : Type u) where
  (start stop : Nat)
  group : List σ
  deriving DecidableEq

def Match.moved {σ : Type u} (offset : Nat) (found : Match σ) : Match σ :=
  { found with start := offset + found.start, stop := offset + found.stop }

namespace Pattern

variable {σ : Type u} (pattern : Pattern σ)

def candidates (here : Cursor σ) : List (Match σ × Cursor σ) :=
  (pattern.captured.ends here).flatMap fun middle =>
    (pattern.tail.ends middle).map fun there =>
      (⟨here.before.length, there.before.length,
        here.rest.take (here.rest.length - middle.rest.length)⟩, there)

def matchAt (here : Cursor σ) : Option (Match σ × Cursor σ) :=
  (pattern.candidates here).head?.filter fun result => result.2.rest.length < here.rest.length

/-- The matches from left to right; the next one begins where the last one stopped. -/
def matchesFrom : Nat → Cursor σ → List (Match σ)
  | 0, _ => []
  | fuel + 1, here =>
    match pattern.matchAt here with
    | some (found, there) => found :: matchesFrom fuel there
    | none =>
      match here.rest with
      | [] => []
      | a :: rest => matchesFrom fuel ⟨a :: here.before, rest⟩

def finditer (text : List σ) : List (Match σ) := pattern.matchesFrom text.length ⟨[], text⟩

def rebuild : Nat → List σ → List (Match σ) → List σ
  | _, rest, [] => rest
  | position, rest, found :: more =>
    rest.take (found.start - position) ++ pattern.replacement found.group ++
      rebuild found.stop (rest.drop (found.stop - position)) more

def sub (text : List σ) : List σ := pattern.rebuild 0 text (pattern.finditer text)

def Fits : Nat → Nat → List (Match σ) → Prop
  | _, _, [] => True
  | position, limit, found :: more => position ≤ found.start ∧ found.start ≤ found.stop ∧
      found.stop ≤ limit ∧ Fits found.stop limit more

theorem Fits.of_le {position limit : Nat} {found : List (Match σ)} (fits : Fits position limit found)
    {earlier : Nat} (bound : earlier ≤ position) : Fits earlier limit found := by
  cases found with
  | nil => trivial
  | cons =>
    obtain ⟨start, rest⟩ := fits
    exact ⟨by omega, rest⟩

theorem Fits.moved (offset : Nat) {position limit : Nat} {found : List (Match σ)}
    (fits : Fits position limit found) :
    Fits (offset + position) (offset + limit) (found.map (Match.moved offset)) := by
  induction found generalizing position with
  | nil => trivial
  | cons first more ih =>
    obtain ⟨start, stop, bound, rest⟩ := fits
    refine ⟨?_, ?_, ?_, ih rest⟩
    · simp only [Match.moved]
      omega
    · simp only [Match.moved]
      omega
    · simp only [Match.moved]
      omega

theorem Fits.append {position middle limit : Nat} {found more : List (Match σ)}
    (left : Fits position middle found) (right : Fits middle limit more)
    (first : position ≤ middle) (second : middle ≤ limit) : Fits position limit (found ++ more) := by
  induction found generalizing position with
  | nil => exact right.of_le first
  | cons head tail ih =>
    obtain ⟨start, stop, bound, rest⟩ := left
    exact ⟨start, stop, by omega, ih rest bound⟩

theorem stop_of_matchAt {here there : Cursor σ} {found : Match σ}
    (matched : pattern.matchAt here = some (found, there)) :
    found.start = here.before.length ∧ found.stop = there.before.length ∧
      ∃ eaten, here.Eats there eaten := by
  obtain ⟨head, _⟩ := Option.filter_eq_some_iff.mp matched
  obtain ⟨middle, captured, member⟩ := List.mem_flatMap.mp (List.mem_of_head? head)
  obtain ⟨there', later, same⟩ := List.mem_map.mp member
  cases same
  obtain ⟨eaten, first⟩ := Regex.ends_eats _ here middle captured
  obtain ⟨more, second⟩ := Regex.ends_eats _ middle there later
  exact ⟨rfl, rfl, eaten ++ more, first.trans second⟩

theorem eaten_of_matchAt {p : σ → Prop} (captured : pattern.captured.Within p)
    (tail : pattern.tail.Within p) {here there : Cursor σ} {found : Match σ}
    (matched : pattern.matchAt here = some (found, there)) :
    ∃ eaten, here.Eats there eaten ∧ ∀ a ∈ eaten, p a := by
  obtain ⟨head, _⟩ := Option.filter_eq_some_iff.mp matched
  obtain ⟨middle, first, member⟩ := List.mem_flatMap.mp (List.mem_of_head? head)
  obtain ⟨there', later, same⟩ := List.mem_map.mp member
  cases same
  obtain ⟨eaten, reached, one⟩ := Regex.ends_within captured here middle first
  obtain ⟨more, ended, other⟩ := Regex.ends_within tail middle there later
  exact ⟨eaten ++ more, reached.trans ended, List.forall_mem_append.mpr ⟨one, other⟩⟩

theorem matchAt_of_mem_matchesFrom {fuel : Nat} {start : Cursor σ} {found : Match σ}
    (member : found ∈ pattern.matchesFrom fuel start) : ∃ here there eaten,
      start.Eats here eaten ∧ pattern.matchAt here = some (found, there) := by
  induction fuel generalizing start with
  | zero => cases member
  | succ fuel ih =>
    rw [matchesFrom] at member
    cases matched : pattern.matchAt start with
    | some result =>
      obtain ⟨first, there⟩ := result
      simp only [matched] at member
      rcases List.mem_cons.mp member with rfl | later
      · exact ⟨start, there, [], start.eats_nil, matched⟩
      · obtain ⟨_, _, eaten, moved⟩ := pattern.stop_of_matchAt matched
        obtain ⟨here, last, more, reached, again⟩ := ih later
        exact ⟨here, last, eaten ++ more, moved.trans reached, again⟩
    | none =>
      obtain ⟨before, rest⟩ := start
      simp only [matched] at member
      cases rest with
      | nil => cases member
      | cons a rest =>
        obtain ⟨here, last, more, reached, again⟩ := ih member
        have moved : Cursor.Eats ⟨before, a :: rest⟩ ⟨a :: before, rest⟩ [a] := ⟨rfl, rfl⟩
        exact ⟨here, last, a :: more, moved.trans reached, again⟩

theorem mem_slice_of_mem_finditer {p : σ → Prop} (captured : pattern.captured.Within p)
    (tail : pattern.tail.Within p) {text : List σ} {found : Match σ}
    (member : found ∈ pattern.finditer text) :
    ∀ a ∈ (text.take found.stop).drop found.start, p a := by
  obtain ⟨here, there, before, reached, matched⟩ := pattern.matchAt_of_mem_matchesFrom member
  obtain ⟨start, stop, _⟩ := pattern.stop_of_matchAt matched
  obtain ⟨eaten, moved, kind⟩ := pattern.eaten_of_matchAt captured tail matched
  have whole := (reached.trans moved).2
  have length : (before ++ eaten).length = found.stop := by
    rw [stop, (reached.trans moved).1, List.append_nil, List.length_reverse]
  have first : before.length = found.start := by
    rw [start, reached.1, List.append_nil, List.length_reverse]
  have slice : (text.take found.stop).drop found.start = eaten := by
    rw [show text = (before ++ eaten) ++ there.rest from whole, ← length, List.take_left, ← first,
      List.drop_left]
  rw [slice]
  exact kind

theorem take_stop_of_mem_finditer {accepts : σ → Bool} (tail : pattern.tail = .one accepts)
    {text : List σ} {found : Match σ} (member : found ∈ pattern.finditer text) :
    ∃ head a, text.take found.stop = head ++ [a] ∧ accepts a = true ∧
      found.stop = head.length + 1 := by
  obtain ⟨here, there, before, reached, matched⟩ := pattern.matchAt_of_mem_matchesFrom member
  obtain ⟨head, _⟩ := Option.filter_eq_some_iff.mp matched
  obtain ⟨middle, captured, member⟩ := List.mem_flatMap.mp (List.mem_of_head? head)
  obtain ⟨there', later, same⟩ := List.mem_map.mp member
  cases same
  obtain ⟨eaten, moved⟩ := Regex.ends_eats _ here middle captured
  obtain ⟨front, rest⟩ := middle
  rw [tail] at later
  cases rest with
  | nil => cases later
  | cons a rest =>
    simp only [Regex.ends] at later
    split at later
    · rename_i accepted
      rw [List.mem_singleton.mp later]
      have whole : text = (before ++ eaten) ++ a :: rest := (reached.trans moved).2
      have length : front.length = (before ++ eaten).length := by
        have position := congrArg List.length (reached.trans moved).1
        rwa [List.append_nil, List.length_reverse] at position
      refine ⟨before ++ eaten, a, ?_, accepted, ?_⟩
      · show text.take (front.length + 1) = _
        rw [whole, length, List.take_append, List.take_of_length_le (Nat.le_succ _),
          Nat.add_sub_cancel_left, List.take_succ_cons, List.take_zero]
      · show front.length + 1 = _
        rw [length]
    · cases later

theorem fits_matchesFrom (fuel : Nat) (here : Cursor σ) :
    Fits here.before.length (here.before.length + here.rest.length)
      (pattern.matchesFrom fuel here) := by
  induction fuel generalizing here with
  | zero => trivial
  | succ fuel ih =>
    rw [matchesFrom]
    cases matched : pattern.matchAt here with
    | some result =>
      obtain ⟨found, there⟩ := result
      obtain ⟨start, stop, eaten, before, rest⟩ := pattern.stop_of_matchAt matched
      have position := congrArg List.length before
      have left := congrArg List.length rest
      rw [List.length_append, List.length_reverse] at position
      rw [List.length_append] at left
      have later := ih there
      have limit : there.before.length + there.rest.length =
          here.before.length + here.rest.length := by
        omega
      rw [limit, ← stop] at later
      exact ⟨by omega, by omega, by omega, later⟩
    | none =>
      obtain ⟨before, rest⟩ := here
      cases rest with
      | nil => trivial
      | cons a rest =>
        have later := ih ⟨a :: before, rest⟩
        have limit : before.length + (rest.length + 1) = before.length + 1 + rest.length := by
          omega
        rw [List.length_cons] at later
        rw [List.length_cons, limit]
        exact later.of_le (Nat.le_succ _)

theorem fits_finditer (text : List σ) : Fits 0 text.length (pattern.finditer text) := by
  have fits := pattern.fits_matchesFrom text.length ⟨[], text⟩
  rwa [List.length_nil, Nat.zero_add] at fits

theorem rebuild_moved (offset position : Nat) (rest : List σ) (found : List (Match σ)) :
    pattern.rebuild (offset + position) rest (found.map (Match.moved offset)) =
      pattern.rebuild position rest found := by
  induction found generalizing position rest with
  | nil => rfl
  | cons first more ih =>
    have start : offset + first.start - (offset + position) = first.start - position := by omega
    have stop : offset + first.stop - (offset + position) = first.stop - position := by omega
    simp only [List.map_cons, rebuild, Match.moved, start, stop]
    exact congrArg _ (ih first.stop _)

theorem rebuild_append {position limit : Nat} {left right : List σ} {found more : List (Match σ)}
    (first : Fits position (position + left.length) found)
    (second : Fits (position + left.length) limit more) :
    pattern.rebuild position (left ++ right) (found ++ more) =
      pattern.rebuild position left found ++
        pattern.rebuild (position + left.length) right more := by
  induction found generalizing position left with
  | nil =>
    cases more with
    | nil => rfl
    | cons next =>
      obtain ⟨start, stop, _⟩ := second
      have past : next.start - position = left.length + (next.start - (position + left.length)) := by
        omega
      have over_ : next.stop - position = left.length + (next.stop - (position + left.length)) := by
        omega
      simp only [List.nil_append, rebuild, past, over_, List.take_length_add_append,
        List.drop_length_add_append, List.append_assoc]
  | cons next found ih =>
    obtain ⟨start, stop, bound, rest⟩ := first
    have inside : next.stop - position ≤ left.length := by omega
    have early : next.start - position ≤ left.length := by omega
    have size : next.stop + (left.drop (next.stop - position)).length = position + left.length := by
      rw [List.length_drop]
      omega
    have here : Fits next.stop (next.stop + (left.drop (next.stop - position)).length) found := by
      rwa [size]
    have there : Fits (next.stop + (left.drop (next.stop - position)).length) limit more := by
      rwa [size]
    have later := ih here there
    simp only [List.cons_append, rebuild, List.take_append_of_le_length early,
      List.drop_append_of_le_length inside, later, size, List.append_assoc]

def matchesInPieces : Nat → List (List σ) → List (Match σ)
  | _, [] => []
  | offset, piece :: pieces =>
    (pattern.finditer piece).map (Match.moved offset) ++
      matchesInPieces (offset + piece.length) pieces

def MatchesApart (pieces : List (List σ)) : Prop :=
  pattern.finditer pieces.flatten = pattern.matchesInPieces 0 pieces

instance [DecidableEq σ] (pieces : List (List σ)) : Decidable (pattern.MatchesApart pieces) :=
  inferInstanceAs (Decidable (_ = _))

theorem fits_matchesInPieces (offset : Nat) (pieces : List (List σ)) :
    Fits offset (offset + pieces.flatten.length) (pattern.matchesInPieces offset pieces) := by
  induction pieces generalizing offset with
  | nil => trivial
  | cons piece pieces ih =>
    have head := (pattern.fits_finditer piece).moved offset
    have tail := ih (offset + piece.length)
    rw [List.flatten_cons, List.length_append, ← Nat.add_assoc]
    exact head.append tail (by omega) (by omega)

theorem rebuild_matchesInPieces (offset : Nat) (pieces : List (List σ)) :
    pattern.rebuild offset pieces.flatten (pattern.matchesInPieces offset pieces) =
      (pieces.map pattern.sub).flatten := by
  induction pieces generalizing offset with
  | nil => rfl
  | cons piece pieces ih =>
    have head : Fits offset (offset + piece.length) _ := (pattern.fits_finditer piece).moved offset
    rw [List.flatten_cons, matchesInPieces, pattern.rebuild_append head
      (pattern.fits_matchesInPieces _ pieces), ih, List.map_cons, List.flatten_cons]
    exact congrArg (· ++ _) (pattern.rebuild_moved offset 0 piece _)

theorem sub_flatten {pieces : List (List σ)} (apart : pattern.MatchesApart pieces) :
    pattern.sub pieces.flatten = (pieces.map pattern.sub).flatten := by
  rw [sub, apart]
  exact pattern.rebuild_matchesInPieces 0 pieces

end Pattern

variable {σ : Type u}

def subAll (patterns : List (Pattern σ)) (text : List σ) : List σ :=
  patterns.foldl (fun rest pattern => pattern.sub rest) text

def ApartInTurn : List (Pattern σ) → List (List σ) → Prop
  | [], _ => True
  | pattern :: later, pieces =>
    pattern.MatchesApart pieces ∧ ApartInTurn later (pieces.map pattern.sub)

instance decidableApartInTurn [DecidableEq σ] :
    (patterns : List (Pattern σ)) → (pieces : List (List σ)) → Decidable (ApartInTurn patterns pieces)
  | [], _ => .isTrue trivial
  | pattern :: later, pieces =>
    have := decidableApartInTurn later (pieces.map pattern.sub)
    inferInstanceAs (Decidable (_ ∧ _))

theorem subAll_flatten {patterns : List (Pattern σ)} {pieces : List (List σ)}
    (apart : ApartInTurn patterns pieces) :
    subAll patterns pieces.flatten = (pieces.map (subAll patterns)).flatten := by
  induction patterns generalizing pieces with
  | nil =>
    have same : subAll ([] : List (Pattern σ)) = id := rfl
    rw [same, List.map_id]
    rfl
  | cons pattern later ih =>
    obtain ⟨first, rest⟩ := apart
    have step := ih rest
    rw [← pattern.sub_flatten first, List.map_map] at step
    exact step

theorem subAll_nil (patterns : List (Pattern σ)) : subAll patterns [] = [] := by
  induction patterns with
  | nil => rfl
  | cons pattern later ih => exact ih

end AverQel.Foundation
