/- digest: The numbered names that are tried for a name in use, and when they fit. -/
import Mathlib.Data.List.TakeWhile
import AverQel.Foundation.Loops

namespace AverQel.Library

open Foundation.Loops

/-- `str.rpartition`: what stands before and behind the last separator, if there is one. -/
def rpartition (separator : Char) (text : List Char) : Option (List Char × List Char) :=
  if separator ∈ text then
    some ((text.reverse.dropWhile fun c => c ≠ separator).tail.reverse,
      (text.reverse.takeWhile fun c => c ≠ separator).reverse)
  else none

theorem of_rpartition {separator : Char} {text before after : List Char}
    (parts : rpartition separator text = some (before, after)) :
    text = before ++ separator :: after := by
  unfold rpartition at parts
  split at parts
  · rename_i member
    obtain ⟨rfl, rfl⟩ := Prod.mk.inj (Option.some.inj parts)
    have whole := List.takeWhile_append_dropWhile (p := fun c => decide (c ≠ separator))
      (l := text.reverse)
    cases rest : text.reverse.dropWhile fun c => decide (c ≠ separator) with
    | nil =>
      have none_ := List.dropWhile_eq_nil_iff.mp rest separator (List.mem_reverse.mpr member)
      exact absurd rfl (of_decide_eq_true none_)
    | cons c =>
      have first := List.head?_dropWhile_not (fun c => decide (c ≠ separator)) text.reverse
      rw [rest] at first whole
      have here : c = separator := by simpa using first
      have back := congrArg List.reverse whole
      rw [List.reverse_reverse, List.reverse_append, List.reverse_cons, List.append_assoc] at back
      exact here ▸ back.symm
  · cases parts

def suffixOf (number : Nat) : List Char := ' ' :: '(' :: (Nat.toDigits 10 number ++ [')'])

variable (filename : String) (reserved : List String)

def stemAndExtension : List Char × List Char :=
  match rpartition '.' filename.toList with
  | none => (filename.toList, [])
  | some (stem, extension) => if stem = [] then (filename.toList, []) else (stem, '.' :: extension)

def boundedExtension (suffixNumber : Nat) : List Char :=
  (stemAndExtension filename).2.take (255 - (suffixOf suffixNumber).length - 1)

def availableStemLength (suffixNumber : Nat) : Nat :=
  max 1 (255 - (suffixOf suffixNumber).length - (boundedExtension filename suffixNumber).length)

def candidate (suffixNumber : Nat) : String :=
  String.ofList ((stemAndExtension filename).1.take (availableStemLength filename suffixNumber) ++
    (suffixOf suffixNumber ++ boundedExtension filename suffixNumber))

/-- `unique_library_filename` with so many turns of its loop. -/
def uniqueLibraryFilename (fuel : Nat) : String :=
  if filename ∉ reserved then filename
  else candidate filename
    (loop (fun suffixNumber => decide (candidate filename suffixNumber ∈ reserved)) Nat.succ fuel 2)

theorem digits_injective {m n : Nat} (same : Nat.toDigits 10 m = Nat.toDigits 10 n) : m = n := by
  have values := congrArg (fun digits => Nat.ofDigitChars 10 digits 0) same
  simpa only [Nat.ofDigitChars_ten_toDigits] using values

theorem not_space_of_mem_toDigits {n : Nat} {c : Char} (member : c ∈ Nat.toDigits 10 n) :
    c ≠ ' ' ∧ c ≠ ')' := by
  have digit := Nat.isDigit_of_mem_toDigits (by decide) (by decide) member
  constructor <;> (rintro rfl; exact absurd digit (by decide))

theorem suffixOf_injective {m n : Nat} {rest rest' : List Char}
    (same : suffixOf m ++ rest = suffixOf n ++ rest') : m = n := by
  have digits (n : Nat) (rest : List Char) :
      ((suffixOf n ++ rest).drop 2).takeWhile (fun c => c ≠ ')') = Nat.toDigits 10 n := by
    have shape : (suffixOf n ++ rest).drop 2 = Nat.toDigits 10 n ++ ')' :: rest := by
      simp [suffixOf]
    rw [shape, List.takeWhile_append_of_pos]
    · simp
    · exact fun c member => decide_eq_true (not_space_of_mem_toDigits member).2
  have texts := congrArg (fun text => (text.drop 2).takeWhile fun c => c ≠ ')') same
  rw [digits, digits] at texts
  exact digits_injective texts

theorem availableStemLength_le (filename : String) {m n : Nat}
    (longer : (suffixOf n).length ≤ (suffixOf m).length) :
    availableStemLength filename m ≤ availableStemLength filename n ∧
      availableStemLength filename n ≤
        availableStemLength filename m + ((suffixOf m).length - (suffixOf n).length) := by
  simp only [availableStemLength, boundedExtension, List.length_take]
  omega

theorem eq_of_candidate {filename : String} {m n : Nat}
    (longer : (suffixOf n).length ≤ (suffixOf m).length)
    (same : candidate filename n = candidate filename m) : n = m := by
  obtain ⟨fewer, close⟩ := availableStemLength_le filename longer
  obtain ⟨cut, stems⟩ : (stemAndExtension filename).1.take (availableStemLength filename m) <+:
      (stemAndExtension filename).1.take (availableStemLength filename n) :=
    List.take_prefix_take_left fewer
  have size := congrArg List.length stems
  rw [List.length_append, List.length_take, List.length_take] at size
  rw [candidate, candidate, String.ofList_inj, ← stems, List.append_assoc,
    List.append_cancel_left_eq] at same
  cases cut with
  | nil => exact suffixOf_injective same
  | cons c cut =>
    -- the space of the shorter number stands inside the longer one
    have inside : cut.length + 1 < (suffixOf m).length := by
      have positive : 0 < (suffixOf n).length := Nat.succ_pos _
      rw [List.length_cons] at size
      omega
    have letters := congrArg (fun text : List Char => text[cut.length + 1]?) same
    have space : ((c :: cut) ++ (suffixOf n ++ boundedExtension filename n))[cut.length + 1]? =
        some ' ' := by
      simp [suffixOf]
    have other : (suffixOf m ++ boundedExtension filename m)[cut.length + 1]? =
        ('(' :: (Nat.toDigits 10 m ++ [')']))[cut.length]? := by
      rw [List.getElem?_append_left inside]
      rfl
    have found := List.mem_of_getElem? (other.symm.trans (letters.symm.trans space))
    rcases List.mem_cons.mp found with paren | found
    · exact absurd paren (by decide)
    · rcases List.mem_append.mp found with digit | paren
      · exact absurd rfl (not_space_of_mem_toDigits digit).1
      · exact absurd (List.mem_singleton.mp paren) (by decide)

theorem candidate_injective (filename : String) : Function.Injective (candidate filename) := by
  intro m n same
  rcases Nat.le_total (suffixOf m).length (suffixOf n).length with shorter | longer
  · exact eq_of_candidate shorter same
  · exact (eq_of_candidate longer same.symm).symm

variable {filename : String} {suffixNumber : Nat}

theorem length_suffixOf_le (few : suffixNumber < 10 ^ 251) : (suffixOf suffixNumber).length ≤ 254 := by
  have digits : (Nat.toDigits 10 suffixNumber).length ≤ 251 :=
    (Nat.length_toDigits_le_iff (by decide) (by decide)).mpr few
  simp only [suffixOf, List.length_cons, List.length_append, List.length_nil]
  omega

theorem length_candidate_le (few : suffixNumber < 10 ^ 251) :
    (candidate filename suffixNumber).length ≤ 255 := by
  have suffix := length_suffixOf_le few
  simp only [candidate, String.length_ofList, availableStemLength, boundedExtension,
    List.length_append, List.length_take]
  omega

theorem lt_length_candidate (named : filename ≠ "") (many : 10 ^ 251 ≤ suffixNumber) :
    255 < (candidate filename suffixNumber).length := by
  have digits : ¬(Nat.toDigits 10 suffixNumber).length ≤ 251 := fun short =>
    absurd ((Nat.length_toDigits_le_iff (by decide) (by decide)).mp short) (Nat.not_lt.mpr many)
  have stem : 1 ≤ (stemAndExtension filename).1.length := by
    refine List.length_pos_iff.mpr ?_
    unfold stemAndExtension
    have filled : filename.toList ≠ [] := fun empty => named (String.toList_eq_nil_iff.mp empty)
    split
    · exact filled
    · split
      · exact filled
      · assumption
  simp only [candidate, String.length_ofList, availableStemLength, suffixOf, List.length_append,
    List.length_take, List.length_cons, List.length_nil]
  omega

theorem exists_candidate {filename : String} {reserved : List String}
    (taken : filename ∈ reserved) :
    ∃ n ≤ reserved.length, candidate filename (2 + n) ∉ reserved ∧ ∀ fuel,
      reserved.length ≤ fuel →
        uniqueLibraryFilename filename reserved fuel = candidate filename (2 + n) := by
  obtain ⟨n, few, ends⟩ := exists_endsAfter_of_injective (candidate_injective filename)
    (fun i (asked : decide (candidate filename i ∈ reserved) = true) => of_decide_eq_true asked) 2
  have last := ends.1
  rw [Nat.succ_iterate] at last
  refine ⟨n, few, of_decide_eq_false last, fun fuel enough => ?_⟩
  rw [uniqueLibraryFilename, if_neg (not_not_intro taken),
    loop_of_endsAfter ends (Nat.le_trans few enough), Nat.succ_iterate]

/-- What is returned: a free name, short enough while fewer names are reserved than there are
numbers of 251 digits, and with the extension when that fits beside the number. -/
structure Deduplicates (filename : String) (reserved : List String) (name : String) : Prop where
  free : name ∉ reserved
  unchanged : filename ∉ reserved → name = filename
  bounded : filename.length ≤ 255 → reserved.length < 10 ^ 251 - 2 → name.length ≤ 255
  extension : filename ∈ reserved → ∃ suffixNumber, 2 ≤ suffixNumber ∧
    name = candidate filename suffixNumber ∧
      (1 + (suffixOf suffixNumber).length + (stemAndExtension filename).2.length ≤ 255 →
        ∃ k, 1 ≤ k ∧ name = String.ofList ((stemAndExtension filename).1.take k ++
          (suffixOf suffixNumber ++ (stemAndExtension filename).2)))

/-- The loop ends and finds a free name. -/
theorem uniqueLibraryFilename_deduplicates (filename : String) (reserved : List String) :
    ∃ name, (∀ fuel, reserved.length ≤ fuel →
        uniqueLibraryFilename filename reserved fuel = name) ∧
      Deduplicates filename reserved name := by
  by_cases taken : filename ∈ reserved
  · obtain ⟨n, few, free, returns⟩ := exists_candidate taken
    refine ⟨_, returns, free, fun free => absurd taken free, ?_, ?_⟩
    · intro _ small
      refine length_candidate_le (Nat.lt_of_le_of_lt (Nat.add_le_add_left few 2) ?_)
      omega
    · intro _
      refine ⟨2 + n, Nat.le_add_right 2 n, rfl, fun fits => ?_⟩
      have whole : boundedExtension filename (2 + n) = (stemAndExtension filename).2 :=
        List.take_of_length_le (by omega)
      exact ⟨availableStemLength filename (2 + n), Nat.le_max_left 1 _, by rw [candidate, whole]⟩
  · refine ⟨filename, fun fuel _ => if_pos taken, taken, fun _ => rfl, fun short _ => short, ?_⟩
    exact fun inside => absurd inside taken

def allNumbered : List String := "a" :: (List.range (10 ^ 251)).map (candidate "a")

/-- No short name is left for "a". -/
theorem not_bounded_allNumbered :
    "a".length ≤ 255 ∧ ∃ name, (∀ fuel, allNumbered.length ≤ fuel →
      uniqueLibraryFilename "a" allNumbered fuel = name) ∧ ¬name.length ≤ 255 := by
  refine ⟨by decide, ?_⟩
  obtain ⟨n, _, free, returns⟩ := exists_candidate (List.mem_cons_self : "a" ∈ allNumbered)
  refine ⟨_, returns, Nat.not_le.mpr (lt_length_candidate (by decide) (Nat.not_lt.mp fun few => ?_))⟩
  exact free (List.mem_cons_of_mem "a" (List.mem_map_of_mem (List.mem_range.mpr few)))

end AverQel.Library
