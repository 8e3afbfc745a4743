/- digest: Blank characters, stripping, cutting and defaulting of text. -/
import Mathlib.Data.List.DropRight

namespace AverQel.Foundation.Text

def isSpace (c : Char) : Bool :=
  let n := c.toNat
  (9 ≤ n && n ≤ 13) || (28 ≤ n && n ≤ 32) || n == 133 || n == 160 || n == 5760 ||
    (8192 ≤ n && n ≤ 8202) || n == 8232 || n == 8233 || n == 8239 || n == 8287 || n == 12288

def stripChars (cs : List Char) : List Char :=
  (cs.dropWhile isSpace).rdropWhile isSpace

def strip (s : String) : String := String.ofList (stripChars s.toList)

theorem stripChars_stripChars (cs : List Char) : stripChars (stripChars cs) = stripChars cs := by
  have started : ((cs.dropWhile isSpace).rdropWhile isSpace).dropWhile isSpace =
      (cs.dropWhile isSpace).rdropWhile isSpace := by
    cases form : (cs.dropWhile isSpace).rdropWhile isSpace with
    | nil => rfl
    | cons c rest =>
      obtain ⟨more, whole⟩ : c :: rest <+: cs.dropWhile isSpace :=
        form ▸ List.rdropWhile_prefix isSpace _
      have first := List.head?_dropWhile_not isSpace cs
      rw [← whole] at first
      have filled : ¬isSpace c = true := by
        rw [Bool.not_eq_true]
        exact first
      exact List.dropWhile_cons_of_neg filled
  rw [stripChars, stripChars, started, List.rdropWhile_idempotent]

@[simp] theorem strip_strip (s : String) : strip (strip s) = strip s := by
  rw [strip, strip, String.toList_ofList, stripChars_stripChars]

/-- The words between the blanks. -/
def splitWords : List Char → List (List Char)
  | [] => []
  | c :: rest =>
    if isSpace c then splitWords rest
    else if rest.head?.all isSpace then [c] :: splitWords rest
    else
      match splitWords rest with
      | [] => [[c]]
      | word :: more => (c :: word) :: more

def joinWords (s : String) : String :=
  " ".intercalate ((splitWords s.toList).map String.ofList)

/-- Keep the first `n` characters. -/
def truncate (n : Nat) (s : String) : String := String.ofList (s.toList.take n)

def orDefault (s : Option String) (default : String) : String :=
  match s with
  | none => default
  | some text => if text = "" then default else text

def nonempty (s : Option String) : Option String := s.filter (fun text => text ≠ "")

theorem nonempty_eq_some_iff {s : Option String} {text : String} :
    nonempty s = some text ↔ s = some text ∧ text ≠ "" := by
  simp [nonempty, Option.filter_eq_some_iff]

end AverQel.Foundation.Text
