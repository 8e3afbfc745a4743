/- digest: The JSON reader of the browser reads back what the server's encoder writes. -/
import AverQel.System.TextAdmission

namespace AverQel.Frontend

open Providers (Json Fields)
open AverQel.System (JsonFormat compactJson dumps dumpItems dumpFields quote escapeChar escapeUnit
  hexDigit setField)

def isJsonSpace (c : Char) : Bool := c = ' ' || c = '\t' || c = '\n' || c = '\r'

def skipSpace (text : List Char) : List Char := text.dropWhile isJsonSpace

def hexValue (c : Char) : Option Nat :=
  let n := c.toNat
  if 48 ≤ n ∧ n ≤ 57 then some (n - 48)
  else if 97 ≤ n ∧ n ≤ 102 then some (n - 87)
  else if 65 ≤ n ∧ n ≤ 70 then some (n - 55)
  else none

def hexUnit (a b c d : Char) : Option Nat := do
  some ((← hexValue a) * 4096 + (← hexValue b) * 256 + (← hexValue c) * 16 + (← hexValue d))

def units (c : Char) : List Nat :=
  let n := c.toNat
  if n < 65536 then [n] else [55296 + (n - 65536) / 1024, 56320 + (n - 65536) % 1024]

def isHighSurrogate (unit : Nat) : Bool := 55296 ≤ unit && unit < 56320

def isLowSurrogate (unit : Nat) : Bool := 56320 ≤ unit && unit < 57344

def unitChar (unit : Nat) : Char :=
  if isHighSurrogate unit || isLowSurrogate unit then Char.ofNat 65533 else Char.ofNat unit

def decodeUnits : List Nat → List Char
  | [] => []
  | [unit] => [unitChar unit]
  | high :: low :: rest =>
    if isHighSurrogate high && isLowSurrogate low then
      Char.ofNat (65536 + (high - 55296) * 1024 + (low - 56320)) :: decodeUnits rest
    else unitChar high :: decodeUnits (low :: rest)

/-- The unit of a short escape. -/
def shortEscape (c : Char) : Option Nat :=
  if c = '\x22' ∨ c = '\\' ∨ c = '/' then some c.toNat
  else if c = 'b' then some 8
  else if c = 'f' then some 12
  else if c = 'n' then some 10
  else if c = 'r' then some 13
  else if c = 't' then some 9
  else none

/-- The units of a string up to its closing quote, and the text after it. -/
def readUnits : List Char → Option (List Nat × List Char)
  | [] => none
  | '\\' :: 'u' :: a :: b :: c :: d :: rest =>
    (hexUnit a b c d).bind fun unit =>
      (readUnits rest).map fun result => (unit :: result.1, result.2)
  | '\\' :: c :: rest =>
    (shortEscape c).bind fun unit =>
      (readUnits rest).map fun result => (unit :: result.1, result.2)
  | c :: rest =>
    if c = '\x22' then some ([], rest)
    else if c.toNat < 32 ∨ c = '\\' then none
    else (readUnits rest).map fun result => (units c ++ result.1, result.2)

def readString (text : List Char) : Option (List Char × List Char) :=
  (readUnits text).map fun result => (decodeUnits result.1, result.2)

theorem hexValue_hexDigit : ∀ n < 16, hexValue (hexDigit n) = some n := by decide

theorem hexUnit_hexDigit {n : Nat} (bound : n < 65536) :
    hexUnit (hexDigit (n / 4096 % 16)) (hexDigit (n / 256 % 16)) (hexDigit (n / 16 % 16))
      (hexDigit (n % 16)) = some n := by
  have value : ∀ k, hexValue (hexDigit (k % 16)) = some (k % 16) := fun k =>
    hexValue_hexDigit (k % 16) (by omega)
  simp only [hexUnit, value, Option.bind_eq_bind, Option.bind_some, Option.some.injEq]
  omega

theorem readUnits_escapeUnit {n : Nat} (bound : n < 65536) (rest : List Char) :
    readUnits (escapeUnit n ++ rest) =
      (readUnits rest).map fun result => (n :: result.1, result.2) := by
  simp only [escapeUnit, List.cons_append, List.nil_append, readUnits, hexUnit_hexDigit bound,
    Option.bind_some]

theorem readUnits_short {c : Char} {n : Nat} (escape : shortEscape c = some n) (other : c ≠ 'u')
    (rest : List Char) : readUnits ('\\' :: c :: rest) =
      (readUnits rest).map fun result => (n :: result.1, result.2) := by
  rw [readUnits]
  · rw [escape, Option.bind_some]
  · intro _ _ _ _ _ same _
    exact other same

theorem toNat_lt (c : Char) : c.toNat < 55296 ∨ 57343 < c.toNat ∧ c.toNat < 1114112 := c.valid

theorem escapeChar_cases (format : JsonFormat) (c : Char) :
    (∃ short, escapeChar format c = ['\\', short] ∧ shortEscape short = some c.toNat ∧
        short ≠ 'u' ∧ short ≠ '\n' ∧ c.toNat < 65536) ∨
      (escapeChar format c = escapeUnit c.toNat ∧ c.toNat < 65536) ∨
      (escapeChar format c = escapeUnit (55296 + (c.toNat - 65536) / 1024) ++
        escapeUnit (56320 + (c.toNat - 65536) % 1024) ∧ ¬c.toNat < 65536) ∨
      (escapeChar format c = [c] ∧ c.toNat ≠ 34 ∧ c.toNat ≠ 92 ∧ ¬c.toNat < 32) := by
  have short : ∀ n s, c.toNat = n → escapeChar format c = ['\\', s] → shortEscape s = some n →
      s ≠ 'u' → s ≠ '\n' → n < 65536 → ∃ short, escapeChar format c = ['\\', short] ∧
        shortEscape short = some c.toNat ∧ short ≠ 'u' ∧ short ≠ '\n' ∧ c.toNat < 65536 := by
    rintro n s rfl written escape other line bound
    exact ⟨s, written, escape, other, line, bound⟩
  by_cases quote : c.toNat = 34
  · exact .inl (short 34 '\x22' quote (by simp only [escapeChar, quote, if_true]) (by decide)
      (by decide) (by decide) (by decide))
  by_cases backslash : c.toNat = 92
  · exact .inl (short 92 '\\' backslash (by simp [escapeChar, backslash]) (by decide)
      (by decide) (by decide) (by decide))
  by_cases newline : c.toNat = 10
  · exact .inl (short 10 'n' newline (by simp [escapeChar, newline]) (by decide) (by decide)
      (by decide) (by decide))
  by_cases return_ : c.toNat = 13
  · exact .inl (short 13 'r' return_ (by simp [escapeChar, return_]) (by decide) (by decide)
      (by decide) (by decide))
  by_cases tab : c.toNat = 9
  · exact .inl (short 9 't' tab (by simp [escapeChar, tab]) (by decide) (by decide) (by decide)
      (by decide))
  by_cases page : c.toNat = 12
  · exact .inl (short 12 'f' page (by simp [escapeChar, page]) (by decide) (by decide) (by decide)
      (by decide))
  by_cases back : c.toNat = 8
  · exact .inl (short 8 'b' back (by simp [escapeChar, back]) (by decide) (by decide) (by decide)
      (by decide))
  right
  simp only [escapeChar, quote, backslash, newline, return_, tab, page, back, if_false]
  by_cases control : c.toNat < 32
  · exact .inl ⟨if_pos control, by omega⟩
  rw [if_neg control]
  by_cases wide : format.ensureAscii = true ∧ 126 < c.toNat
  · rw [if_pos wide]
    by_cases narrow : c.toNat < 65536
    · exact .inl ⟨if_pos narrow, narrow⟩
    · exact .inr (.inl ⟨if_neg narrow, narrow⟩)
  · exact .inr (.inr ⟨if_neg wide, quote, backslash, control⟩)

theorem readUnits_escapeChar (format : JsonFormat) (c : Char) (rest : List Char) :
    readUnits (escapeChar format c ++ rest) =
      (readUnits rest).map fun result => (units c ++ result.1, result.2) := by
  have valid := toNat_lt c
  have one : c.toNat < 65536 → units c = [c.toNat] := fun small => if_pos small
  rcases escapeChar_cases format c with ⟨short, written, escape, other, _, small⟩ |
    ⟨written, small⟩ | ⟨written, wide⟩ | ⟨written, quote, backslash, control⟩
  · rw [written, one small]
    exact readUnits_short escape other rest
  · rw [written, one small]
    exact readUnits_escapeUnit small rest
  · have both : units c =
        [55296 + (c.toNat - 65536) / 1024, 56320 + (c.toNat - 65536) % 1024] := if_neg wide
    rw [written, both, List.append_assoc, readUnits_escapeUnit (by omega),
      readUnits_escapeUnit (by omega), Option.map_map]
    rfl
  · have plain : c ≠ '\x22' ∧ c ≠ '\\' := by
      refine ⟨?_, ?_⟩ <;> rintro rfl
      · exact quote rfl
      · exact backslash rfl
    rw [written, List.singleton_append, readUnits]
    · simp [plain.1, plain.2, control]
    · intro _ _ _ _ _ same _
      exact plain.2 same
    · intro _ _ same _
      exact plain.2 same

theorem decodeUnits_units (c : Char) (rest : List Nat) :
    decodeUnits (units c ++ rest) = c :: decodeUnits rest := by
  have valid := toNat_lt c
  by_cases small : c.toNat < 65536
  · have one : units c = [c.toNat] := by simp only [units, small, if_true]
    have high : isHighSurrogate c.toNat = false := by simp [isHighSurrogate]; omega
    have low : isLowSurrogate c.toNat = false := by simp [isLowSurrogate]; omega
    have shown : unitChar c.toNat = c := by simp [unitChar, high, low]
    rw [one, List.singleton_append]
    cases rest with
    | nil =>
      show [unitChar c.toNat] = [c]
      rw [shown]
    | cons =>
      rw [decodeUnits, high, Bool.false_and, if_neg Bool.false_ne_true, shown]
  · have both : units c =
        [55296 + (c.toNat - 65536) / 1024, 56320 + (c.toNat - 65536) % 1024] := by
      simp only [units, small, if_false]
    have high : isHighSurrogate (55296 + (c.toNat - 65536) / 1024) = true := by
      simp [isHighSurrogate]
      omega
    have low : isLowSurrogate (56320 + (c.toNat - 65536) % 1024) = true := by
      simp [isLowSurrogate]
      omega
    have whole : 65536 + (55296 + (c.toNat - 65536) / 1024 - 55296) * 1024 +
        (56320 + (c.toNat - 65536) % 1024 - 56320) = c.toNat := by omega
    rw [both, List.cons_append, List.singleton_append, decodeUnits, high, low, whole]
    simp

theorem readString_escaped (format : JsonFormat) (text rest : List Char) :
    readString (text.flatMap (escapeChar format) ++ '\x22' :: rest) = some (text, rest) := by
  have read : readUnits (text.flatMap (escapeChar format) ++ '\x22' :: rest) =
      some (text.flatMap units, rest) := by
    induction text with
    | nil => simp [readUnits]
    | cons c text ih =>
      rw [List.flatMap_cons, List.append_assoc, readUnits_escapeChar, ih]
      rfl
  have decoded : decodeUnits (text.flatMap units) = text := by
    clear read
    induction text with
    | nil => rfl
    | cons c text ih => rw [List.flatMap_cons, decodeUnits_units, ih]
  rw [readString, read, Option.map_some, decoded]

def readDigits (text : List Char) : List Char × List Char :=
  (text.takeWhile Char.isDigit, text.dropWhile Char.isDigit)

def readInteger : List Char → Option (List Char × List Char)
  | [] => none
  | c :: rest =>
    if c = '0' then some (['0'], rest)
    else if c.isDigit then some (c :: (readDigits rest).1, (readDigits rest).2)
    else none

def readFraction : List Char → Option (List Char × List Char)
  | '.' :: rest =>
    if (readDigits rest).1 = [] then none
    else some ('.' :: (readDigits rest).1, (readDigits rest).2)
  | text => some ([], text)

def readSign : List Char → List Char × List Char
  | '-' :: rest => (['-'], rest)
  | '+' :: rest => (['+'], rest)
  | text => ([], text)

def readExponent : List Char → Option (List Char × List Char)
  | [] => some ([], [])
  | c :: rest =>
    if c = 'e' ∨ c = 'E' then
      let sign := readSign rest
      let digits := readDigits sign.2
      if digits.1 = [] then none else some (c :: (sign.1 ++ digits.1), digits.2)
    else some ([], c :: rest)

def readUnsigned (text : List Char) : Option (List Char × List Char) := do
  let (whole, rest) ← readInteger text
  let (fraction, rest) ← readFraction rest
  let (exponent, rest) ← readExponent rest
  some (whole ++ fraction ++ exponent, rest)

def readNumber : List Char → Option (List Char × List Char)
  | '-' :: rest => (readUnsigned rest).map fun result => ('-' :: result.1, result.2)
  | text => readUnsigned text

def isNumberChar (c : Char) : Bool := c.isDigit || c ∈ ['-', '+', '.', 'e', 'E']

def StopsNumber (rest : List Char) : Prop := ∀ c ∈ rest.head?, isNumberChar c = false

def ReadsNumber (read : List Char → Option (List Char × List Char)) : Prop :=
  ∀ {text taken left : List Char}, read text = some (taken, left) →
    (∀ c ∈ taken, isNumberChar c = true) ∧
      ∀ {rest : List Char}, StopsNumber rest → read (text ++ rest) = some (taken, left ++ rest)

theorem stopsNumber_cons {c : Char} (other : isNumberChar c = false) (rest : List Char) :
    StopsNumber (c :: rest) := by
  intro d first
  rw [← Option.some.inj first]
  exact other

theorem isNumberChar_of_isDigit {c : Char} (digit : c.isDigit = true) : isNumberChar c = true := by
  simp [isNumberChar, digit]

theorem readDigits_taken (text : List Char) :
    ∀ c ∈ (readDigits text).1, isNumberChar c = true := fun _ member =>
  isNumberChar_of_isDigit (List.mem_takeWhile_imp member)

theorem readDigits_append {rest : List Char} (stops : StopsNumber rest) (text : List Char) :
    readDigits (text ++ rest) = ((readDigits text).1, (readDigits text).2 ++ rest) := by
  simp only [readDigits]
  induction text with
  | nil =>
    cases rest with
    | nil => rfl
    | cons c =>
      have other : c.isDigit = false := by
        have stop := stops c rfl
        simp only [isNumberChar, Bool.or_eq_false_iff] at stop
        exact stop.1
      simp [other]
  | cons c text ih =>
    cases digit : c.isDigit with
    | true =>
      simp only [List.cons_append, List.takeWhile_cons, List.dropWhile_cons, digit, if_true]
      exact Prod.ext (congrArg (c :: ·) (Prod.mk.inj ih).1) (Prod.mk.inj ih).2
    | false => simp [digit]

theorem readsNumber_readInteger : ReadsNumber readInteger := by
  intro text taken left read
  cases text with
  | nil => cases read
  | cons c text =>
    rw [readInteger] at read
    split_ifs at read with zero digit
    · obtain ⟨rfl, rfl⟩ := Prod.mk.inj (Option.some.inj read)
      refine ⟨by simp [isNumberChar], fun _ => ?_⟩
      rw [List.cons_append, readInteger, if_pos zero]
    · obtain ⟨rfl, rfl⟩ := Prod.mk.inj (Option.some.inj read)
      refine ⟨?_, fun stops => ?_⟩
      · intro d member
        rcases List.mem_cons.mp member with rfl | later
        · exact isNumberChar_of_isDigit digit
        · exact readDigits_taken text d later
      · rw [List.cons_append, readInteger, if_neg zero, if_pos digit, readDigits_append stops]

theorem readFraction_of_ne {c : Char} (other : c ≠ '.') (text : List Char) :
    readFraction (c :: text) = some ([], c :: text) := by
  rw [readFraction]
  intro _ same
  exact other (List.cons.inj same).1

theorem readsNumber_readFraction : ReadsNumber readFraction := by
  intro text taken left read
  cases text with
  | nil =>
    obtain ⟨rfl, rfl⟩ := Prod.mk.inj (Option.some.inj read)
    refine ⟨by simp, fun {rest} stops => ?_⟩
    cases rest with
    | nil => rfl
    | cons =>
      apply readFraction_of_ne
      rintro rfl
      exact absurd (stops '.' rfl) (by decide)
  | cons c text =>
    by_cases point : c = '.'
    · subst point
      simp only [readFraction] at read
      split_ifs at read with empty
      obtain ⟨rfl, rfl⟩ := Prod.mk.inj (Option.some.inj read)
      refine ⟨?_, fun stops => ?_⟩
      · intro d member
        rcases List.mem_cons.mp member with rfl | later
        · decide
        · exact readDigits_taken text d later
      · simp only [List.cons_append, readFraction, readDigits_append stops, if_neg empty]
    · rw [readFraction_of_ne point] at read
      obtain ⟨rfl, rfl⟩ := Prod.mk.inj (Option.some.inj read)
      exact ⟨by simp, fun _ => readFraction_of_ne point _⟩

theorem readSign_taken (text : List Char) : ∀ c ∈ (readSign text).1, isNumberChar c = true := by
  intro c member
  rw [readSign.eq_def] at member
  split at member
  · rw [List.mem_singleton.mp member]
    decide
  · rw [List.mem_singleton.mp member]
    decide
  · cases member

theorem readSign_append {text : List Char} (filled : text ≠ []) (rest : List Char) :
    readSign (text ++ rest) = ((readSign text).1, (readSign text).2 ++ rest) := by
  cases text with
  | nil => exact absurd rfl filled
  | cons c text =>
    rw [List.cons_append, readSign.eq_def, readSign.eq_def (c :: text)]
    split <;> simp_all

theorem readsNumber_readExponent : ReadsNumber readExponent := by
  intro text taken left read
  cases text with
  | nil =>
    obtain ⟨rfl, rfl⟩ := Prod.mk.inj (Option.some.inj read)
    refine ⟨by simp, fun {rest} stops => ?_⟩
    cases rest with
    | nil => rfl
    | cons c =>
      have other : ¬(c = 'e' ∨ c = 'E') := by
        rintro (rfl | rfl)
        · exact absurd (stops 'e' rfl) (by decide)
        · exact absurd (stops 'E' rfl) (by decide)
      rw [List.nil_append, readExponent, if_neg other]
  | cons c text =>
    by_cases marked : c = 'e' ∨ c = 'E'
    · simp only [readExponent, if_pos marked] at read
      split_ifs at read with empty
      obtain ⟨rfl, rfl⟩ := Prod.mk.inj (Option.some.inj read)
      have filled : text ≠ [] := by
        rintro rfl
        exact empty rfl
      refine ⟨?_, fun stops => ?_⟩
      · intro d member
        rcases List.mem_cons.mp member with rfl | later
        · rcases marked with rfl | rfl <;> decide
        · rcases List.mem_append.mp later with sign | digit
          · exact readSign_taken text d sign
          · exact readDigits_taken _ d digit
      · rw [List.cons_append, readExponent, if_pos marked]
        simp only [readSign_append filled, readDigits_append stops, if_neg empty]
    · rw [readExponent, if_neg marked] at read
      obtain ⟨rfl, rfl⟩ := Prod.mk.inj (Option.some.inj read)
      refine ⟨by simp, fun _ => ?_⟩
      rw [List.cons_append, readExponent, if_neg marked]

theorem readsNumber_readUnsigned : ReadsNumber readUnsigned := by
  intro text taken left read
  simp only [readUnsigned, Option.bind_eq_bind, Option.bind_eq_some_iff, Prod.exists] at read
  obtain ⟨whole, afterWhole, first, fraction, afterFraction, second, exponent, last, third, same⟩ :=
    read
  obtain ⟨rfl, rfl⟩ := Prod.mk.inj (Option.some.inj same)
  obtain ⟨wholeTaken, wholeMore⟩ := readsNumber_readInteger first
  obtain ⟨fractionTaken, fractionMore⟩ := readsNumber_readFraction second
  obtain ⟨exponentTaken, exponentMore⟩ := readsNumber_readExponent third
  constructor
  · intro c member
    rcases List.mem_append.mp member with front | back
    · rcases List.mem_append.mp front with digit | part
      · exact wholeTaken c digit
      · exact fractionTaken c part
    · exact exponentTaken c back
  · intro rest stops
    simp only [readUnsigned, Option.bind_eq_bind, wholeMore stops, fractionMore stops,
      exponentMore stops, Option.bind_some]

theorem readNumber_of_ne {c : Char} (other : c ≠ '-') (text : List Char) :
    readNumber (c :: text) = readUnsigned (c :: text) := by
  rw [readNumber]
  intro _ same
  exact other (List.cons.inj same).1

theorem readsNumber_readNumber : ReadsNumber readNumber := by
  intro text taken left read
  cases text with
  | nil => cases read
  | cons c =>
    by_cases minus : c = '-'
    · subst minus
      obtain ⟨⟨digits, after⟩, unsigned, same⟩ := Option.map_eq_some_iff.mp read
      obtain ⟨rfl, rfl⟩ := Prod.mk.inj same
      obtain ⟨all, more⟩ := readsNumber_readUnsigned unsigned
      refine ⟨?_, fun stops => ?_⟩
      · intro d member
        rcases List.mem_cons.mp member with rfl | later
        · decide
        · exact all d later
      · rw [List.cons_append, readNumber, more stops]
        rfl
    · rw [readNumber_of_ne minus] at read
      obtain ⟨all, more⟩ := readsNumber_readUnsigned read
      refine ⟨all, fun stops => ?_⟩
      rw [List.cons_append, readNumber_of_ne minus, ← List.cons_append]
      exact more stops

theorem head_of_readNumber {text : List Char} {result : List Char × List Char}
    (read : readNumber text = some result) :
    ∃ c rest, text = c :: rest ∧ (c = '-' ∨ c.isDigit = true) := by
  cases text with
  | nil => cases read
  | cons c text =>
    refine ⟨c, text, rfl, ?_⟩
    by_cases minus : c = '-'
    · exact .inl minus
    · right
      rw [readNumber_of_ne minus] at read
      obtain ⟨_, first, _⟩ := Option.bind_eq_some_iff.mp read
      rw [readInteger] at first
      split_ifs at first with zero digit
      · rw [zero]
        decide
      · exact digit

def readKeyword : List Char → Option (Json × List Char)
  | 'n' :: 'u' :: 'l' :: 'l' :: rest => some (.null, rest)
  | 't' :: 'r' :: 'u' :: 'e' :: rest => some (.bool true, rest)
  | 'f' :: 'a' :: 'l' :: 's' :: 'e' :: rest => some (.bool false, rest)
  | _ => none

mutual

/-- A value at the front of a text, to a depth. A number keeps its literal; of two fields with one
name the later one counts. -/
def readValue : Nat → List Char → Option (Json × List Char)
  | 0, _ => none
  | depth + 1, text =>
    match skipSpace text with
    | [] => none
    | c :: rest =>
      if c = '\x22' then (readString rest).map fun result => (.string result.1, result.2)
      else if c = '[' then
        if (skipSpace rest).head? = some ']' then some (.array [], (skipSpace rest).tail)
        else (readItems depth rest).map fun result => (.array result.1, result.2)
      else if c = '\x7b' then
        if (skipSpace rest).head? = some '\x7d' then some (.object [], (skipSpace rest).tail)
        else (readFields depth rest).map fun result =>
          (.object (result.1.foldl (fun object field => setField field.1 field.2 object) []),
            result.2)
      else if c = '-' ∨ c.isDigit then
        (readNumber (c :: rest)).map fun result =>
          (.number (String.ofList result.1), result.2)
      else readKeyword (c :: rest)

/-- The items of an array up to its end. -/
def readItems : Nat → List Char → Option (List Json × List Char)
  | 0, _ => none
  | depth + 1, text =>
    (readValue depth text).bind fun first =>
      match skipSpace first.2 with
      | ',' :: rest =>
        (readItems depth rest).map fun result => (first.1 :: result.1, result.2)
      | ']' :: rest => some ([first.1], rest)
      | _ => none

/-- The fields of an object up to its end. -/
def readFields : Nat → List Char → Option (Fields × List Char)
  | 0, _ => none
  | depth + 1, text =>
    match skipSpace text with
    | '\x22' :: rest =>
      (readString rest).bind fun name =>
        match skipSpace name.2 with
        | ':' :: rest =>
          (readValue depth rest).bind fun value =>
            match skipSpace value.2 with
            | ',' :: rest => (readFields depth rest).map fun result =>
              ((String.ofList name.1, value.1) :: result.1, result.2)
            | '\x7d' :: rest => some ([(String.ofList name.1, value.1)], rest)
            | _ => none
        | _ => none
    | _ => none

end

/-- `JSON.parse`, where an error is `none` -/
def parseJson (text : List Char) : Option Json :=
  match readValue (text.length + 1) text with
  | some (value, rest) => if skipSpace rest = [] then some value else none
  | none => none

mutual

def wellFormed : Json → Bool
  | .number literal => readNumber literal.toList = some (literal.toList, [])
  | .array items => wellFormedItems items
  | .object fields => decide (fields.map Prod.fst).Nodup && wellFormedFields fields
  | .null | .bool _ | .string _ => true

def wellFormedItems : List Json → Bool
  | [] => true
  | item :: items => wellFormed item && wellFormedItems items

def wellFormedFields : List (String × Json) → Bool
  | [] => true
  | (_, value) :: fields => wellFormed value && wellFormedFields fields

end

theorem skipSpace_cons {c : Char} (other : isJsonSpace c = false) (rest : List Char) :
    skipSpace (c :: rest) = c :: rest := by
  simp [skipSpace, other]

theorem setField_of_not_mem {name : String} {value : Json} {fields : Fields}
    (new : name ∉ fields.map Prod.fst) : setField name value fields = fields ++ [(name, value)] := by
  induction fields with
  | nil => rfl
  | cons field fields ih =>
    rw [List.map_cons, List.mem_cons, not_or] at new
    rw [setField, if_neg (Ne.symm new.1), ih new.2, List.cons_append]

theorem foldl_setField {base added : Fields}
    (distinct : ((base ++ added).map Prod.fst).Nodup) :
    added.foldl (fun object field => setField field.1 field.2 object) base = base ++ added := by
  induction added generalizing base with
  | nil => rw [List.foldl_nil, List.append_nil]
  | cons field added ih =>
    have new : field.1 ∉ base.map Prod.fst := by
      rw [List.map_append, List.map_cons, List.nodup_middle, List.nodup_cons] at distinct
      intro used
      exact distinct.1 (List.mem_append_left _ used)
    rw [List.foldl_cons, setField_of_not_mem new, ih (by simpa using distinct)]
    simp

theorem head_of_dumps (format : JsonFormat) {value : Json} (valid : wellFormed value = true) :
    ∃ c rest, dumps format value = c :: rest ∧ isJsonSpace c = false ∧ c ≠ ']' := by
  cases value with
  | null => exact ⟨'n', _, rfl, by decide, by decide⟩
  | bool value =>
    cases value with
    | true => exact ⟨'t', _, rfl, by decide, by decide⟩
    | false => exact ⟨'f', _, rfl, by decide, by decide⟩
  | number literal =>
    have read : readNumber literal.toList = some (literal.toList, []) := by
      simpa [wellFormed] using valid
    obtain ⟨c, rest, text, start⟩ := head_of_readNumber read
    refine ⟨c, rest, text, ?_, ?_⟩
    · rcases start with rfl | digit
      · decide
      · cases space : isJsonSpace c with
        | false => rfl
        | true =>
          simp only [isJsonSpace, Bool.or_eq_true, decide_eq_true_eq] at space
          rcases space with ((rfl | rfl) | rfl) | rfl <;> exact absurd digit (by decide)
    · rintro rfl
      rcases start with same | digit
      · exact absurd same (by decide)
      · exact absurd digit (by decide)
  | string => exact ⟨'\x22', _, rfl, by decide, by decide⟩
  | array => exact ⟨'[', _, rfl, by decide, by decide⟩
  | object => exact ⟨'\x7b', _, rfl, by decide, by decide⟩

theorem head_of_dumpItems (format : JsonFormat) {first : Json} (items : List Json)
    (valid : wellFormed first = true) :
    ∃ c rest, dumpItems format (first :: items) = c :: rest ∧ isJsonSpace c = false ∧ c ≠ ']' := by
  obtain ⟨c, rest, text, blank, bracket⟩ := head_of_dumps format valid
  cases items with
  | nil => exact ⟨c, rest, by rw [dumpItems, text], blank, bracket⟩
  | cons next items =>
    refine ⟨c, rest ++ format.itemSeparator ++ dumpItems format (next :: items), ?_, blank,
      bracket⟩
    rw [dumpItems, text, List.cons_append, List.cons_append]

theorem head_of_dumpFields (format : JsonFormat) (field : String × Json) (fields : Fields) :
    ∃ rest, dumpFields format (field :: fields) = '\x22' :: rest := by
  obtain ⟨name, value⟩ := field
  cases fields with
  | nil | cons => exact ⟨_, rfl⟩

/-- What a reader of some depth reads back. -/
structure ReadsBack (format : JsonFormat) (depth : Nat) : Prop where
  value : ∀ {value : Json} {rest : List Char}, wellFormed value = true →
    (dumps format value).length < depth → StopsNumber rest →
      readValue depth (dumps format value ++ rest) = some (value, rest)
  items : ∀ {first : Json} {items : List Json} {rest : List Char},
    wellFormedItems (first :: items) = true →
      (dumpItems format (first :: items)).length + 1 < depth →
        readItems depth (dumpItems format (first :: items) ++ ']' :: rest) =
          some (first :: items, rest)
  fields : ∀ {first : String × Json} {fields : Fields} {rest : List Char},
    wellFormedFields (first :: fields) = true →
      (dumpFields format (first :: fields)).length + 1 < depth →
        readFields depth (dumpFields format (first :: fields) ++ '\x7d' :: rest) =
          some (first :: fields, rest)

variable {format : JsonFormat} {depth : Nat}

theorem readValue_number {literal : String} {rest : List Char}
    (valid : wellFormed (.number literal) = true) (stops : StopsNumber rest) :
    readValue (depth + 1) (literal.toList ++ rest) = some (.number literal, rest) := by
  have read : readNumber literal.toList = some (literal.toList, []) := by
    simpa [wellFormed] using valid
  have whole := (readsNumber_readNumber read).2 stops
  obtain ⟨c, digits, text, start⟩ := head_of_readNumber read
  obtain ⟨d, _, same, blank, _⟩ := head_of_dumps compactJson valid
  have first : d = c := (List.cons.inj (same.symm.trans text)).1
  subst first
  have other : d ≠ '\x22' ∧ d ≠ '[' ∧ d ≠ '\x7b' := by
    refine ⟨?_, ?_, ?_⟩ <;> rintro rfl <;> exact absurd start (by decide)
  rw [text, List.cons_append] at whole ⊢
  rw [readValue, skipSpace_cons blank]
  simp only [other.1, other.2.1, other.2.2, if_false, if_pos start, whole, Option.map_some,
    List.nil_append]
  rw [← text, String.ofList_toList]

theorem readValue_dumps (back : ReadsBack format depth) {value : Json} {rest : List Char}
    (valid : wellFormed value = true) (bound : (dumps format value).length < depth + 1)
    (stops : StopsNumber rest) :
    readValue (depth + 1) (dumps format value ++ rest) = some (value, rest) := by
  cases value with
  | null => simp [dumps, readValue, skipSpace, isJsonSpace, readKeyword]
  | bool value => cases value <;> simp [dumps, readValue, skipSpace, isJsonSpace, readKeyword]
  | number => exact readValue_number valid stops
  | string text =>
    have read := readString_escaped format text rest
    simp [dumps, quote, readValue, skipSpace, isJsonSpace, read]
  | array items =>
    cases items with
    | nil => simp [dumps, dumpItems, readValue, skipSpace, isJsonSpace]
    | cons first items =>
      have shape : dumps format (.array (first :: items)) ++ rest =
          '[' :: (dumpItems format (first :: items) ++ ']' :: rest) := by simp [dumps]
      have size : (dumpItems format (first :: items)).length + 1 < depth := by
        simp only [dumps, List.length_cons, List.length_append, List.length_nil] at bound
        omega
      have all : wellFormedItems (first :: items) = true := valid
      have one : wellFormed first = true := (Bool.and_eq_true_iff.mp all).1
      obtain ⟨c, tail, text, blank, bracket⟩ := head_of_dumpItems format items one
      have front : (skipSpace (dumpItems format (first :: items) ++ ']' :: rest)).head? =
          some c := by
        rw [text, List.cons_append, skipSpace_cons blank]
        rfl
      have inside : some c ≠ some ']' := fun same => bracket (Option.some.inj same)
      rw [shape, readValue, skipSpace_cons (by decide)]
      simp only [front, inside, back.items all size, if_false, Option.map_some]
      rfl
  | object fields =>
    cases fields with
    | nil => simp [dumps, dumpFields, readValue, skipSpace, isJsonSpace]
    | cons first fields =>
      have shape : dumps format (.object (first :: fields)) ++ rest =
          '\x7b' :: (dumpFields format (first :: fields) ++ '\x7d' :: rest) := by simp [dumps]
      have size : (dumpFields format (first :: fields)).length + 1 < depth := by
        simp only [dumps, List.length_cons, List.length_append, List.length_nil] at bound
        omega
      obtain ⟨distinct, all⟩ := Bool.and_eq_true_iff.mp valid
      have kept : (first :: fields).foldl
          (fun object field => setField field.1 field.2 object) [] = first :: fields :=
        foldl_setField (of_decide_eq_true distinct)
      obtain ⟨tail, text⟩ := head_of_dumpFields format first fields
      have front : (skipSpace (dumpFields format (first :: fields) ++ '\x7d' :: rest)).head? =
          some '\x22' := by
        rw [text, List.cons_append, skipSpace_cons (by decide)]
        rfl
      have inside : some '\x22' ≠ some '\x7d' := by decide
      rw [shape, readValue, skipSpace_cons (by decide)]
      simp only [front, inside, back.fields all size, if_false, Option.map_some, kept]
      rfl

theorem readItems_dumps (back : ReadsBack format depth) (comma : format.itemSeparator = [','])
    {first : Json} {items : List Json} {rest : List Char}
    (valid : wellFormedItems (first :: items) = true)
    (bound : (dumpItems format (first :: items)).length + 1 < depth + 1) :
    readItems (depth + 1) (dumpItems format (first :: items) ++ ']' :: rest) =
      some (first :: items, rest) := by
  obtain ⟨one, others⟩ := Bool.and_eq_true_iff.mp valid
  cases items with
  | nil =>
    rw [dumpItems] at bound ⊢
    rw [readItems, back.value one (by omega) (stopsNumber_cons (by decide) rest), Option.bind_some,
      skipSpace_cons (by decide)]
    rfl
  | cons next items =>
    rw [dumpItems, comma] at bound ⊢
    simp only [List.length_append, List.length_singleton] at bound
    have later : readItems depth (dumpItems format (next :: items) ++ ']' :: rest) =
        some (next :: items, rest) := back.items others (by omega)
    rw [List.append_assoc, List.append_assoc, List.singleton_append, readItems,
      back.value one (by omega) (stopsNumber_cons (by decide) _), Option.bind_some,
      skipSpace_cons (by decide)]
    simp only [later, Option.map_some]

theorem readFields_dumps (back : ReadsBack format depth) (comma : format.itemSeparator = [','])
    (colon : format.keySeparator = [':']) {first : String × Json} {fields : Fields}
    {rest : List Char} (valid : wellFormedFields (first :: fields) = true)
    (bound : (dumpFields format (first :: fields)).length + 1 < depth + 1) :
    readFields (depth + 1) (dumpFields format (first :: fields) ++ '\x7d' :: rest) =
      some (first :: fields, rest) := by
  obtain ⟨name, value⟩ := first
  obtain ⟨one, others⟩ := Bool.and_eq_true_iff.mp valid
  cases fields with
  | nil =>
    rw [dumpFields, colon] at bound ⊢
    simp only [List.length_append, List.length_singleton] at bound
    have named := readString_escaped format name.toList
      (':' :: (dumps format value ++ '\x7d' :: rest))
    have read := back.value one (by omega) (stopsNumber_cons (by decide) rest : StopsNumber
      ('\x7d' :: rest))
    simp [quote, readFields, skipSpace, isJsonSpace, named, read]
  | cons next fields =>
    rw [dumpFields, colon, comma] at bound ⊢
    simp only [List.length_append, List.length_singleton] at bound
    have later : readFields depth (dumpFields format (next :: fields) ++ '\x7d' :: rest) =
        some (next :: fields, rest) := back.fields others (by omega)
    have named := readString_escaped format name.toList
      (':' :: (dumps format value ++ ',' :: (dumpFields format (next :: fields) ++ '\x7d' :: rest)))
    have read := back.value one (by omega) (stopsNumber_cons (by decide) _ : StopsNumber
      (',' :: (dumpFields format (next :: fields) ++ '\x7d' :: rest)))
    simp [quote, readFields, skipSpace, isJsonSpace, named, read, later]

theorem readsBack (comma : format.itemSeparator = [',']) (colon : format.keySeparator = [':'])
    (depth : Nat) : ReadsBack format depth := by
  induction depth with
  | zero => exact ⟨fun _ bound => by omega, fun _ bound => by omega, fun _ bound => by omega⟩
  | succ depth back =>
    exact ⟨readValue_dumps back, readItems_dumps back comma, readFields_dumps back comma colon⟩

/-- `JSON.parse` reads back what `json.dumps` writes without blanks, with every character. -/
theorem parseJson_dumps (comma : format.itemSeparator = [','])
    (colon : format.keySeparator = [':']) {value : Json} (valid : wellFormed value = true) :
    parseJson (dumps format value) = some value := by
  have stops : StopsNumber [] := by
    intro c first
    cases first
  have read := (readsBack comma colon ((dumps format value).length + 1)).value valid
    (Nat.lt_succ_self _) stops
  rw [List.append_nil] at read
  rw [parseJson, read]
  rfl

end AverQel.Frontend
