/- digest: Base64 with the alphabet for URLs, and the lenient decoding of a text with padding. -/
import Mathlib.Init

namespace AverQel.Foundation.Base64

def digit (n : Nat) : Char :=
  if n < 26 then Char.ofNat (65 + n) else if n < 52 then Char.ofNat (71 + n)
  else if n < 62 then Char.ofNat (n - 4) else if n = 62 then '-' else '_'

def value (c : Char) : Option Nat :=
  if 'A' ≤ c ∧ c ≤ 'Z' then some (c.toNat - 65) else if 'a' ≤ c ∧ c ≤ 'z' then some (c.toNat - 71)
  else if '0' ≤ c ∧ c ≤ '9' then some (c.toNat + 4) else if c = '-' ∨ c = '+' then some 62
  else if c = '_' ∨ c = '/' then some 63 else none

/-- The digits of a text in bytes, without padding. -/
def encode : List Nat → List Char
  | [] => []
  | [a] => [digit (a / 4), digit (a % 4 * 16)]
  | [a, b] => [digit (a / 4), digit (a % 4 * 16 + b / 16), digit (b % 16 * 4)]
  | a :: b :: c :: rest =>
    digit (a / 4) :: digit (a % 4 * 16 + b / 16) :: digit (b % 16 * 4 + c / 64) ::
      digit (c % 64) :: encode rest

def padding (text : List Char) : List Char := List.replicate ((4 - text.length % 4) % 4) '='

def bytes : List Nat → List Nat
  | [x, y] => [x * 4 + y / 16]
  | [x, y, z] => [x * 4 + y / 16, y % 16 * 16 + z / 4]
  | [x, y, z, w] => [x * 4 + y / 16, y % 16 * 16 + z / 4, z % 4 * 64 + w]
  | _ => []

/-- Decoding with the digits of the group so far and the padding seen in it. Foreign characters are
skipped, and nothing is read behind the padding. -/
def decode (quad : List Nat) (pads : Nat) : List Char → Option (List Nat)
  | [] => if quad = [] then some [] else none
  | c :: rest =>
    if c = '=' then
      if quad.length < 2 then decode quad pads rest
      else if 4 ≤ quad.length + (pads + 1) then some (bytes quad)
      else decode quad (pads + 1) rest
    else
      match value c with
      | none => decode quad pads rest
      | some n =>
        if quad.length = 3 then (decode [] 0 rest).map (bytes (quad ++ [n]) ++ ·)
        else decode (quad ++ [n]) 0 rest

theorem value_digit : ∀ n < 64, digit n ≠ '=' ∧ value (digit n) = some n := by decide

theorem decode_digit {n : Nat} (small : n < 64) (quad : List Nat) (pads : Nat) (rest : List Char) :
    decode quad pads (digit n :: rest) =
      if quad.length = 3 then (decode [] 0 rest).map (bytes (quad ++ [n]) ++ ·)
      else decode (quad ++ [n]) 0 rest := by
  obtain ⟨other, known⟩ := value_digit n small
  rw [decode, if_neg other, known]

theorem decode_padded : (∀ x y, decode [x, y] 0 ['=', '='] = some (bytes [x, y])) ∧
    ∀ x y z, decode [x, y, z] 0 ['='] = some (bytes [x, y, z]) :=
  ⟨by simp [decode], by simp [decode]⟩

theorem decode_encode {text : List Nat} (small : ∀ b ∈ text, b < 256) :
    decode [] 0 (encode text ++ padding (encode text)) = some text := by
  induction text using encode.induct with
  | case1 => rfl
  | case2 a =>
    have first : a < 256 := small a List.mem_cons_self
    have high : a / 4 < 64 := by omega
    have low : a % 4 * 16 < 64 := by omega
    simp [encode, padding, decode_digit high, decode_digit low, List.replicate, decode_padded,
      bytes]
    omega
  | case3 a b =>
    have first : a < 256 := small a List.mem_cons_self
    have second : b < 256 := small b (by simp)
    have high : a / 4 < 64 := by omega
    have middle : a % 4 * 16 + b / 16 < 64 := by omega
    have low : b % 16 * 4 < 64 := by omega
    simp [encode, padding, decode_digit high, decode_digit middle, decode_digit low, decode_padded,
      bytes]
    omega
  | case4 a b c rest ih =>
    have first : a < 256 := small a List.mem_cons_self
    have second : b < 256 := small b (by simp)
    have third : c < 256 := small c (by simp)
    have padded : padding (encode (a :: b :: c :: rest)) = padding (encode rest) := by
      simp only [padding, encode, List.length_cons]
      congr 1
      omega
    have later := ih fun d member => small d (by simp [member])
    have high : a / 4 < 64 := by omega
    have upper : a % 4 * 16 + b / 16 < 64 := by omega
    have lower : b % 16 * 4 + c / 64 < 64 := by omega
    have low : c % 64 < 64 := by omega
    rw [padded, encode]
    simp [decode_digit high, decode_digit upper, decode_digit lower, decode_digit low, later, bytes]
    omega

theorem ascii_encode (text : List Nat) : (encode text).all (fun c => c.toNat < 128) = true := by
  have plain : ∀ n, (digit n).toNat < 128 := by
    intro n
    rcases Nat.lt_or_ge n 64 with small | large
    · exact (by decide : ∀ n < 64, (digit n).toNat < 128) n small
    · have last : digit n = '_' := by
        simp only [digit]
        rw [if_neg (by omega), if_neg (by omega), if_neg (by omega), if_neg (by omega)]
      rw [last]
      decide
  induction text using encode.induct with
  | case1 => rfl
  | case2 | case3 => simp [encode, plain]
  | case4 a b c rest ih => simpa [encode, plain] using ih

end AverQel.Foundation.Base64
