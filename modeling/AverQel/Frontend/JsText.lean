/- digest: Blank characters and trimming of strings in the browser. -/
import Mathlib.Data.List.DropRight

namespace AverQel.Frontend

/-- The white space and line ends that `trim` removes. -/
def isBlank (c : Char) : Bool :=
  let n := c.toNat
  (9 ≤ n && n ≤ 13) || n == 32 || n == 160 || n == 5760 || (8192 ≤ n && n ≤ 8202) || n == 8232 ||
    n == 8233 || n == 8239 || n == 8287 || n == 12288 || n == 65279

def trimStart (cs : List Char) : List Char := cs.dropWhile isBlank

def trimEnd (cs : List Char) : List Char := cs.rdropWhile isBlank

def trim (cs : List Char) : List Char := trimEnd (trimStart cs)

end AverQel.Frontend
