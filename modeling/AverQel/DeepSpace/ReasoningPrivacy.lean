/- digest: The patterns that mask secrets and private spans in visible reasoning. -/
import AverQel.Foundation.Regex
import AverQel.Foundation.Text

namespace AverQel.DeepSpace

open Foundation

/-- The characters that `\\w` and `\\d` match. -/
structure CharTables where
  isWord : Char → Bool
  isDecimal : Char → Bool

def sameIgnoringCase (letter c : Char) : Bool :=
  c.toLower = letter.toLower ||
    (letter.toLower = 'i' && (c.toNat = 304 || c.toNat = 305)) ||
    (letter.toLower = 's' && c.toNat = 383) || (letter.toLower = 'k' && c.toNat = 8490)

/-- `[a-z]` without case. -/
def isLetter (c : Char) : Bool := c.isAlpha || c.toNat ∈ [304, 305, 383, 8490]

def isHex (c : Char) : Bool := c.isDigit || c.toLower ∈ ['a', 'b', 'c', 'd', 'e', 'f']

def isSlug (c : Char) : Bool := c.isAlphanum || c ∈ ['_', '-']

def isHost (c : Char) : Bool := isLetter c || c.isDigit || c ∈ ['.', '-']

def literal (text : String) : Regex Char := .all (text.toList.map fun c => .one fun d => d = c)

def ignoringCase (text : String) : Regex Char :=
  .all (text.toList.map fun c => .one (sameIgnoringCase c))

def oneOf (text : String) : Regex Char := .one fun c => c ∈ text.toList

def spaces : Regex Char := .star true (.one Text.isSpace)

def anything : Regex Char := .star false (.one fun _ => true)

def filled (text : String) : Regex Char := .one fun c => !Text.isSpace c && c ∉ text.toList

/-- `MASK` -/
def mask : List Char := "••••••••".toList

variable (tables : CharTables)

def wordEdge : Regex Char := .edge tables.isWord

def pemMaterial : Pattern Char where
  captured := .all [ignoringCase "-----BEGIN ",
    .star true (.one fun c => isLetter c || c.isDigit || c ∈ [' ', '_', '-']),
    ignoringCase "PRIVATE KEY-----", anything, ignoringCase "-----END ",
    .star true (.one fun c => isLetter c || c.isDigit || c ∈ [' ', '_', '-']),
    ignoringCase "PRIVATE KEY-----"]
  tail := .empty
  replacement _ := mask

def credentialLabel : Pattern Char where
  captured := .seq (wordEdge tables) (.any [ignoringCase "authorization", ignoringCase "x-api-key",
    .all [ignoringCase "api", .optional (oneOf " _-"), ignoringCase "key"],
    .all [ignoringCase "access", .optional (oneOf " _-"), ignoringCase "token"],
    .all [ignoringCase "refresh", .optional (oneOf " _-"), ignoringCase "token"],
    .all [ignoringCase "session", .optional (oneOf " _-"), ignoringCase "token"],
    ignoringCase "password", ignoringCase "secret", ignoringCase "cookie"])
  tail := .all [wordEdge tables, spaces, oneOf ":=", spaces,
    .optional (.seq (ignoringCase "bearer") (.atLeast 1 (.one Text.isSpace))),
    .atLeast 1 (filled ",;])\x7d")]
  replacement label := label ++ ": ".toList ++ mask

def bearerToken : Pattern Char where
  captured := .all [wordEdge tables, ignoringCase "bearer", .atLeast 1 (.one Text.isSpace),
    .atLeast 6 (.one fun c => isLetter c || c.isDigit || c ∈ "._~+/-".toList)]
  tail := .empty
  replacement _ := "Bearer ".toList ++ mask

def providerKey : Pattern Char where
  captured := .all [wordEdge tables, literal "sk-", .atLeast 12 (.one isSlug), wordEdge tables]
  tail := .empty
  replacement _ := mask

def slackToken : Pattern Char where
  captured := .all [wordEdge tables, literal "xox", oneOf "baprs", literal "-",
    .atLeast 10 (.one fun c => c.isAlphanum || c = '-'), wordEdge tables]
  tail := .empty
  replacement _ := mask

def webToken : Pattern Char where
  captured := .all [wordEdge tables, literal "eyJ", .atLeast 8 (.one isSlug), literal ".",
    .atLeast 8 (.one isSlug), literal ".", .atLeast 8 (.one isSlug), wordEdge tables]
  tail := .empty
  replacement _ := mask

def urlCredentials : Pattern Char where
  captured := .all [.one isLetter,
    .star true (.one fun c => isLetter c || c.isDigit || c ∈ ['+', '.', '-']), literal "://"]
  tail := .all [.atLeast 1 (filled "/@:"), literal ":", .atLeast 1 (filled "/@"), literal "@"]
  replacement scheme := scheme ++ "••••:••••@".toList

/-- `\\.\\d{1,3}` -/
def octet : Regex Char := .seq (literal ".") (.between 1 3 (.one tables.isDecimal))

def internalEndpoint : Pattern Char where
  captured := .all [ignoringCase "http", .optional (ignoringCase "s"), literal "://",
    .any [ignoringCase "localhost", literal "127.0.0.1", literal "0.0.0.0",
      .seq (literal "10") (.times 3 (octet tables)),
      .seq (literal "192.168") (.times 2 (octet tables)),
      .all [literal "172.", .any [.seq (literal "1") (oneOf "6789"),
        .seq (literal "2") (.one tables.isDecimal), .seq (literal "3") (oneOf "01")],
        .times 2 (octet tables)],
      .seq (.atLeast 1 (.one isHost)) (ignoringCase ".internal")],
    .optional (.seq (literal ":") (.atLeast 1 (.one tables.isDecimal))),
    .optional (.seq (literal "/") (.star true (filled "")))]
  tail := .empty
  replacement _ := mask

def resourceId : Pattern Char where
  captured := .seq (wordEdge tables) (.any [ignoringCase "file", ignoringCase "conversation",
    ignoringCase "tenant", ignoringCase "user", ignoringCase "run", ignoringCase "tool"])
  tail := .all [.optional (oneOf " _-"), ignoringCase "id", wordEdge tables, spaces, oneOf ":=",
    spaces, .times 8 (.one isHex), literal "-", .atLeast 27 (.one fun c => isHex c || c = '-')]
  replacement kind := kind ++ " id: ".toList ++ mask

def hiddenInstructions : Pattern Char where
  captured := .seq (wordEdge tables) (.any [ignoringCase "system prompt",
    .seq (ignoringCase "developer instruction") (.optional (ignoringCase "s")),
    .seq (ignoringCase "hidden instruction") (.optional (ignoringCase "s"))])
  tail := .all [wordEdge tables, spaces, oneOf ":=-", spaces, anything,
    .look (.any [.all [literal "\n", spaces, literal "\n"], .atEnd])]
  replacement name := name ++ ": ".toList ++ mask

/-- `_REDACTION_PATTERNS` -/
def redactionPatterns : List (Pattern Char) :=
  [pemMaterial, credentialLabel tables, bearerToken tables, providerKey tables, slackToken tables,
    webToken tables, urlCredentials, internalEndpoint tables, resourceId tables,
    hiddenInstructions tables]

/-- `redact_reasoning_text` -/
def redactReasoningText (value : List Char) : List Char := subAll (redactionPatterns tables) value

@[simp] theorem redactReasoningText_nil : redactReasoningText tables [] = [] := subAll_nil _

end AverQel.DeepSpace
