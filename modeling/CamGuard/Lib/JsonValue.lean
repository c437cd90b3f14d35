/-
What Python makes of decoded values (`Lib/Json.lean`): truth, equality with an
integer, and the kinds of errors of `json.loads` that its callers tell apart.
-/
import CamGuard.Lib.Json

namespace CamGuard

/-- Why `json.loads` raises: the text is no JSON or not UTF-8
(`JSONDecodeError`, `UnicodeDecodeError`), an integer has too many digits
(`ValueError`), or it nests too deep (`RecursionError`). -/
inductive LoadsFault where
  | decode
  | digits
  | depth
  deriving DecidableEq, Repr

/-- `json.loads` on bytes, with the error it raises. A float's text is the one
`repr` gives. -/
abbrev TryLoads := Bytes → Except LoadsFault Json

/-- A text as UTF-8. -/
def Bytes.utf8 (text : String) : Bytes := text.toList.flatMap String.utf8EncodeChar

namespace Json

/-- `bool(value)`. -/
def truthy : Json → Bool
  | .null => false
  | .bool value => value
  | .int value => value != 0
  | .float text => text != "0.0" && text != "-0.0"
  | .str value => value != ""
  | .list items => !items.isEmpty
  | .dict entries => !entries.isEmpty

/-- `value == n`, for a small integer. -/
def equalsInt (n : Int) : Json → Bool
  | .int value => value == n
  | .bool value => (if value then 1 else 0) == n
  | .float text => text == toString n ++ ".0"
  | _ => false

/-- `isinstance(value, dict)`. -/
def isDict : Json → Bool
  | .dict _ => true
  | _ => false

/-- `isinstance(value, str)`. -/
def asStr? : Json → Option String
  | .str value => some value
  | _ => none

/-- `value.get(key, default)`. -/
def getD (value : Json) (key : String) (fallback : Json) : Json := (value.get? key).getD fallback

end Json

/-- `str.isspace` of one character. -/
def isSpace (c : Char) : Bool :=
  (0x09 ≤ c.toNat && c.toNat ≤ 0x0D) || (0x1C ≤ c.toNat && c.toNat ≤ 0x20) || c.toNat == 0x85 || c.toNat == 0xA0 ||
    c.toNat == 0x1680 || (0x2000 ≤ c.toNat && c.toNat ≤ 0x200A) || c.toNat == 0x2028 || c.toNat == 0x2029 ||
    c.toNat == 0x202F || c.toNat == 0x205F || c.toNat == 0x3000

/-- `str.strip()`, as characters. -/
def strip (text : String) : List Char :=
  ((text.toList.dropWhile isSpace).reverse.dropWhile isSpace).reverse

end CamGuard
