/-
What `json.loads` returns and how its callers look into it. The decoder itself
is a parameter of the codecs that use it; they only ask for keys of an object
and for values that are exactly integers.
-/
import CamGuard.Lib.Bytes

namespace CamGuard

/-- A decoded value. A number that is not an integer is kept as its text. -/
inductive Json where
  | null
  | bool (value : Bool)
  | int (value : Int)
  | float (text : String)
  | str (value : String)
  | list (items : List Json)
  | dict (entries : List (String × Json))

namespace Json

/-- `value.get(key)`, if the value is an object at all. -/
def get? (value : Json) (key : String) : Option Json :=
  match value with
  | .dict entries => (entries.find? fun e => e.1 = key).map Prod.snd
  | _ => none

/-- The value, if `type(value) is int`. -/
def asInt? : Json → Option Int
  | .int value => some value
  | _ => none

/-- `value.get(key)`, if its type is exactly `int`. -/
def getInt? (value : Json) (key : String) : Option Int := (value.get? key).bind asInt?

/-- The values right inside an object or a list. -/
def parts : Json → List Json
  | .dict entries => entries.map Prod.snd
  | .list items => items
  | _ => []

end Json

/-- `json.loads` on bytes; `none` where it raises. -/
abbrev Loads := Bytes → Option Json

/-- An ASCII text as bytes. -/
def Bytes.ascii (text : String) : Bytes := text.toList.map fun c => UInt8.ofNat c.toNat

end CamGuard
