import Mathlib.Tactic

/-!
# Machinery/Json — parsed documents

A document as a parser leaves it: an object keeps its members in order and may hold a name twice.
The readers take a value of one type and refuse the others.
-/

namespace Machinery

/-- **A parsed document.**  Of a number that is not an integer nothing is kept. -/
inductive Json
  | null
  | bool (value : Bool)
  | integer (value : Int)
  | fraction
  | string (value : String)
  | array (elements : List Json)
  | object (members : List (String × Json))

namespace Json

def isObject : Json → Bool
  | .object _ => true
  | _ => false

/-- The first member of that name. -/
def member (key : String) : Json → Option Json
  | .object members => members.lookup key
  | _ => none

/-! ## Readers -/

/-- A string as a C string, which ends at its first null character. -/
def cString (s : String) : String := String.ofList (s.toList.takeWhile fun c => c.toNat != 0)

def string? : Json → Option String
  | .string value => some (cString value)
  | _ => none

def uint? : Json → Option UInt32
  | .integer value => if 0 ≤ value ∧ value < 2 ^ 32 then some (UInt32.ofNat value.toNat) else none
  | _ => none

def int64? : Json → Option Int
  | .integer value => if -2 ^ 63 ≤ value ∧ value < 2 ^ 63 then some value else none
  | _ => none

def bool? : Json → Option Bool
  | .bool value => some value
  | _ => none

def array? : Json → Option (List Json)
  | .array elements => some elements
  | _ => none

/-- The object under a name. -/
def objectAt (key : String) (json : Json) : Option Json := (json.member key).filter isObject

/-- The array under a name. -/
def arrayAt (key : String) (json : Json) : Option (List Json) := (json.member key).bind array?

/-- The string under a name. -/
def stringAt (key : String) (json : Json) : Option String := (json.member key).bind string?

end Json

end Machinery
