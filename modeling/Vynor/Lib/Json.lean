import Mathlib.Data.List.Basic
import Mathlib.Data.Rat.Defs

/-!
# JSON values

Values as `JSON.parse` returns them.  A number is one of the runtime's numbers,
without the sign of zero.  An object is the list of its members, and a name is
looked up by its first occurrence.
-/

namespace Lib

/-- A number of the runtime.  The finite ones are the rationals a double can
hold. -/
inductive Number where
  | nan
  | infinite (negative : Bool)
  | finite (value : Rat)
deriving DecidableEq, Repr

/-- A JSON value. -/
inductive Json where
  | null
  | bool (value : Bool)
  | number (value : Number)
  | string (value : String)
  | array (items : List Json)
  | object (members : List (String × Json))

namespace Json

/-- The members of an object. -/
abbrev Members := List (String × Json)

/-- The member of a name. -/
def Members.get? (members : Members) (name : String) : Option Json :=
  (members.find? fun m => m.1 = name).map Prod.snd

/-- A property of a value that may be missing.  Only objects have any. -/
def property? (value : Json) (name : String) : Option Json :=
  match value with
  | .object members => Members.get? members name
  | _ => none

/-- Whether a condition takes the value as true. -/
def truthy : Json → Bool
  | .null => false
  | .bool value => value
  | .number .nan => false
  | .number (.infinite _) => true
  | .number (.finite value) => value ≠ 0
  | .string value => value ≠ ""
  | .array _ => true
  | .object _ => true

end Json

end Lib
