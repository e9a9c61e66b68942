import Vynor.Contracts.Content
import Vynor.Lib.Number

/-!
# Untyped payloads

The defensive readers of provider payloads.  A property of a payload may hold
any JSON value or be missing, and the readers say what it counts as.

Three things a payload is put through can throw: a date out of range, and the
conversion of an object to text or to a number, where it has a `toString` of its
own.
-/

namespace Vynor.Adapters

open Lib (Json Number numberText)

/-- What the runtime throws. -/
inductive Thrown where
  | invalidDate
  | notPrimitive
deriving DecidableEq, Repr

/-- `Record<string, unknown>`. -/
abbrev Record := Json.Members

/-- `record[name]`. -/
abbrev prop (record : Record) (name : String) : Option Json := Json.Members.get? record name

/-- Whether a condition takes a value as true that may be missing. -/
def isTruthy (value : Option Json) : Bool := value.any Json.truthy

def asRecord : Option Json → Record
  | some (.object members) => members
  | _ => []

def asArray : Option Json → List Json
  | some (.array items) => items
  | _ => []

/-- `Number(text)`. -/
def toNumber (text : String) : Number := .ofLiteral (trimChars text.toList)

def asString : Option Json → Option String
  | some (.string value) => some value
  | some (.number (.finite value)) => some (numberText value)
  | _ => none

def asNumber : Option Json → Option Rat
  | some (.string value) =>
      match toNumber value with
      | .finite numeric => some numeric
      | _ => none
  | some (.number (.finite value)) => some value
  | _ => none

/-- A text that may be missing counts as empty. -/
theorem getD_eq_empty_iff {s : Option String} : s.getD "" = "" ↔ truthy s = none := by
  cases s with
  | none => simp [truthy]
  | some s => simp [truthy, Option.filter]

/-- A text that is not the default is the one that was there. -/
theorem getD_eq_iff {s : Option String} {a b : String} (h : a ≠ b) : s.getD a = b ↔ s = some b := by
  cases s with
  | none => simp [h]
  | some s => simp

/-! ## Conversions that throw -/

mutual

/-- `String(value)`.  An object with its own `toString` has no text. -/
def text? : Json → Option String
  | .null => some "null"
  | .bool true => some "true"
  | .bool false => some "false"
  | .number .nan => some "NaN"
  | .number (.infinite negative) => some (if negative then "-Infinity" else "Infinity")
  | .number (.finite value) => some (numberText value)
  | .string value => some value
  | .array items => (texts? items).map fun texts => ",".intercalate texts
  | .object members =>
      if (Json.Members.get? members "toString").isSome then none else some "[object Object]"

/-- The items that `join` puts together.  Nothing stands for `null`. -/
def texts? : List Json → Option (List String)
  | [] => some []
  | .null :: items => (texts? items).map fun texts => "" :: texts
  | item :: items => (text? item).bind fun text => (texts? items).map fun texts => text :: texts

end

/-- `String(value)` of a property. -/
def stringOf : Option Json → Except Thrown String
  | none => .ok "undefined"
  | some value => (text? value).elim (.error .notPrimitive) .ok

/-- `Number(value)`. -/
def numberOf : Json → Except Thrown Number
  | .null => .ok (.finite 0)
  | .bool value => .ok (.finite (if value then 1 else 0))
  | .number value => .ok value
  | .string value => .ok (toNumber value)
  | .array items => ((texts? items).map fun texts => toNumber (",".intercalate texts)).elim
      (.error .notPrimitive) .ok
  | .object members =>
      if (Json.Members.get? members "toString").isSome then .error .notPrimitive else .ok .nan

/-! ## Moments -/

/-- The last moment a `Date` can hold. -/
def MAX_TIME : Rat := 8640000000000000

/-- The moment of `new Date(value).toISOString()`. -/
def dateOf : Number → Except Thrown Date
  | .finite value =>
      if |value| ≤ MAX_TIME then .ok (value.num.tdiv value.den) else .error .invalidDate
  | _ => .error .invalidDate

inductive TimeUnit where
  | seconds
  | milliseconds
deriving DecidableEq, Repr

/-- A number of seconds or milliseconds in milliseconds. -/
def TimeUnit.toMs (numeric : Rat) : TimeUnit → Number
  | .seconds => .round (numeric * 1000)
  | .milliseconds => .finite numeric

/-- `toIsoTimestamp`, which gives the time at hand where there is no number. -/
def toIsoTimestamp (value : Option Json) (unit : TimeUnit) (now : Date) : Except Thrown Date :=
  match asNumber value with
  | none => .ok now
  | some numeric => dateOf (unit.toMs numeric)

/-! ## Object literals -/

/-- What an object literal has under a name: a value of its own, or one that
every object inherits. -/
inductive Looked (α : Type) where
  | own (value : α)
  | inherited
deriving DecidableEq, Repr

/-- The properties of `Object.prototype`. -/
def INHERITED : List String :=
  ["constructor", "__defineGetter__", "__defineSetter__", "hasOwnProperty", "__lookupGetter__",
    "__lookupSetter__", "isPrototypeOf", "propertyIsEnumerable", "toString", "valueOf",
    "__proto__", "toLocaleString"]

/-- `literal[name]`. -/
def lookup {α : Type} (literal : List (String × α)) (name : String) : Option (Looked α) :=
  match literal.find? fun entry => entry.1 = name with
  | some entry => some (.own entry.2)
  | none => if name ∈ INHERITED then some .inherited else none

def Looked.isOwn {α : Type} : Looked α → Bool
  | .own _ => true
  | .inherited => false

/-- A property of the value.  The inherited values do not have it. -/
def Looked.map {α β : Type} (f : α → β) : Looked α → Looked β
  | .own value => .own (f value)
  | .inherited => .inherited

section Lookup

variable {α : Type} {literal : List (String × α)} {name : String}

/-- A name of the literal gives a value of its own. -/
theorem lookup_own (h : name ∈ literal.map Prod.fst) :
    ∃ value, lookup literal name = some (.own value) := by
  obtain ⟨entry, hentry, hname⟩ := List.mem_map.mp h
  cases hfind : literal.find? fun entry => entry.1 = name with
  | none => exact absurd (decide_eq_true hname) (List.find?_eq_none.mp hfind entry hentry)
  | some found => exact ⟨found.2, by rw [lookup, hfind]⟩

/-- Any other name gives what every object has, if anything. -/
theorem lookup_of_not_mem (h : name ∉ literal.map Prod.fst) :
    lookup literal name = if name ∈ INHERITED then some .inherited else none := by
  have hfind : (literal.find? fun entry => entry.1 = name) = none :=
    List.find?_eq_none.mpr fun entry hentry hname =>
      h (List.mem_map.mpr ⟨entry, hentry, of_decide_eq_true hname⟩)
  rw [lookup, hfind]

end Lookup

end Vynor.Adapters
