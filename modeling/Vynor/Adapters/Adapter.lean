import Vynor.Contracts.Inbound

/-!
# What the adapters share

The events an adapter splits out of a payload, the account it runs for, and
small pieces of text.  A key is a list of code units, as a cut may halve a
character.
-/

namespace Vynor.Adapters

open Lib (Json)

/-- `ExtractedProviderEvent`. -/
structure ExtractedEvent where
  providerEventKey : CodeUnits
  payload : Record
  routingAccountIdentifier : Option String := none

/-- `AdapterAccount`, with the `emailAddress` of its credentials. -/
structure AdapterAccount where
  accountIdentifier : String
  displayIdentifier : String
  emailAddress : String := ""
deriving DecidableEq, Repr

/-- `ContactProfile`. -/
structure ContactProfile where
  displayName : Option String := none
  username : Option String := none
  avatarUrl : Option String := none
deriving DecidableEq, Repr

/-- The longest key of an event. -/
def MAX_KEY_LENGTH : Nat := 255

/-- `key.slice(0, 255)`. -/
def cutKey (text : String) : CodeUnits := (codeUnits text).take MAX_KEY_LENGTH

/-- `value === text`. -/
def isText (value : Option Json) (text : String) : Bool :=
  match value with
  | some (.string s) => s = text
  | _ => false

/-- A value with `typeof value === 'string'`. -/
def ofString? : Option Json → Option String
  | some (.string value) => some value
  | _ => none

/-- `value === true`. -/
def isTrue : Option Json → Bool
  | some (.bool true) => true
  | _ => false

/-- `value ?? other`. -/
def orNullish (value other : Option Json) : Option Json :=
  match value with
  | none => other
  | some .null => other
  | some value => some value

/-- A string that may be missing, in a template. -/
def shown (text : Option String) : String := text.getD "undefined"

/-- `compact` of a record of strings. -/
def compact (members : List (String × Option String)) : List (String × String) :=
  members.filterMap fun m => m.2.map fun value => (m.1, value)

/-- `parts.filter(Boolean)`. -/
def present (parts : List (Option String)) : List String := parts.filterMap truthy

/-- The characters of the last `n` code units.  One that the cut would halve is
left out. -/
def lastChars (n : Nat) (cs : List Char) : List Char :=
  cs.foldr (fun c kept => if ((c :: kept).flatMap charUnits).length ≤ n then c :: kept else kept) []

/-- `id.slice(-4)`. -/
def lastFour (id : String) : String := String.ofList (lastChars 4 id.toList)

/-- The keys of object literals that map the status of a receipt. -/
def STATUS_MAP : List (String × DeliveryStatus) :=
  [("sent", .sent), ("delivered", .delivered), ("read", .read), ("failed", .failed)]

end Vynor.Adapters
