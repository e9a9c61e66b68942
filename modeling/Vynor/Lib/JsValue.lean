import Vynor.Lib.Properties

/-!
# JSON values of the runtime

A JSON value with strings of code units, over any type of numbers.  The members
of an object are listed in the order they are enumerated.  `induct` is induction
on values, with the hypothesis for every item and every member.
-/

namespace Lib

/-- A JSON value. -/
inductive JsValue (ν : Type) where
  | null
  | bool (value : Bool)
  | number (value : ν)
  | string (value : Units)
  | array (items : List (JsValue ν))
  | object (members : List (Units × JsValue ν))

namespace JsValue

variable {ν : Type}

/-- The members of an object. -/
abbrev Members (ν : Type) := List (Units × JsValue ν)

/-- `typeof value === 'object' && value !== null`. -/
def isObject : JsValue ν → Bool
  | .array _ => true
  | .object _ => true
  | _ => false

section

variable {P : JsValue ν → Prop} (null : P .null) (bool : ∀ value, P (.bool value))
  (number : ∀ value, P (.number value)) (string : ∀ value, P (.string value))
  (array : ∀ items, (∀ item ∈ items, P item) → P (.array items))
  (object : ∀ members : Members ν, (∀ m ∈ members, P m.2) → P (.object members))

include null bool number string array object

set_option linter.unusedSectionVars false in
mutual

theorem induct : ∀ value, P value
  | .null => null
  | .bool value => bool value
  | .number value => number value
  | .string value => string value
  | .array items => array items (inductItems items)
  | .object members => object members (inductMembers members)

theorem inductItems : ∀ items : List (JsValue ν), ∀ item ∈ items, P item
  | [] => nofun
  | item :: rest => List.forall_mem_cons.mpr ⟨induct item, inductItems rest⟩

theorem inductMembers : ∀ members : List (Units × JsValue ν), ∀ m ∈ members, P m.2
  | [] => nofun
  | (_, value) :: rest => List.forall_mem_cons.mpr ⟨induct value, inductMembers rest⟩

end

end

mutual

/-- The value with the members of every object in it arranged by a function. -/
def arranged (arrange : Members ν → Members ν) : JsValue ν → JsValue ν
  | .array items => .array (arrangedItems arrange items)
  | .object members => .object (arrange (arrangedMembers arrange members))
  | value => value

def arrangedItems (arrange : Members ν → Members ν) : List (JsValue ν) → List (JsValue ν)
  | [] => []
  | item :: items => arranged arrange item :: arrangedItems arrange items

def arrangedMembers (arrange : Members ν → Members ν) :
    List (Units × JsValue ν) → List (Units × JsValue ν)
  | [] => []
  | (name, value) :: members =>
      (name, arranged arrange value) :: arrangedMembers arrange members

end

theorem arrangedItems_eq_map (arrange : Members ν → Members ν) (items : List (JsValue ν)) :
    arrangedItems arrange items = items.map (arranged arrange) := by
  induction items with
  | nil => rfl
  | cons item items ih => rw [arrangedItems, ih, List.map_cons]

theorem arrangedMembers_eq_map (arrange : Members ν → Members ν) (members : Members ν) :
    arrangedMembers arrange members = members.map fun m => (m.1, arranged arrange m.2) := by
  induction members with
  | nil => rfl
  | cons m members ih => rw [arrangedMembers, ih, List.map_cons]

/-- A value that the runtime can hold: the members of every object in it are
those of an object. -/
inductive IsHeld : JsValue ν → Prop
  | null : IsHeld .null
  | bool (value : Bool) : IsHeld (.bool value)
  | number (value : ν) : IsHeld (.number value)
  | string (value : Units) : IsHeld (.string value)
  | array {items : List (JsValue ν)} (h : ∀ item ∈ items, IsHeld item) : IsHeld (.array items)
  | object {members : Members ν} (own : Properties.Own members)
      (h : ∀ m ∈ members, IsHeld m.2) : IsHeld (.object members)

/-- Every name in the value, at any depth, has the property. -/
inductive NamesSatisfy (P : Units → Prop) : JsValue ν → Prop
  | null : NamesSatisfy P .null
  | bool (value : Bool) : NamesSatisfy P (.bool value)
  | number (value : ν) : NamesSatisfy P (.number value)
  | string (value : Units) : NamesSatisfy P (.string value)
  | array {items : List (JsValue ν)} (h : ∀ item ∈ items, NamesSatisfy P item) :
      NamesSatisfy P (.array items)
  | object {members : Members ν} (name : ∀ m ∈ members, P m.1)
      (h : ∀ m ∈ members, NamesSatisfy P m.2) : NamesSatisfy P (.object members)

end JsValue

end Lib
