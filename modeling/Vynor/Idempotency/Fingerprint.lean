import Vynor.Contracts.Content
import Vynor.Lib.Doubles
import Vynor.Lib.JsOrder

/-!
# The fingerprint of a request

`requestFingerprint` hashes the text of a payload whose objects a replacer has
rebuilt with sorted keys.  The replacer is called with a value before its members
are written and `replaced` is what all its calls make of a value
(`replaced_eq_sortKeys`).  The engine moves names that are array indices to the
front of what the replacer built, but where a name ends up depends on the names
alone.  So two payloads have one text exactly when they are the same up to the
order of keys.
-/

namespace Vynor.Idempotency

open Lib (Units JsValue Double doubleFormat)
open Lib.JsValue (Members SameJson SameMembers Distinct)

variable {ν : Type}

/-! ## The text that is hashed -/

/-- `value ?? default`, for a property that may be missing. -/
def coalesce (value : Option (JsValue ν)) (default : JsValue ν) : JsValue ν :=
  match value with
  | none => default
  | some .null => default
  | some value => value

/-- `Object.fromEntries(Object.entries(value).sort(...))`. -/
def sortMembers (members : Members ν) : Members ν :=
  Lib.Properties.fromEntries (Lib.sortByName members)

/-- `sortKeys`, the replacer. -/
def sortKeys : JsValue ν → JsValue ν
  | .object members => .object (sortMembers members)
  | value => value

/-- The value with every object in it replaced. -/
def replaced (value : JsValue ν) : JsValue ν := value.arranged sortMembers

/-- `{ query: request.query ?? {}, body: request.body ?? null }`. -/
def requestPayload (query body : Option (JsValue ν)) : JsValue ν :=
  .object [(codeUnits "query", coalesce query (.object [])),
    (codeUnits "body", coalesce body .null)]

/-- The text that `requestFingerprint` hashes. -/
def requestText (query body : Option (JsValue Double)) : Units :=
  (replaced (requestPayload query body)).stringify doubleFormat

/-! ## The replacer -/

/-- A value with a function applied to what is directly in it. -/
def mapChildren (f : JsValue ν → JsValue ν) : JsValue ν → JsValue ν
  | .array items => .array (items.map f)
  | .object members => .object (members.map fun m => (m.1, f m.2))
  | value => value

/-- A value is replaced by calling the replacer on it and then on what is in it. -/
theorem replaced_eq_sortKeys (value : JsValue ν) :
    replaced value = mapChildren replaced (sortKeys value) := by
  cases value with
  | null => rfl
  | bool value => rfl
  | number value => rfl
  | string value => rfl
  | array items =>
      rw [replaced, JsValue.arranged, Lib.JsValue.arrangedItems_eq_map]
      rfl
  | object members =>
      rw [replaced, JsValue.arranged, Lib.JsValue.arrangedMembers_eq_map, sortKeys, mapChildren,
        sortMembers, Lib.sortByName_map, Lib.Properties.fromEntries_map]
      rfl

theorem permutes_sortMembers : Lib.JsValue.Permutes (ν := ν) sortMembers := by
  intro members hnames
  have hsorted := Lib.sortByName_perm members
  have hnodup := (hsorted.map Prod.fst).nodup_iff.mpr hnames
  exact (Lib.Properties.fromEntries_perm hnodup).trans hsorted

theorem ignoresOrder_sortMembers : Lib.JsValue.IgnoresOrder (ν := ν) sortMembers := by
  intro members members' hnames hperm
  rw [sortMembers, Lib.sortByName_congr hnames hperm, ← sortMembers]

/-! ## Payloads -/

theorem query_ne_body : codeUnits "query" ≠ codeUnits "body" := by decide

theorem distinct_coalesce {value : Option (JsValue ν)} {default : JsValue ν}
    (hdefault : Distinct default) (h : ∀ v ∈ value, Distinct v) :
    Distinct (coalesce value default) := by
  cases value with
  | none => exact hdefault
  | some value =>
      cases value with
      | null => exact hdefault
      | bool value => exact h _ rfl
      | number value => exact h _ rfl
      | string value => exact h _ rfl
      | array items => exact h _ rfl
      | object members => exact h _ rfl

theorem distinct_requestPayload {query body : Option (JsValue ν)} (hq : ∀ v ∈ query, Distinct v)
    (hb : ∀ v ∈ body, Distinct v) : Distinct (requestPayload query body) := by
  have hempty : Distinct (.object [] : JsValue ν) := .object List.nodup_nil fun m hm => by cases hm
  refine .object ?_ ?_
  · rw [List.map_cons, List.map_cons, List.map_nil, List.nodup_cons, List.mem_singleton]
    exact ⟨query_ne_body, List.nodup_singleton _⟩
  · exact List.forall_mem_cons.mpr ⟨distinct_coalesce hempty hq,
      List.forall_mem_singleton.mpr (distinct_coalesce .null hb)⟩

/-- Two payloads are the same when their queries and their bodies are. -/
theorem sameJson_pair {a b : Units} (hne : a ≠ b) {x y x' y' : JsValue ν} :
    SameJson (.object [(a, x), (b, y)]) (.object [(a, x'), (b, y')])
      ↔ SameJson x x' ∧ SameJson y y' := by
  constructor
  · intro h
    cases h with
    | object h perm =>
        cases h with
        | @cons _ _ x₁ _ _ hx htail =>
            cases htail with
            | @cons _ _ y₁ _ _ hy htail =>
                cases htail
                have hxmem := perm.subset (List.mem_cons_self (a := (a, x₁)))
                have hymem := perm.subset
                  (List.mem_cons_of_mem (a, x₁) (List.mem_cons_self (a := (b, y₁))))
                simp only [List.mem_cons, Prod.mk.injEq, hne, hne.symm, false_and, false_or,
                  or_false, true_and, List.not_mem_nil] at hxmem hymem
                rw [← hxmem, ← hymem]
                exact ⟨hx, hy⟩
  · rintro ⟨hx, hy⟩
    exact .object (.cons hx (.cons hy .nil)) (List.Perm.refl _)

/-- The texts of two requests are equal exactly when their queries and bodies
are the same, with `{}` for a query and `null` for a body that is missing. -/
theorem requestText_eq_iff (query body query' body' : Option (JsValue Double))
    (hq : ∀ v ∈ query, Distinct v) (hb : ∀ v ∈ body, Distinct v)
    (hq' : ∀ v ∈ query', Distinct v) (hb' : ∀ v ∈ body', Distinct v) :
    requestText query body = requestText query' body' ↔
      SameJson (coalesce query (.object [])) (coalesce query' (.object [])) ∧
        SameJson (coalesce body .null) (coalesce body' .null) := by
  have hiff := Lib.JsValue.arranged_eq_iff permutes_sortMembers ignoresOrder_sortMembers
    (distinct_requestPayload hq hb) (distinct_requestPayload hq' hb')
  rw [requestPayload, requestPayload, sameJson_pair query_ne_body] at hiff
  rw [← hiff]
  constructor
  · intro htext
    exact Lib.JsValue.stringify_inj htext
  · intro heq
    exact congrArg (JsValue.stringify doubleFormat) heq

/-- A body with an index among its keys. -/
def exampleBody : JsValue Double :=
  .object [(codeUnits "10", .array []), (codeUnits "name", .bool true)]

/-- The same body with its keys the other way round. -/
def exampleBody' : JsValue Double :=
  .object [(codeUnits "name", .bool true), (codeUnits "10", .array [])]

theorem requestText_exampleBody :
    requestText none (some exampleBody) = requestText none (some exampleBody') := by
  have hnames : codeUnits "10" ≠ codeUnits "name" := by decide
  have harray : Distinct (.array [] : JsValue Double) := .array fun item hitem => by cases hitem
  have hbody : Distinct exampleBody := by
    refine .object ?_ (List.forall_mem_cons.mpr ⟨harray, List.forall_mem_singleton.mpr (.bool _)⟩)
    exact List.nodup_cons.mpr
      ⟨fun hmem => hnames (List.mem_singleton.mp hmem), List.nodup_singleton _⟩
  have hbody' : Distinct exampleBody' := by
    refine .object ?_ (List.forall_mem_cons.mpr ⟨.bool _, List.forall_mem_singleton.mpr harray⟩)
    exact List.nodup_cons.mpr
      ⟨fun hmem => hnames (List.mem_singleton.mp hmem).symm, List.nodup_singleton _⟩
  have hsame : SameJson exampleBody exampleBody' :=
    .object (.cons (.array .nil) (.cons (.bool true) .nil)) (List.Perm.swap _ _ _)
  refine (requestText_eq_iff none (some exampleBody) none (some exampleBody') ?_ ?_ ?_ ?_).mpr
    ⟨.object .nil (List.Perm.refl _), hsame⟩
  · exact fun v hv => by cases hv
  · exact fun v hv => by cases hv; exact hbody
  · exact fun v hv => by cases hv
  · exact fun v hv => by cases hv; exact hbody'

/-- A query that is `null` is read as one that is `{}`. -/
theorem requestText_null_query :
    ¬∀ query body query' body' : JsValue Double, Distinct query → Distinct body →
      Distinct query' → Distinct body' →
        (requestText (some query) (some body) = requestText (some query') (some body') ↔
          SameJson query query' ∧ SameJson body body') := by
  intro h
  have hempty : Distinct (.object [] : JsValue Double) :=
    .object List.nodup_nil fun m hm => by cases hm
  obtain ⟨hnull, _⟩ := (h .null .null (.object []) .null .null .null hempty .null).mp rfl
  cases hnull

end Vynor.Idempotency
