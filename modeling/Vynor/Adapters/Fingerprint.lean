import Vynor.Contracts.Content
import Vynor.Lib.Doubles
import Vynor.Lib.JsOrder

/-!
# The fingerprint of an event

`canonicalizePayload` puts the text of a payload together by hand, with sorted
keys and without the members that are `undefined`.  The text is the one that
`JSON.stringify` writes for the payload as JSON with its members sorted
(`canonicalizePayload_eq`), so what is known of those texts holds of it: it is
read back, and payloads with one text are the same up to the order of keys.
-/

namespace Vynor.Adapters

open Lib (Units JsValue NumberFormat Double doubleFormat ascii unit sortByName)
open Lib.JsValue (SameJson Distinct quote)

/-- A payload: JSON in which something may be `undefined`. -/
inductive EventPayload (ν : Type) where
  | undefined
  | null
  | bool (value : Bool)
  | number (value : ν)
  | string (value : Units)
  | array (items : List (EventPayload ν))
  | object (record : List (Units × EventPayload ν))

namespace EventPayload

variable {ν : Type}

/-- `value === undefined`. -/
def isUndefined : EventPayload ν → Bool
  | .undefined => true
  | _ => false

/-! ## The text that is hashed -/

/-- `parts.join(',')`. -/
def joinParts (parts : List Units) : Units := [unit ','].intercalate parts

section

variable (format : NumberFormat ν)

mutual

/-- `canonicalizePayload`. -/
def canonicalizePayload : EventPayload ν → Units
  | .undefined => ascii "null"
  | .null => ascii "null"
  | .bool value => (JsValue.bool value).stringify format
  | .number value => (JsValue.number value).stringify format
  | .string value => (JsValue.string value).stringify format
  | .array items => unit '[' :: (joinParts (canonicalizeItems items) ++ [unit ']'])
  | .object record =>
      -- a member's text is the same whenever it is made, so they are made before they are sorted
      let entries := (sortByName (canonicalizeRecord record)).filterMap fun p =>
        p.2.map fun text => (JsValue.string p.1).stringify format ++ unit ':' :: text
      unit '\x7b' :: (joinParts entries ++ [unit '\x7d'])

def canonicalizeItems : List (EventPayload ν) → List Units
  | [] => []
  | item :: items => canonicalizePayload item :: canonicalizeItems items

/-- The texts of a record's values, of which one that is `undefined` has none. -/
def canonicalizeRecord : List (Units × EventPayload ν) → List (Units × Option Units)
  | [] => []
  | (key, value) :: record =>
      (key, if value.isUndefined then none else some (canonicalizePayload value)) ::
        canonicalizeRecord record

end

/-- The text that `generateEventFingerprint` hashes. -/
def eventText (providerAccountId : Units) (payload : EventPayload ν) : Units :=
  providerAccountId ++ unit ':' :: canonicalizePayload format payload

end

/-! ## Payloads as JSON -/

mutual

/-- The payload as JSON: a member that is `undefined` is absent, and what else is
`undefined` is `null`. -/
def toJson : EventPayload ν → JsValue ν
  | .undefined => .null
  | .null => .null
  | .bool value => .bool value
  | .number value => .number value
  | .string value => .string value
  | .array items => .array (itemsToJson items)
  | .object record => .object (recordToJson record)

def itemsToJson : List (EventPayload ν) → List (JsValue ν)
  | [] => []
  | item :: items => toJson item :: itemsToJson items

def recordToJson : List (Units × EventPayload ν) → List (Units × JsValue ν)
  | [] => []
  | (key, value) :: record =>
      if value.isUndefined then recordToJson record
      else (key, toJson value) :: recordToJson record

end

/-- No record in the payload has a key twice. -/
inductive DistinctKeys : EventPayload ν → Prop
  | undefined : DistinctKeys .undefined
  | null : DistinctKeys .null
  | bool (value : Bool) : DistinctKeys (.bool value)
  | number (value : ν) : DistinctKeys (.number value)
  | string (value : Units) : DistinctKeys (.string value)
  | array {items : List (EventPayload ν)} (h : ∀ item ∈ items, DistinctKeys item) :
      DistinctKeys (.array items)
  | object {record : List (Units × EventPayload ν)} (keys : (record.map Prod.fst).Nodup)
      (h : ∀ p ∈ record, DistinctKeys p.2) : DistinctKeys (.object record)

/-! ## Texts of items and members -/

variable {format : NumberFormat ν}

theorem joinParts_cons (part : Units) (parts : List Units) :
    joinParts (part :: parts) = part ++ parts.flatMap fun p => unit ',' :: p := by
  induction parts generalizing part with
  | nil => rw [joinParts, List.intercalate_singleton, List.flatMap_nil, List.append_nil]
  | cons next parts ih =>
      have hrest := ih next
      rw [joinParts] at hrest ⊢
      rw [List.intercalate_cons_cons, hrest, List.flatMap_cons, List.append_assoc]
      rfl

theorem stringifyItems_false (items : List (JsValue ν)) :
    Lib.JsValue.stringifyItems format false items
      = (items.flatMap fun item => unit ',' :: item.stringify format) ++ [unit ']'] := by
  induction items with
  | nil => rfl
  | cons item items ih =>
      rw [Lib.JsValue.stringifyItems, ih, List.flatMap_cons, List.append_assoc, List.append_assoc]
      rfl

theorem stringifyItems_eq_join (items : List (JsValue ν)) :
    Lib.JsValue.stringifyItems format true items
      = joinParts (items.map (JsValue.stringify format)) ++ [unit ']'] := by
  cases items with
  | nil => rfl
  | cons item items =>
      rw [Lib.JsValue.stringifyItems, stringifyItems_false, List.map_cons, joinParts_cons,
        List.flatMap_map, List.append_assoc, List.append_assoc]
      rfl

/-- The text of a member. -/
def memberText (format : NumberFormat ν) (m : Units × JsValue ν) : Units :=
  quote m.1 ++ unit ':' :: m.2.stringify format

theorem stringifyMembers_false (members : List (Units × JsValue ν)) :
    Lib.JsValue.stringifyMembers format false members
      = (members.flatMap fun m => unit ',' :: memberText format m) ++ [unit '\x7d'] := by
  induction members with
  | nil => rfl
  | cons m members ih =>
      rw [Lib.JsValue.stringifyMembers, ih, List.flatMap_cons, memberText]
      simp [Lib.JsValue.separator]

theorem stringifyMembers_eq_join (members : List (Units × JsValue ν)) :
    Lib.JsValue.stringifyMembers format true members
      = joinParts (members.map (memberText format)) ++ [unit '\x7d'] := by
  cases members with
  | nil => rfl
  | cons m members =>
      rw [Lib.JsValue.stringifyMembers, stringifyMembers_false, List.map_cons, joinParts_cons,
        List.flatMap_map, memberText]
      simp [Lib.JsValue.separator]

/-! ## The canonical text -/

theorem names_canonicalizeRecord (record : List (Units × EventPayload ν)) :
    (canonicalizeRecord format record).map Prod.fst = record.map Prod.fst := by
  induction record with
  | nil => rfl
  | cons p record ih => rw [canonicalizeRecord, List.map_cons, List.map_cons, ih]

/-- Members whose texts are the entries of a record. -/
theorem entries_eq_memberTexts {record : List (Units × EventPayload ν)}
    (h : ∀ p ∈ record, canonicalizePayload format p.2
      = ((toJson p.2).arranged sortByName).stringify format) :
    (canonicalizeRecord format record).filterMap (fun p => p.2.map fun text => (p.1, text))
      = (Lib.JsValue.arrangedMembers sortByName (recordToJson record)).map
          fun m => (m.1, m.2.stringify format) := by
  induction record with
  | nil => rfl
  | cons p record ih =>
      obtain ⟨hp, hrest⟩ := List.forall_mem_cons.mp h
      rw [canonicalizeRecord, recordToJson]
      cases hundefined : p.2.isUndefined with
      | true =>
          rw [if_pos rfl, if_pos rfl, List.filterMap_cons_none rfl]
          exact ih hrest
      | false =>
          rw [if_neg Bool.false_ne_true, if_neg Bool.false_ne_true, Lib.JsValue.arrangedMembers,
            List.map_cons, List.filterMap_cons]
          simp only [Option.map_some, ih hrest, hp]

/-- The entries in their order are the members in theirs. -/
theorem sorted_entries {record : List (Units × EventPayload ν)}
    (keys : (record.map Prod.fst).Nodup)
    (h : ∀ p ∈ record, canonicalizePayload format p.2
      = ((toJson p.2).arranged sortByName).stringify format) :
    ((sortByName (canonicalizeRecord format record)).filterMap fun p =>
        p.2.map fun text => (JsValue.string p.1 : JsValue ν).stringify format ++ unit ':' :: text)
      = (sortByName (Lib.JsValue.arrangedMembers sortByName (recordToJson record))).map
          (memberText format) := by
  have hmap : ∀ entries : List (Units × Option Units),
      (entries.filterMap fun p => p.2.map fun text =>
        (JsValue.string p.1 : JsValue ν).stringify format ++ unit ':' :: text)
      = (entries.filterMap fun p => p.2.map fun text => (p.1, text)).map fun p =>
          quote p.1 ++ unit ':' :: p.2 := by
    intro entries
    rw [List.map_filterMap]
    refine List.filterMap_congr fun p _ => ?_
    rw [Option.map_map]
    rfl
  have hnames : ((canonicalizeRecord format record).map Prod.fst).Nodup := by
    rwa [names_canonicalizeRecord]
  have hfilter : (sortByName (canonicalizeRecord format record)).filterMap (fun p =>
        p.2.map fun text => (p.1, text))
      = sortByName ((canonicalizeRecord format record).filterMap fun p =>
          p.2.map fun text => (p.1, text)) := Lib.sortByName_filterMap id hnames
  rw [hmap, hfilter, entries_eq_memberTexts h, Lib.sortByName_map, List.map_map]
  rfl

mutual

/-- The text is that of the payload as JSON with sorted members. -/
theorem canonicalizePayload_eq : ∀ payload : EventPayload ν, payload.DistinctKeys →
    canonicalizePayload format payload = ((toJson payload).arranged sortByName).stringify format
  | .undefined, _ => rfl
  | .null, _ => rfl
  | .bool _, _ => rfl
  | .number _, _ => rfl
  | .string _, _ => rfl
  | .array items, h => by
      cases h with
      | array h =>
          rw [canonicalizePayload, canonicalizeItems_eq items h, toJson, JsValue.arranged,
            Lib.JsValue.stringify, stringifyItems_eq_join, Lib.JsValue.arrangedItems_eq_map]
  | .object record, h => by
      cases h with
      | object keys h =>
          rw [canonicalizePayload, toJson, JsValue.arranged, Lib.JsValue.stringify,
            stringifyMembers_eq_join, sorted_entries keys (canonicalizeRecord_eq record h)]

theorem canonicalizeItems_eq :
    ∀ items : List (EventPayload ν), (∀ item ∈ items, item.DistinctKeys) →
    canonicalizeItems format items
      = ((itemsToJson items).map (JsValue.arranged sortByName)).map (JsValue.stringify format)
  | [], _ => rfl
  | item :: items, h => by
      obtain ⟨hitem, hrest⟩ := List.forall_mem_cons.mp h
      rw [canonicalizeItems, canonicalizePayload_eq item hitem, canonicalizeItems_eq items hrest]
      rfl

theorem canonicalizeRecord_eq : ∀ record : List (Units × EventPayload ν),
    (∀ p ∈ record, p.2.DistinctKeys) → ∀ p ∈ record, canonicalizePayload format p.2
      = ((toJson p.2).arranged sortByName).stringify format
  | [], _ => nofun
  | (_, value) :: record, h => by
      obtain ⟨hvalue, hrest⟩ := List.forall_mem_cons.mp h
      exact List.forall_mem_cons.mpr
        ⟨canonicalizePayload_eq value hvalue, canonicalizeRecord_eq record hrest⟩

end

/-! ## What the text identifies -/

theorem keys_recordToJson (record : List (Units × EventPayload ν)) :
    ((recordToJson record).map Prod.fst).Sublist (record.map Prod.fst) := by
  induction record with
  | nil => exact List.Sublist.slnil
  | cons p record ih =>
      rw [recordToJson]
      split
      · exact ih.cons p.1
      · exact ih.cons_cons p.1

mutual

theorem distinct_toJson :
    ∀ payload : EventPayload ν, payload.DistinctKeys → Distinct (toJson payload)
  | .undefined, _ => .null
  | .null, _ => .null
  | .bool value, _ => .bool value
  | .number value, _ => .number value
  | .string value, _ => .string value
  | .array items, h => by
      cases h with
      | array h => exact .array (distinct_itemsToJson items h)
  | .object record, h => by
      cases h with
      | object keys h =>
          exact .object (keys.sublist (keys_recordToJson record)) (distinct_recordToJson record h)

theorem distinct_itemsToJson : ∀ items : List (EventPayload ν),
    (∀ item ∈ items, item.DistinctKeys) → ∀ item ∈ itemsToJson items, Distinct item
  | [], _ => nofun
  | item :: items, h => by
      obtain ⟨hitem, hrest⟩ := List.forall_mem_cons.mp h
      exact List.forall_mem_cons.mpr
        ⟨distinct_toJson item hitem, distinct_itemsToJson items hrest⟩

theorem distinct_recordToJson : ∀ record : List (Units × EventPayload ν),
    (∀ p ∈ record, p.2.DistinctKeys) → ∀ m ∈ recordToJson record, Distinct m.2
  | [], _ => nofun
  | (_, value) :: record, h => by
      obtain ⟨hvalue, hrest⟩ := List.forall_mem_cons.mp h
      rw [recordToJson]
      split
      · exact distinct_recordToJson record hrest
      · exact List.forall_mem_cons.mpr
          ⟨distinct_toJson value hvalue, distinct_recordToJson record hrest⟩

end

/-- Payloads have one canonical text exactly when they are the same. -/
theorem canonicalizePayload_eq_iff {payload payload' : EventPayload ν} (h : payload.DistinctKeys)
    (h' : payload'.DistinctKeys) :
    canonicalizePayload format payload = canonicalizePayload format payload' ↔
      SameJson (toJson payload) (toJson payload') := by
  rw [canonicalizePayload_eq payload h, canonicalizePayload_eq payload' h',
    ← Lib.JsValue.sorted_eq_iff (distinct_toJson payload h) (distinct_toJson payload' h')]
  exact ⟨fun htext => Lib.JsValue.stringify_inj htext, fun heq => by rw [heq]⟩

/-- A canonical text is parsed as the payload, up to the order of keys. -/
theorem parse_canonicalizePayload {payload : EventPayload ν} (h : payload.DistinctKeys) :
    ∃ value, Lib.JsValue.parse format (canonicalizePayload format payload) = some value ∧
      SameJson value (toJson payload) := by
  have hdistinct := distinct_toJson payload h
  have hsorted := hdistinct.arranged Lib.JsValue.permutes_sortByName
  have hfrom : Lib.JsValue.Permutes (ν := ν) Lib.Properties.fromEntries :=
    fun _ hnames => Lib.Properties.fromEntries_perm hnames
  have hmade := hsorted.arranged hfrom
  refine ⟨_, by rw [canonicalizePayload_eq payload h, Lib.JsValue.parse_stringify], ?_⟩
  refine SameJson.symm hdistinct hmade (SameJson.trans hdistinct hsorted hmade ?_ ?_)
  · exact Lib.JsValue.sameJson_arranged Lib.JsValue.permutes_sortByName hdistinct
  · exact Lib.JsValue.sameJson_arranged hfrom hsorted

/-- An account without a colon ends at the first one. -/
theorem append_colon_inj {account account' text text' : Units} (h : unit ':' ∉ account)
    (h' : unit ':' ∉ account') :
    account ++ unit ':' :: text = account' ++ unit ':' :: text' ↔
      account = account' ∧ text = text' := by
  constructor
  · intro heq
    induction account generalizing account' with
    | nil =>
        cases account' with
        | nil => exact ⟨rfl, List.cons.inj heq |>.2⟩
        | cons u account' =>
            exact absurd ((List.cons.inj heq).1 ▸ List.mem_cons_self) h'
    | cons u account ih =>
        cases account' with
        | nil => exact absurd ((List.cons.inj heq).1 ▸ List.mem_cons_self) h
        | cons u' account' =>
            obtain ⟨hu, hrest⟩ := List.cons.inj heq
            obtain ⟨haccount, htext⟩ := ih (fun hmem => h (List.mem_cons_of_mem u hmem))
              (fun hmem => h' (List.mem_cons_of_mem u' hmem)) hrest
            exact ⟨by rw [hu, haccount], htext⟩
  · rintro ⟨rfl, rfl⟩
    rfl

/-- The texts that are hashed are equal exactly when the accounts are equal and
the payloads are the same, and the text of a payload is parsed as it. -/
theorem eventText_identifies (account account' : Units) (payload payload' : EventPayload Double)
    (haccount : unit ':' ∉ account) (haccount' : unit ':' ∉ account') (h : payload.DistinctKeys)
    (h' : payload'.DistinctKeys) :
    (eventText doubleFormat account payload = eventText doubleFormat account' payload' ↔
      account = account' ∧ SameJson (toJson payload) (toJson payload')) ∧
    ∃ value, Lib.JsValue.parse doubleFormat (canonicalizePayload doubleFormat payload)
        = some value ∧ SameJson value (toJson payload) := by
  refine ⟨?_, parse_canonicalizePayload h⟩
  rw [eventText, eventText, append_colon_inj haccount haccount', canonicalizePayload_eq_iff h h']

/-- An update with a member that is `undefined`. -/
def exampleUpdate : EventPayload Double :=
  .object [(codeUnits "reply", .undefined), (codeUnits "10", .array [.null])]

/-- The update without the member. -/
def exampleUpdate' : EventPayload Double := .object [(codeUnits "10", .array [.null])]

theorem eventText_exampleUpdate :
    eventText doubleFormat (codeUnits "bot1") exampleUpdate
      = eventText doubleFormat (codeUnits "bot1") exampleUpdate' := by
  have hcolon : unit ':' ∉ codeUnits "bot1" := by decide
  have hnames : codeUnits "reply" ≠ codeUnits "10" := by decide
  have harray : (.array [.null] : EventPayload Double).DistinctKeys :=
    .array (List.forall_mem_singleton.mpr .null)
  have hupdate : exampleUpdate.DistinctKeys := by
    refine .object ?_ (List.forall_mem_cons.mpr ⟨.undefined, List.forall_mem_singleton.mpr harray⟩)
    exact List.nodup_cons.mpr
      ⟨fun hmem => hnames (List.mem_singleton.mp hmem), List.nodup_singleton _⟩
  have hupdate' : exampleUpdate'.DistinctKeys :=
    .object (List.nodup_singleton _) (List.forall_mem_singleton.mpr harray)
  have hsame : SameJson (toJson exampleUpdate) (toJson exampleUpdate') :=
    .object (.cons (.array (.cons .null .nil)) .nil) (List.Perm.refl _)
  exact (eventText_identifies _ _ _ _ hcolon hcolon hupdate hupdate').1.mpr ⟨rfl, hsame⟩

end EventPayload

end Vynor.Adapters
