import Vynor.Contracts.Content
import Vynor.Lib.JsValue
import Mathlib.Data.List.Infix

/-!
# Redaction of logs

`redactObject` replaces what is stored under a sensitive name by a placeholder,
at every depth.  `AgreeOutside` relates two values that are the same but for
what is stored under sensitive names.  Values it relates are redacted to the
same value (`redactObject_congr`), and a value is so related to what it is
redacted to (`agreeOutside_redactObject`).  Both are inductions on the values,
and a second redaction is covered by the two.
-/

namespace Vynor

open Lib (Units JsValue)
open Lib.JsValue (Members IsHeld)

variable {ν : Type}

/-- `REDACTED_PLACEHOLDER`. -/
def redactedPlaceholder : JsValue ν := .string (codeUnits "[REDACTED]")

/-- `SENSITIVE_KEY_NAMES`. -/
def sensitiveKeyNames : List String :=
  ["password", "currentpassword", "newpassword", "passwordconfirmation", "token", "accesstoken",
    "refreshtoken", "idtoken", "secret", "clientsecret", "signingsecret", "webhookverifytoken",
    "supabaseservicerolekey", "authorization", "cookie", "set-cookie", "apikey", "api_key",
    "privatekey", "creditcard", "cardnumber", "cvv", "cvc", "pan", "nationalid", "ssn"]

/-- `SENSITIVE_KEY_NAMES.some((sensitive) => lowerKey.includes(sensitive))`, for
the `toLowerCase` of the runtime. -/
def isSensitive (toLowerCase : Units → Units) (key : Units) : Bool :=
  sensitiveKeyNames.any fun sensitive => codeUnits sensitive <:+: toLowerCase key

/-- `__proto__`. -/
def protoName : Units := codeUnits "__proto__"

/-- `result[key] = value`.  An assignment to `__proto__` makes no property. -/
def assign (result : Members ν) (key : Units) (value : JsValue ν) : Members ν :=
  if key = protoName then result else Lib.Properties.put result key value

mutual

/-- `redactObject`. -/
def redactObject (toLowerCase : Units → Units) : JsValue ν → JsValue ν
  | .array items => .array (redactItems toLowerCase items)
  | .object members => .object (redactMembers toLowerCase [] members)
  | input => input

/-- `input.map((item) => redactObject(item))`. -/
def redactItems (toLowerCase : Units → Units) : List (JsValue ν) → List (JsValue ν)
  | [] => []
  | item :: items => redactObject toLowerCase item :: redactItems toLowerCase items

/-- The loop over the entries of an object. -/
def redactMembers (toLowerCase : Units → Units) (result : Members ν) : Members ν → Members ν
  | [] => result
  | (key, value) :: entries =>
      let redacted :=
        if isSensitive toLowerCase key then redactedPlaceholder
        else if value.isObject then redactObject toLowerCase value
        else value
      redactMembers toLowerCase (assign result key redacted) entries

end

/-! ## Agreement -/

mutual

/-- Two values that are the same but for what is stored under secret names,
which is related by `R`. -/
inductive AgreeOutside (secret : Units → Bool) (R : JsValue ν → JsValue ν → Prop) :
    JsValue ν → JsValue ν → Prop
  | null : AgreeOutside secret R .null .null
  | bool (value : Bool) : AgreeOutside secret R (.bool value) (.bool value)
  | number (value : ν) : AgreeOutside secret R (.number value) (.number value)
  | string (value : Units) : AgreeOutside secret R (.string value) (.string value)
  | array {items items' : List (JsValue ν)} (h : AgreeItems secret R items items') :
      AgreeOutside secret R (.array items) (.array items')
  | object {members members' : List (Units × JsValue ν)}
      (h : AgreeMembers secret R members members') :
      AgreeOutside secret R (.object members) (.object members')

inductive AgreeItems (secret : Units → Bool) (R : JsValue ν → JsValue ν → Prop) :
    List (JsValue ν) → List (JsValue ν) → Prop
  | nil : AgreeItems secret R [] []
  | cons {item item' : JsValue ν} {rest rest' : List (JsValue ν)}
      (head : AgreeOutside secret R item item') (tail : AgreeItems secret R rest rest') :
      AgreeItems secret R (item :: rest) (item' :: rest')

inductive AgreeMembers (secret : Units → Bool) (R : JsValue ν → JsValue ν → Prop) :
    List (Units × JsValue ν) → List (Units × JsValue ν) → Prop
  | nil : AgreeMembers secret R [] []
  | secret {key : Units} {value value' : JsValue ν} {rest rest' : List (Units × JsValue ν)}
      (hkey : secret key = true) (head : R value value') (tail : AgreeMembers secret R rest rest') :
      AgreeMembers secret R ((key, value) :: rest) ((key, value') :: rest')
  | plain {key : Units} {value value' : JsValue ν} {rest rest' : List (Units × JsValue ν)}
      (hkey : secret key = false) (head : AgreeOutside secret R value value')
      (tail : AgreeMembers secret R rest rest') :
      AgreeMembers secret R ((key, value) :: rest) ((key, value') :: rest')

end

variable {toLowerCase : Units → Units} {R : JsValue ν → JsValue ν → Prop}

/-! ## The same redaction -/

theorem redactObject_of_not_isObject {value : JsValue ν} (h : value.isObject = false) :
    redactObject toLowerCase value = value := by
  cases value with
  | array items => cases h
  | object members => cases h
  | null => rfl
  | bool value => rfl
  | number value => rfl
  | string value => rfl

/-- What is stored for an entry. -/
theorem redactMembers_cons (result : Members ν) (key : Units) (value : JsValue ν)
    (entries : Members ν) :
    redactMembers toLowerCase result ((key, value) :: entries) =
      redactMembers toLowerCase (assign result key
        (if isSensitive toLowerCase key then redactedPlaceholder
          else redactObject toLowerCase value)) entries := by
  rw [redactMembers]
  cases hobject : value.isObject with
  | true => rfl
  | false => rw [redactObject_of_not_isObject hobject, if_neg Bool.false_ne_true]

mutual

/-- Values that agree but for secrets are redacted to the same value. -/
theorem redactObject_congr {value value' : JsValue ν}
    (h : AgreeOutside (isSensitive toLowerCase) R value value') :
    redactObject toLowerCase value = redactObject toLowerCase value' := by
  cases h with
  | null => rfl
  | bool value => rfl
  | number value => rfl
  | string value => rfl
  | array h => rw [redactObject, redactObject, redactItems_congr h]
  | object h => rw [redactObject, redactObject, redactMembers_congr h]

theorem redactItems_congr {items items' : List (JsValue ν)}
    (h : AgreeItems (isSensitive toLowerCase) R items items') :
    redactItems toLowerCase items = redactItems toLowerCase items' := by
  cases h with
  | nil => rfl
  | cons head tail =>
      rw [redactItems, redactItems, redactObject_congr head, redactItems_congr tail]

theorem redactMembers_congr {members members' result : Members ν}
    (h : AgreeMembers (isSensitive toLowerCase) R members members') :
    redactMembers toLowerCase result members = redactMembers toLowerCase result members' := by
  cases h with
  | nil => rfl
  | secret hkey head tail =>
      rw [redactMembers_cons, redactMembers_cons, hkey, if_pos rfl, if_pos rfl]
      exact redactMembers_congr tail
  | plain hkey head tail =>
      rw [redactMembers_cons, redactMembers_cons, redactObject_congr head]
      exact redactMembers_congr tail

end

/-! ## Nothing else is lost -/

/-- An entry of a redacted object. -/
def redactEntry (toLowerCase : Units → Units) (m : Units × JsValue ν) : Units × JsValue ν :=
  (m.1,
    if isSensitive toLowerCase m.1 then redactedPlaceholder else redactObject toLowerCase m.2)

theorem redactMembers_eq_foldl {members : Members ν} (h : ∀ m ∈ members, m.1 ≠ protoName)
    (result : Members ν) :
    redactMembers toLowerCase result members =
      (members.map (redactEntry toLowerCase)).foldl
        (fun properties p => Lib.Properties.put properties p.1 p.2) result := by
  induction members generalizing result with
  | nil => rfl
  | cons m rest ih =>
      obtain ⟨hname, hrest⟩ := List.forall_mem_cons.mp h
      rw [redactMembers_cons, assign, if_neg hname, ih hrest, List.map_cons, List.foldl_cons]
      rfl

/-- The members keep their names and their order. -/
theorem redactMembers_eq_map {members : Members ν} (own : Lib.Properties.Own members)
    (h : ∀ m ∈ members, m.1 ≠ protoName) :
    redactMembers toLowerCase [] members = members.map (redactEntry toLowerCase) := by
  rw [redactMembers_eq_foldl h]
  exact Lib.Properties.fromEntries_own (own.congr (by rw [List.map_map]; rfl))

theorem agreeMembers_map {members : Members ν}
    (h : ∀ m ∈ members, AgreeOutside (isSensitive toLowerCase)
      (fun _ new => new = redactedPlaceholder) m.2 (redactObject toLowerCase m.2)) :
    AgreeMembers (isSensitive toLowerCase) (fun _ new => new = redactedPlaceholder) members
      (members.map (redactEntry toLowerCase)) := by
  induction members with
  | nil => exact .nil
  | cons m rest ih =>
      obtain ⟨hvalue, hrest⟩ := List.forall_mem_cons.mp h
      rw [List.map_cons, redactEntry]
      cases hkey : isSensitive toLowerCase m.1 with
      | true => exact .secret hkey rfl (ih hrest)
      | false => exact .plain hkey hvalue (ih hrest)

theorem agreeItems_redactItems {items : List (JsValue ν)}
    (h : ∀ item ∈ items, AgreeOutside (isSensitive toLowerCase)
      (fun _ new => new = redactedPlaceholder) item (redactObject toLowerCase item)) :
    AgreeItems (isSensitive toLowerCase) (fun _ new => new = redactedPlaceholder) items
      (redactItems toLowerCase items) := by
  induction items with
  | nil => exact .nil
  | cons item rest ih =>
      obtain ⟨hitem, hrest⟩ := List.forall_mem_cons.mp h
      exact .cons hitem (ih hrest)

/-- A redacted value is the value but for what is stored under sensitive names. -/
theorem agreeOutside_redactObject {value : JsValue ν} (held : IsHeld value)
    (hproto : value.NamesSatisfy (· ≠ protoName)) :
    AgreeOutside (isSensitive toLowerCase) (fun _ new => new = redactedPlaceholder) value
      (redactObject toLowerCase value) := by
  induction value using JsValue.induct with
  | null => exact .null
  | bool value => exact .bool value
  | number value => exact .number value
  | string value => exact .string value
  | array items ih =>
      cases held with
      | array held =>
          cases hproto with
          | array hproto =>
              rw [redactObject]
              exact .array (agreeItems_redactItems fun item h =>
                ih item h (held item h) (hproto item h))
  | object members ih =>
      cases held with
      | object own held =>
          cases hproto with
          | object hname hproto =>
              rw [redactObject, redactMembers_eq_map own hname]
              exact .object (agreeMembers_map fun m h => ih m h (held m h) (hproto m h))

/-! ## Redaction as a whole -/

/-- What is stored under sensitive names does not show in a redacted value,
everything else stays, and redacting twice is redacting once. -/
theorem redactObject_hides_only_secrets (toLowerCase : Units → Units) :
    (∀ value value' : JsValue ν,
      AgreeOutside (isSensitive toLowerCase) (fun _ _ => True) value value' →
        redactObject toLowerCase value = redactObject toLowerCase value') ∧
    ∀ value : JsValue ν, IsHeld value → value.NamesSatisfy (· ≠ protoName) →
      AgreeOutside (isSensitive toLowerCase) (fun _ new => new = redactedPlaceholder) value
        (redactObject toLowerCase value) ∧
      redactObject toLowerCase (redactObject toLowerCase value)
        = redactObject toLowerCase value := by
  refine ⟨fun value value' h => redactObject_congr h, fun value held hproto => ?_⟩
  have hagree : AgreeOutside (isSensitive toLowerCase) (fun _ new => new = redactedPlaceholder)
      value (redactObject toLowerCase value) := agreeOutside_redactObject held hproto
  exact ⟨hagree, (redactObject_congr hagree).symm⟩

/-- `toLowerCase` where there are only letters of ASCII. -/
def lowerAscii (key : Units) : Units := key.map fun u => if 65 ≤ u && u ≤ 90 then u + 32 else u

/-- A log entry with a token in a list. -/
def exampleEntry (token : String) : JsValue Nat :=
  .object [(codeUnits "calls", .array [.object
    [(codeUnits "accessToken", .string (codeUnits token)), (codeUnits "status", .number 200)]])]

theorem isHeld_exampleEntry (token : String) : IsHeld (exampleEntry token) := by
  have hinner : Lib.Properties.Own [(codeUnits "accessToken", JsValue.string (codeUnits token)),
      (codeUnits "status", .number 200)] := by
    refine ⟨?_, ?_⟩
    · simp only [List.map_cons, List.map_nil]
      decide
    · rw [List.pairwise_pair]
      change Lib.before (codeUnits "status") (codeUnits "accessToken") = false
      decide
  refine .object ⟨List.nodup_singleton _, List.pairwise_singleton _ _⟩ ?_
  refine List.forall_mem_singleton.mpr (.array (List.forall_mem_singleton.mpr (.object hinner ?_)))
  exact List.forall_mem_cons.mpr ⟨.string _, List.forall_mem_singleton.mpr (.number _)⟩

theorem redactObject_exampleEntry :
    redactObject lowerAscii (exampleEntry "one") = redactObject lowerAscii (exampleEntry "two") ∧
      redactObject lowerAscii (redactObject lowerAscii (exampleEntry "one"))
        = redactObject lowerAscii (exampleEntry "one") := by
  have hcalls : isSensitive lowerAscii (codeUnits "calls") = false := by decide
  have htoken : isSensitive lowerAscii (codeUnits "accessToken") = true := by decide
  have hstatus : isSensitive lowerAscii (codeUnits "status") = false := by decide
  have hagree : AgreeOutside (isSensitive lowerAscii) (fun _ _ => True) (exampleEntry "one")
      (exampleEntry "two") :=
    .object (.plain hcalls (.array (.cons (.object (.secret htoken trivial
      (.plain hstatus (.number 200) .nil))) .nil)) .nil)
  have hproto : (exampleEntry "one").NamesSatisfy (· ≠ protoName) := by
    have hnames : codeUnits "calls" ≠ protoName ∧ codeUnits "accessToken" ≠ protoName ∧
        codeUnits "status" ≠ protoName := by decide
    refine .object (List.forall_mem_singleton.mpr hnames.1) (List.forall_mem_singleton.mpr
      (.array (List.forall_mem_singleton.mpr (.object ?_ ?_))))
    · exact List.forall_mem_cons.mpr ⟨hnames.2.1, List.forall_mem_singleton.mpr hnames.2.2⟩
    · exact List.forall_mem_cons.mpr ⟨.string _, List.forall_mem_singleton.mpr (.number _)⟩
  exact ⟨(redactObject_hides_only_secrets lowerAscii).1 _ _ hagree,
    ((redactObject_hides_only_secrets lowerAscii).2 _ (isHeld_exampleEntry "one") hproto).2⟩

end Vynor
