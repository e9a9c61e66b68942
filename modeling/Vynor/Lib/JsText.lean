import Vynor.Lib.JsValue

/-!
# Texts of JSON values

`stringify` writes a value as a text of code units and `parse` reads one, over
any format of numbers that reads what it writes.  A surrogate that is alone in a
string is escaped.  `read` keeps the members of an object as the text has them,
and reads the text of every value as that value (`readText_stringify`), so
different values have different texts (`stringify_inj`).  `parse` makes the
objects of what was read.

The reader takes fuel, one unit for each step into a text, and a text's length
is enough.
-/

namespace Lib

/-- The code unit of a character of ASCII. -/
abbrev unit (c : Char) : UInt16 := UInt16.ofNat c.toNat

/-- A text of ASCII. -/
def ascii (text : String) : Units := text.toList.map unit

/-- The units of numbers. -/
def isNumberUnit (u : UInt16) : Bool :=
  (unit '0' ≤ u && u ≤ unit '9') || u ∈ [unit '-', unit '+', unit '.', unit 'e', unit 'E']

/-- How numbers are written, and how a token of their units is read. -/
structure NumberFormat (ν : Type) where
  /-- The text of a number. -/
  text : ν → Units
  /-- The number of a text, or `none` where it is no literal. -/
  read : Units → Option ν
  /-- The text of a number is not empty. -/
  text_ne_nil : ∀ value, text value ≠ []
  /-- It has the units of numbers only. -/
  text_units : ∀ value, ∀ u ∈ text value, isNumberUnit u = true
  /-- A number is read back from its text. -/
  read_text : ∀ value, read (text value) = some value

namespace JsValue

variable {ν : Type}

/-! ## Writing -/

def isLead (u : UInt16) : Bool := 0xd800 ≤ u && u < 0xdc00

def isTrail (u : UInt16) : Bool := 0xdc00 ≤ u && u < 0xe000

/-- The digit of a number below 16. -/
def hexUnit (n : Nat) : UInt16 := unit (Nat.digitChar n)

/-- `\u` and four digits. -/
def unicodeEscape (u : UInt16) : Units :=
  [unit '\\', unit 'u', hexUnit (u.toNat / 4096), hexUnit (u.toNat / 256 % 16),
    hexUnit (u.toNat / 16 % 16), hexUnit (u.toNat % 16)]

/-- A unit of a string that is not half of a pair. -/
def escapeUnit (u : UInt16) : Units :=
  if u = unit '"' then [unit '\\', unit '"']
  else if u = unit '\\' then [unit '\\', unit '\\']
  else if u = 8 then [unit '\\', unit 'b']
  else if u = 9 then [unit '\\', unit 't']
  else if u = 10 then [unit '\\', unit 'n']
  else if u = 12 then [unit '\\', unit 'f']
  else if u = 13 then [unit '\\', unit 'r']
  else if u < 32 || isLead u || isTrail u then unicodeEscape u
  else [u]

/-- The units of a string, of which a pair of surrogates stays as it is. -/
def escape : Units → Units
  | [] => []
  | [u] => escapeUnit u
  | u :: v :: rest =>
      if isLead u && isTrail v then u :: v :: escape rest else escapeUnit u ++ escape (v :: rest)

/-- A string with its quotes. -/
def quote (s : Units) : Units := unit '"' :: (escape s ++ [unit '"'])

/-- The comma before every item but the first one. -/
def separator (first : Bool) : Units := if first then [] else [unit ',']

section

variable (format : NumberFormat ν)

mutual

/-- `JSON.stringify`. -/
def stringify : JsValue ν → Units
  | .null => ascii "null"
  | .bool value => if value then ascii "true" else ascii "false"
  | .number value => format.text value
  | .string value => quote value
  | .array items => unit '[' :: stringifyItems true items
  | .object members => unit '\x7b' :: stringifyMembers true members

/-- The items of an array, up to the closing bracket. -/
def stringifyItems (first : Bool) : List (JsValue ν) → Units
  | [] => [unit ']']
  | item :: items => separator first ++ stringify item ++ stringifyItems false items

/-- The members of an object, up to the closing bracket. -/
def stringifyMembers (first : Bool) : List (Units × JsValue ν) → Units
  | [] => [unit '\x7d']
  | (name, value) :: members =>
      separator first ++ quote name ++ unit ':' :: stringify value ++ stringifyMembers false members

end

end

/-! ## Reading -/

/-- The space that may stand between tokens. -/
def isJsonSpace (u : UInt16) : Bool := u ∈ [9, 10, 13, 32]

def skipSpace (text : Units) : Units := text.dropWhile isJsonSpace

/-- The value of a hexadecimal digit. -/
def hexValue? (u : UInt16) : Option Nat :=
  if unit '0' ≤ u ∧ u ≤ unit '9' then some (u.toNat - 48)
  else if unit 'a' ≤ u ∧ u ≤ unit 'f' then some (u.toNat - 87)
  else if unit 'A' ≤ u ∧ u ≤ unit 'F' then some (u.toNat - 55)
  else none

/-- Four digits of a unit, and what follows. -/
def readHex : Units → Option (UInt16 × Units)
  | a :: b :: c :: d :: rest => do
      let a ← hexValue? a
      let b ← hexValue? b
      let c ← hexValue? c
      let d ← hexValue? d
      some (UInt16.ofNat (16 * (16 * (16 * a + b) + c) + d), rest)
  | _ => none

/-- The unit that a letter after a backslash stands for. -/
def unescape (u : UInt16) : Option UInt16 :=
  if u = unit '"' || u = unit '\\' || u = unit '/' then some u
  else if u = unit 'b' then some 8
  else if u = unit 't' then some 9
  else if u = unit 'n' then some 10
  else if u = unit 'f' then some 12
  else if u = unit 'r' then some 13
  else none

/-- One unit of a string, and what follows. -/
def readUnit : Units → Option (UInt16 × Units)
  | [] => none
  | u :: rest =>
      if u = unit '\\' then
        match rest with
        | [] => none
        | e :: rest => if e = unit 'u' then readHex rest else (unescape e).map fun u => (u, rest)
      else if u < 32 then none
      else some (u, rest)

/-- A string after its opening quote, and what follows the closing one. -/
def readString : Nat → Units → Option (Units × Units)
  | 0, _ => none
  | fuel + 1, text =>
      if text.head? = some (unit '"') then some ([], text.tail)
      else
        (readUnit text).bind fun (u, rest) =>
          (readString fuel rest).map fun (us, rest) => (u :: us, rest)

/-- What follows a token. -/
def afterUnit (u : UInt16) (text : Units) : Option Units :=
  match skipSpace text with
  | [] => none
  | v :: rest => if v = u then some rest else none

/-- What follows the comma before an item. -/
def afterSeparator (first : Bool) (text : Units) : Option Units :=
  if first then some text else afterUnit (unit ',') text

section

variable (format : NumberFormat ν)

/-- A value that is one token but no string. -/
def readAtom (text : Units) : Option (JsValue ν × Units) :=
  if ascii "null" <+: text then some (.null, text.drop 4)
  else if ascii "true" <+: text then some (.bool true, text.drop 4)
  else if ascii "false" <+: text then some (.bool false, text.drop 5)
  else
    (format.read (text.takeWhile isNumberUnit)).map fun value =>
      (.number value, text.dropWhile isNumberUnit)

mutual

/-- A value, and what follows. -/
def readValue : Nat → Units → Option (JsValue ν × Units)
  | 0, _ => none
  | fuel + 1, text =>
      match skipSpace text with
      | [] => none
      | u :: rest =>
          if u = unit '"' then (readString fuel rest).map fun (s, rest) => (.string s, rest)
          else if u = unit '[' then
            (readItems fuel true rest).map fun (items, rest) => (.array items, rest)
          else if u = unit '\x7b' then
            (readMembers fuel true rest).map fun (members, rest) => (.object members, rest)
          else readAtom format (u :: rest)

/-- The items of an array up to the closing bracket, and what follows. -/
def readItems : Nat → Bool → Units → Option (List (JsValue ν) × Units)
  | 0, _, _ => none
  | fuel + 1, first, text =>
      match afterUnit (unit ']') text with
      | some rest => some ([], rest)
      | none =>
          (afterSeparator first text).bind fun text =>
            (readValue fuel text).bind fun (item, rest) =>
              (readItems fuel false rest).map fun (items, rest) => (item :: items, rest)

/-- The members of an object up to the closing bracket, and what follows. -/
def readMembers : Nat → Bool → Units → Option (List (Units × JsValue ν) × Units)
  | 0, _, _ => none
  | fuel + 1, first, text =>
      match afterUnit (unit '\x7d') text with
      | some rest => some ([], rest)
      | none =>
          (afterSeparator first text).bind fun text =>
            (afterUnit (unit '"') text).bind fun text =>
              (readString fuel text).bind fun (name, rest) =>
                (afterUnit (unit ':') rest).bind fun rest =>
                  (readValue fuel rest).bind fun (value, rest) =>
                    (readMembers fuel false rest).map fun (members, rest) =>
                      ((name, value) :: members, rest)

end

/-- What a text says, with the members of an object as they are written. -/
def readText (text : Units) : Option (JsValue ν) :=
  (readValue format (text.length + 1) text).bind fun (value, rest) =>
    if skipSpace rest = [] then some value else none

end

/-- The value made of what was read: a name that is written twice has its later
value, and the members get the order of an object. -/
def made (value : JsValue ν) : JsValue ν := value.arranged Properties.fromEntries

/-- `JSON.parse`, or `none` where it throws. -/
def parse (format : NumberFormat ν) (text : Units) : Option (JsValue ν) :=
  (readText format text).map made

/-! ## Strings -/

theorem readHex_hexUnit {a b c d : Nat} (ha : a < 16) (hb : b < 16) (hc : c < 16) (hd : d < 16)
    (rest : Units) :
    readHex (hexUnit a :: hexUnit b :: hexUnit c :: hexUnit d :: rest) =
      some (UInt16.ofNat (16 * (16 * (16 * a + b) + c) + d), rest) := by
  have hdigit : ∀ n < 16, hexValue? (hexUnit n) = some n := by decide
  simp [readHex, hdigit a ha, hdigit b hb, hdigit c hc, hdigit d hd]

theorem readUnit_unicodeEscape (u : UInt16) (rest : Units) :
    readUnit (unicodeEscape u ++ rest) = some (u, rest) := by
  have hlt : u.toNat < 65536 := u.toNat_lt
  have hsum : 16 * (16 * (16 * (u.toNat / 4096) + u.toNat / 256 % 16) + u.toNat / 16 % 16)
      + u.toNat % 16 = u.toNat := by omega
  change readHex (hexUnit _ :: hexUnit _ :: hexUnit _ :: hexUnit _ :: rest) = _
  rw [readHex_hexUnit (by omega) (by omega) (by omega) (by omega), hsum, UInt16.ofNat_toNat]

/-- A unit that needs no escape is read as itself. -/
theorem readUnit_raw {u : UInt16} (hslash : u ≠ unit '\\') (hcontrol : ¬u < 32) (rest : Units) :
    readUnit (u :: rest) = some (u, rest) := by
  simp only [readUnit, if_neg hslash, if_neg hcontrol]

/-- An escaped unit is read as itself. -/
theorem readUnit_escapeUnit (u : UInt16) (rest : Units) :
    readUnit (escapeUnit u ++ rest) = some (u, rest) := by
  unfold escapeUnit
  split
  next h => rw [h]; rfl
  split
  next h => rw [h]; rfl
  split
  next h => rw [h]; rfl
  split
  next h => rw [h]; rfl
  split
  next h => rw [h]; rfl
  split
  next h => rw [h]; rfl
  split
  next h => rw [h]; rfl
  split
  next => exact readUnit_unicodeEscape u rest
  next hslash _ _ _ _ _ hrest =>
    refine readUnit_raw hslash (fun hlt => hrest ?_) rest
    rw [decide_eq_true hlt]
    rfl

/-- A unit stays as it is or becomes an escape. -/
theorem escapeUnit_cases (u : UInt16) :
    escapeUnit u = [u] ∧ u ≠ unit '"' ∨ ∃ us, escapeUnit u = unit '\\' :: us := by
  unfold escapeUnit
  split
  next => exact .inr ⟨_, rfl⟩
  next hquote =>
    split
    next => exact .inr ⟨_, rfl⟩
    split
    next => exact .inr ⟨_, rfl⟩
    split
    next => exact .inr ⟨_, rfl⟩
    split
    next => exact .inr ⟨_, rfl⟩
    split
    next => exact .inr ⟨_, rfl⟩
    split
    next => exact .inr ⟨_, rfl⟩
    split
    next => exact .inr ⟨_, rfl⟩
    next => exact .inl ⟨rfl, hquote⟩

/-- No escaped unit begins with a quote. -/
theorem head?_escapeUnit (u : UInt16) (rest : Units) :
    (escapeUnit u ++ rest).head? ≠ some (unit '"') := by
  rcases escapeUnit_cases u with ⟨h, hquote⟩ | ⟨us, h⟩
  · rw [h]
    exact fun heq => hquote (Option.some.inj heq)
  · rw [h]
    exact fun heq => absurd (Option.some.inj heq) (by decide)

theorem one_le_escapeUnit (u : UInt16) : 1 ≤ (escapeUnit u).length := by
  rcases escapeUnit_cases u with ⟨h, _⟩ | ⟨us, h⟩
  · rw [h]
    exact Nat.le_refl 1
  · rw [h]
    exact Nat.le_add_left 1 us.length

theorem ne_of_isLead {u v : UInt16} (h : isLead u = true) (hv : isLead v = false) : u ≠ v := by
  rintro rfl
  rw [h] at hv
  cases hv

theorem ne_of_isTrail {u v : UInt16} (h : isTrail u = true) (hv : isTrail v = false) : u ≠ v := by
  rintro rfl
  rw [h] at hv
  cases hv

theorem not_control_of_isLead {u : UInt16} (h : isLead u = true) : ¬u < 32 := by
  rw [isLead, Bool.and_eq_true, decide_eq_true_eq, decide_eq_true_eq] at h
  rw [UInt16.lt_iff_toNat_lt]
  have hlow : (0xd800 : UInt16).toNat ≤ u.toNat := h.1
  have hnat : (0xd800 : UInt16).toNat = 0xd800 := rfl
  have hbound : (32 : UInt16).toNat = 32 := rfl
  omega

theorem not_control_of_isTrail {u : UInt16} (h : isTrail u = true) : ¬u < 32 := by
  rw [isTrail, Bool.and_eq_true, decide_eq_true_eq, decide_eq_true_eq] at h
  rw [UInt16.lt_iff_toNat_lt]
  have hlow : (0xdc00 : UInt16).toNat ≤ u.toNat := h.1
  have hnat : (0xdc00 : UInt16).toNat = 0xdc00 := rfl
  have hbound : (32 : UInt16).toNat = 32 := rfl
  omega

/-- One step into a string. -/
theorem readString_step {fuel : Nat} {text rest : Units} {u : UInt16}
    (hhead : text.head? ≠ some (unit '"')) (hread : readUnit text = some (u, rest)) :
    readString (fuel + 1) text = (readString fuel rest).map fun (us, rest) => (u :: us, rest) := by
  rw [readString, if_neg hhead, hread, Option.bind_some]

/-- A quoted string is read as itself. -/
theorem readString_escape {fuel : Nat} (s rest : Units) (h : s.length < fuel) :
    readString fuel (escape s ++ unit '"' :: rest) = some (s, rest) := by
  have hfuel : ∃ more, fuel = more + s.length + 1 := ⟨fuel - s.length - 1, by omega⟩
  obtain ⟨more, rfl⟩ := hfuel
  clear h
  induction s using escape.induct with
  | case1 => rfl
  | case2 u =>
      rw [escape, readString_step (head?_escapeUnit u _) (readUnit_escapeUnit u _)]
      rfl
  | case3 u v s hpair ih =>
      rw [Bool.and_eq_true] at hpair
      have hu := readUnit_raw (ne_of_isLead hpair.1 (v := unit '\\') (by decide))
        (not_control_of_isLead hpair.1) (v :: (escape s ++ unit '"' :: rest))
      have hv := readUnit_raw (ne_of_isTrail hpair.2 (v := unit '\\') (by decide))
        (not_control_of_isTrail hpair.2) (escape s ++ unit '"' :: rest)
      have huhead : (u :: v :: (escape s ++ unit '"' :: rest)).head? ≠ some (unit '"') :=
        fun h => ne_of_isLead hpair.1 (by decide) (Option.some.inj h)
      have hvhead : (v :: (escape s ++ unit '"' :: rest)).head? ≠ some (unit '"') :=
        fun h => ne_of_isTrail hpair.2 (by decide) (Option.some.inj h)
      change readString (more + s.length + 1 + 1 + 1) _ = _
      rw [escape, if_pos (Bool.and_eq_true _ _ ▸ hpair), List.cons_append, List.cons_append,
        readString_step huhead hu, readString_step hvhead hv, ih]
      rfl
  | case4 u v s hpair ih =>
      change readString (more + (v :: s).length + 1 + 1) _ = _
      rw [escape, if_neg hpair, List.append_assoc,
        readString_step (head?_escapeUnit u _) (readUnit_escapeUnit u _), ih]
      rfl

theorem length_le_escape (s : Units) : s.length ≤ (escape s).length := by
  induction s using escape.induct with
  | case1 => exact Nat.le_refl 0
  | case2 u => exact one_le_escapeUnit u
  | case3 u v s hpair ih =>
      rw [escape, if_pos hpair]
      exact Nat.succ_le_succ (Nat.succ_le_succ ih)
  | case4 u v s hpair ih =>
      have hu := one_le_escapeUnit u
      rw [escape, if_neg hpair, List.length_append, List.length_cons]
      omega

theorem readString_quoted {fuel : Nat} (s rest : Units) (h : (quote s).length ≤ fuel + 1) :
    readString fuel (escape s ++ unit '"' :: rest) = some (s, rest) := by
  have hlength := length_le_escape s
  simp only [quote, List.length_cons, List.length_append, List.length_nil] at h
  exact readString_escape _ _ (by omega)

theorem quote_append (s rest : Units) :
    quote s ++ rest = unit '"' :: (escape s ++ unit '"' :: rest) := by
  simp [quote]

/-! ## Tokens -/

/-- What can follow a number: nothing that would make it longer. -/
def EndsNumber (rest : Units) : Prop := ∀ u, rest.head? = some u → isNumberUnit u = false

theorem endsNumber_cons {u : UInt16} {rest : Units} (h : isNumberUnit u = false) :
    EndsNumber (u :: rest) := by
  intro v hv
  cases hv
  exact h

theorem skipSpace_cons {u : UInt16} {rest : Units} (h : isJsonSpace u = false) :
    skipSpace (u :: rest) = u :: rest := by
  rw [skipSpace, List.dropWhile_cons, h]
  rfl

theorem afterUnit_self {u : UInt16} {rest : Units} (h : isJsonSpace u = false) :
    afterUnit u (u :: rest) = some rest := by
  rw [afterUnit, skipSpace_cons h]
  exact if_pos rfl

theorem afterUnit_other {u v : UInt16} {rest : Units} (h : isJsonSpace v = false) (hv : v ≠ u) :
    afterUnit u (v :: rest) = none := by
  rw [afterUnit, skipSpace_cons h]
  exact if_neg hv

/-- The first unit of a value's text. -/
def BeginsValue (u : UInt16) : Prop :=
  isJsonSpace u = false ∧ u ≠ unit ']' ∧ u ≠ unit '\x7d' ∧ u ≠ unit ','

theorem ne_of_isNumberUnit {u v : UInt16} (h : isNumberUnit u = true)
    (hv : isNumberUnit v = false) : u ≠ v := by
  rintro rfl
  rw [h] at hv
  cases hv

theorem beginsValue_of_isNumberUnit {u : UInt16} (h : isNumberUnit u = true) : BeginsValue u := by
  refine ⟨?_, ne_of_isNumberUnit h (by decide), ne_of_isNumberUnit h (by decide),
    ne_of_isNumberUnit h (by decide)⟩
  rw [isJsonSpace, decide_eq_false_iff_not]
  intro hspace
  have hnone : ([9, 10, 13, 32] : Units).all (fun v => !isNumberUnit v) = true := by decide
  have hu := List.all_eq_true.mp hnone u hspace
  rw [Bool.not_eq_true'] at hu
  exact ne_of_isNumberUnit h hu rfl

/-- A literal is no prefix of a text that begins with another unit. -/
theorem not_prefix_of_head {u v : UInt16} {us vs : Units} (h : v ≠ u) : ¬u :: us <+: v :: vs :=
  fun hprefix => h (List.cons_prefix_cons.mp hprefix).1.symm

variable (format : NumberFormat ν)

theorem text_cons (value : ν) :
    ∃ u us, format.text value = u :: us ∧ isNumberUnit u = true := by
  cases htext : format.text value with
  | nil => exact absurd htext (format.text_ne_nil value)
  | cons u us =>
      exact ⟨u, us, rfl, format.text_units value u (htext ▸ List.mem_cons_self)⟩

theorem readAtom_number (value : ν) {rest : Units} (hrest : EndsNumber rest) :
    readAtom format (format.text value ++ rest) = some (.number value, rest) := by
  obtain ⟨u, us, htext, hu⟩ := text_cons format value
  have htake : (format.text value ++ rest).takeWhile isNumberUnit = format.text value := by
    rw [List.takeWhile_append_of_pos (format.text_units value)]
    cases rest with
    | nil => exact List.append_nil _
    | cons v vs => rw [List.takeWhile_cons, hrest v rfl, if_neg Bool.false_ne_true, List.append_nil]
  have hdrop : (format.text value ++ rest).dropWhile isNumberUnit = rest := by
    rw [List.dropWhile_append_of_pos (format.text_units value)]
    cases rest with
    | nil => rfl
    | cons v vs => rw [List.dropWhile_cons, hrest v rfl, if_neg Bool.false_ne_true]
  have hliteral : ∀ v vs, isNumberUnit v = false → ¬v :: vs <+: format.text value ++ rest := by
    intro v vs hv
    rw [htext]
    exact not_prefix_of_head (ne_of_isNumberUnit hu hv)
  have hnull : ¬ascii "null" <+: format.text value ++ rest := hliteral _ _ (by decide)
  have htrue : ¬ascii "true" <+: format.text value ++ rest := hliteral _ _ (by decide)
  have hfalse : ¬ascii "false" <+: format.text value ++ rest := hliteral _ _ (by decide)
  rw [readAtom, if_neg hnull, if_neg htrue, if_neg hfalse, htake, hdrop, format.read_text,
    Option.map_some]

/-! ## Values -/

/-- The text of a value begins as a value does. -/
theorem stringify_cons (value : JsValue ν) :
    ∃ u us, stringify format value = u :: us ∧ BeginsValue u := by
  cases value with
  | null => exact ⟨unit 'n', ascii "ull", rfl, by decide, by decide, by decide, by decide⟩
  | bool value =>
      cases value with
      | true => exact ⟨unit 't', ascii "rue", rfl, by decide, by decide, by decide, by decide⟩
      | false => exact ⟨unit 'f', ascii "alse", rfl, by decide, by decide, by decide, by decide⟩
  | number value =>
      obtain ⟨u, us, htext, hu⟩ := text_cons format value
      exact ⟨u, us, htext, beginsValue_of_isNumberUnit hu⟩
  | string value => exact ⟨unit '"', _, rfl, by decide, by decide, by decide, by decide⟩
  | array items => exact ⟨unit '[', _, rfl, by decide, by decide, by decide, by decide⟩
  | object members => exact ⟨unit '\x7b', _, rfl, by decide, by decide, by decide, by decide⟩

/-- A number in front of more items ends there. -/
theorem endsNumber_stringifyItems (items : List (JsValue ν)) (rest : Units) :
    EndsNumber (stringifyItems format false items ++ rest) := by
  cases items with
  | nil =>
      rw [stringifyItems]
      exact endsNumber_cons (by decide)
  | cons item items =>
      rw [stringifyItems]
      exact endsNumber_cons (u := unit ',') (by decide)

theorem endsNumber_stringifyMembers (members : List (Units × JsValue ν)) (rest : Units) :
    EndsNumber (stringifyMembers format false members ++ rest) := by
  cases members with
  | nil =>
      rw [stringifyMembers]
      exact endsNumber_cons (by decide)
  | cons member members =>
      rw [stringifyMembers]
      exact endsNumber_cons (u := unit ',') (by decide)

/-- The separator of an item is passed, and does not end the list. -/
theorem separator_spec (first : Bool) (close : UInt16) {u : UInt16} (text : Units)
    (hu : BeginsValue u) (hclose : u ≠ close) (hcomma : close ≠ unit ',') :
    afterUnit close (separator first ++ u :: text) = none ∧
      afterSeparator first (separator first ++ u :: text) = some (u :: text) := by
  cases first with
  | true => exact ⟨afterUnit_other hu.1 hclose, rfl⟩
  | false =>
      exact ⟨afterUnit_other (v := unit ',') (by decide) hcomma.symm,
        afterUnit_self (u := unit ',') (by decide)⟩

theorem length_stringifyItems_pos (first : Bool) (items : List (JsValue ν)) :
    0 < (stringifyItems format first items).length := by
  induction items generalizing first with
  | nil =>
      rw [stringifyItems]
      exact Nat.one_pos
  | cons item items ih =>
      rw [stringifyItems, List.length_append]
      exact Nat.add_pos_right _ (ih false)

theorem length_stringifyMembers_pos (first : Bool) (members : List (Units × JsValue ν)) :
    0 < (stringifyMembers format first members).length := by
  induction members generalizing first with
  | nil =>
      rw [stringifyMembers]
      exact Nat.one_pos
  | cons member members ih =>
      rw [stringifyMembers, List.length_append]
      exact Nat.add_pos_right _ (ih false)

mutual

/-- The text of a value is read as the value, with as much fuel as the text is
long. -/
theorem readValue_stringify {fuel : Nat} {rest : Units} :
    ∀ value : JsValue ν, (stringify format value).length ≤ fuel → EndsNumber rest →
      readValue format fuel (stringify format value ++ rest) = some (value, rest) := by
  intro value hfuel hrest
  cases fuel with
  | zero =>
      obtain ⟨u, us, htext, _⟩ := stringify_cons format value
      rw [htext] at hfuel
      exact absurd hfuel (Nat.not_succ_le_zero _)
  | succ fuel =>
      cases value with
      | null => rfl
      | bool value =>
          cases value with
          | true => rfl
          | false => rfl
      | number value =>
          obtain ⟨u, us, htext, hu⟩ := text_cons format value
          have hatom := readAtom_number format value hrest
          rw [stringify, readValue]
          rw [htext, List.cons_append] at hatom ⊢
          rw [skipSpace_cons (beginsValue_of_isNumberUnit hu).1]
          dsimp only
          rw [if_neg (ne_of_isNumberUnit hu (by decide)),
            if_neg (ne_of_isNumberUnit hu (by decide)),
            if_neg (ne_of_isNumberUnit hu (by decide)), hatom]
      | string value =>
          rw [stringify] at hfuel ⊢
          rw [quote_append, readValue, skipSpace_cons (by decide)]
          dsimp only
          rw [if_pos rfl, readString_quoted value rest hfuel, Option.map_some]
      | array items =>
          rw [stringify, List.length_cons] at hfuel
          rw [stringify, List.cons_append, readValue, skipSpace_cons (by decide)]
          dsimp only
          rw [if_neg (by decide), if_pos rfl,
            readItems_stringifyItems items true (Nat.le_of_succ_le_succ hfuel), Option.map_some]
      | object members =>
          rw [stringify, List.length_cons] at hfuel
          rw [stringify, List.cons_append, readValue, skipSpace_cons (by decide)]
          dsimp only
          rw [if_neg (by decide), if_neg (by decide), if_pos rfl,
            readMembers_stringifyMembers members true (Nat.le_of_succ_le_succ hfuel),
            Option.map_some]
termination_by structural value => value

theorem readItems_stringifyItems {fuel : Nat} {rest : Units} :
    ∀ (items : List (JsValue ν)) (first : Bool),
      (stringifyItems format first items).length ≤ fuel →
        readItems format fuel first (stringifyItems format first items ++ rest)
          = some (items, rest)
  | [], first, hfuel => by
      rw [stringifyItems] at hfuel ⊢
      cases fuel with
      | zero => exact absurd hfuel (Nat.not_succ_le_zero _)
      | succ fuel => rw [readItems, List.singleton_append, afterUnit_self (by decide)]
  | item :: items, first, hfuel => by
      obtain ⟨u, us, htext, hu⟩ := stringify_cons format item
      have hlength := congrArg List.length htext
      have hpos := length_stringifyItems_pos format false items
      rw [stringifyItems] at hfuel ⊢
      simp only [List.length_append, List.length_cons] at hfuel hlength
      cases fuel with
      | zero => omega
      | succ fuel =>
          obtain ⟨hopen, hafter⟩ := separator_spec first (unit ']')
            (us ++ (stringifyItems format false items ++ rest)) hu hu.2.1 (by decide)
          rw [List.append_assoc, List.append_assoc, htext, List.cons_append, readItems, hopen]
          dsimp only
          rw [hafter, Option.bind_some, ← List.cons_append, ← htext,
            readValue_stringify item (by omega) (endsNumber_stringifyItems format items rest),
            Option.bind_some]
          dsimp only
          rw [readItems_stringifyItems items false (by omega), Option.map_some]
termination_by structural items => items

theorem readMembers_stringifyMembers {fuel : Nat} {rest : Units} :
    ∀ (members : List (Units × JsValue ν)) (first : Bool),
      (stringifyMembers format first members).length ≤ fuel →
        readMembers format fuel first (stringifyMembers format first members ++ rest)
          = some (members, rest)
  | [], first, hfuel => by
      rw [stringifyMembers] at hfuel ⊢
      cases fuel with
      | zero => exact absurd hfuel (Nat.not_succ_le_zero _)
      | succ fuel => rw [readMembers, List.singleton_append, afterUnit_self (by decide)]
  | (name, value) :: members, first, hfuel => by
      have hpos := length_stringifyMembers_pos format false members
      rw [stringifyMembers] at hfuel ⊢
      simp only [List.length_append, List.length_cons] at hfuel
      cases fuel with
      | zero => omega
      | succ fuel =>
          have hname : (quote name).length ≤ fuel + 1 := by omega
          obtain ⟨hopen, hafter⟩ := separator_spec first (unit '\x7d') (u := unit '"')
            (escape name ++ unit '"' :: (unit ':' :: stringify format value ++
              (stringifyMembers format false members ++ rest)))
            ⟨by decide, by decide, by decide, by decide⟩ (by decide) (by decide)
          rw [List.append_assoc, List.append_assoc, List.append_assoc, quote_append, readMembers,
            hopen]
          dsimp only
          rw [hafter, Option.bind_some, afterUnit_self (by decide), Option.bind_some,
            readString_quoted name _ hname, Option.bind_some]
          dsimp only
          rw [List.cons_append, afterUnit_self (by decide), Option.bind_some,
            readValue_stringify value (by omega) (endsNumber_stringifyMembers format members rest),
            Option.bind_some]
          dsimp only
          rw [readMembers_stringifyMembers members false (by omega), Option.map_some]
termination_by structural members => members

end

/-- The text of a value says the value. -/
theorem readText_stringify (value : JsValue ν) :
    readText format (stringify format value) = some value := by
  have hread : readValue format ((stringify format value).length + 1)
      (stringify format value ++ []) = some (value, []) :=
    readValue_stringify format value (Nat.le_succ _) (fun u hu => by cases hu)
  rw [List.append_nil] at hread
  rw [readText, hread, Option.bind_some]
  rfl

/-- Different values have different texts. -/
theorem stringify_inj {format : NumberFormat ν} {value value' : JsValue ν}
    (h : stringify format value = stringify format value') : value = value' := by
  have hread := readText_stringify format value
  rw [h, readText_stringify] at hread
  exact (Option.some.inj hread).symm

/-- What the text of a value is parsed as. -/
theorem parse_stringify (value : JsValue ν) :
    parse format (stringify format value) = some (made value) := by
  rw [parse, readText_stringify, Option.map_some]

end JsValue

end Lib
