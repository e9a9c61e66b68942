import Vynor.Lib.Number

/-!
# JSON texts

`stringify` writes a value as a text, `parse` reads one.  A value is *sound*
when its numbers are read back from their texts as themselves, as every double
is, and the names of an object are distinct, as those of an object are.  A sound
value is what the text of it is read as (`parse_stringify`), so different values
have different texts (`stringify_inj`).

The parser takes fuel, one unit for each step into a text, and a text's length
is enough.  An escaped surrogate that is alone is no character, so a text with
one is refused.
-/

namespace Lib

namespace Json

/-! ## Writing -/

/-- The digit of a number below 16. -/
def hexDigit (n : Nat) : Char := Nat.digitChar n

/-- A character inside of a string. -/
def escapeChar (c : Char) : List Char :=
  if c = '"' then ['\\', '"']
  else if c = '\\' then ['\\', '\\']
  else if c.toNat = 8 then ['\\', 'b']
  else if c.toNat = 9 then ['\\', 't']
  else if c.toNat = 10 then ['\\', 'n']
  else if c.toNat = 12 then ['\\', 'f']
  else if c.toNat = 13 then ['\\', 'r']
  else if c.toNat < 32 then
    ['\\', 'u', '0', '0', hexDigit (c.toNat / 16), hexDigit (c.toNat % 16)]
  else [c]

/-- A string with its quotes. -/
def quote (s : String) : List Char := '"' :: (s.toList.flatMap escapeChar ++ ['"'])

/-- A number.  One that is not finite is written as `null`. -/
def numberChars : Number → List Char
  | .finite value => (numberText value).toList
  | _ => "null".toList

/-- The comma before every item but the first one. -/
def separator (first : Bool) : List Char := if first then [] else [',']

mutual

/-- The text of a value, without any space. -/
def stringifyChars : Json → List Char
  | .null => "null".toList
  | .bool value => if value then "true".toList else "false".toList
  | .number value => numberChars value
  | .string value => quote value
  | .array items => '[' :: stringifyItems true items
  | .object members => '{' :: stringifyMembers true members

/-- The items of an array, up to the closing bracket. -/
def stringifyItems (first : Bool) : List Json → List Char
  | [] => [']']
  | item :: items => separator first ++ stringifyChars item ++ stringifyItems false items

/-- The members of an object, up to the closing bracket. -/
def stringifyMembers (first : Bool) : List (String × Json) → List Char
  | [] => ['\x7d']
  | (name, value) :: members =>
      separator first ++ quote name ++ ':' :: stringifyChars value ++ stringifyMembers false members

end

/-- `JSON.stringify`. -/
def stringify (value : Json) : String := String.ofList (stringifyChars value)

/-! ## Reading -/

/-- The space that may stand between tokens. -/
def isJsonSpace (c : Char) : Bool := c.toNat ∈ [9, 10, 13, 32]

def skipSpace (text : List Char) : List Char := text.dropWhile isJsonSpace

/-- Four digits of a code unit, and what follows. -/
def readUnit : List Char → Option (Nat × List Char)
  | a :: b :: c :: d :: rest => (digitsValue? 16 [a, b, c, d]).map fun n => (n, rest)
  | _ => none

/-- What follows `\u`: a character, or a surrogate and the escaped other one. -/
def readUnicode (text : List Char) : Option (Char × List Char) :=
  match readUnit text with
  | none => none
  | some (high, rest) =>
      if high < 0xd800 || 0xe000 ≤ high then some (Char.ofNat high, rest)
      else
        match rest with
        | '\\' :: 'u' :: rest =>
            (readUnit rest).bind fun (low, rest) =>
              if high < 0xdc00 && 0xdc00 ≤ low && low < 0xe000 then
                some (Char.ofNat (0x10000 + (high - 0xd800) * 0x400 + (low - 0xdc00)), rest)
              else none
        | _ => none

/-- The character that a letter after a backslash stands for. -/
def unescape (c : Char) : Option Char :=
  if c = '"' || c = '\\' || c = '/' then some c
  else if c = 'b' then some (Char.ofNat 8)
  else if c = 't' then some (Char.ofNat 9)
  else if c = 'n' then some (Char.ofNat 10)
  else if c = 'f' then some (Char.ofNat 12)
  else if c = 'r' then some (Char.ofNat 13)
  else none

/-- One character of a string, and what follows. -/
def readChar : List Char → Option (Char × List Char)
  | [] => none
  | c :: rest =>
      if c = '\\' then
        match rest with
        | [] => none
        | e :: rest => if e = 'u' then readUnicode rest else (unescape e).map fun c => (c, rest)
      else if c.toNat < 32 then none
      else some (c, rest)

/-- A string after its opening quote, and what follows the closing one. -/
def readString : Nat → List Char → Option (List Char × List Char)
  | 0, _ => none
  | fuel + 1, text =>
      if text.head? = some '"' then some ([], text.tail)
      else
        (readChar text).bind fun (c, rest) =>
          (readString fuel rest).map fun (cs, rest) => (c :: cs, rest)

def isDigits (cs : List Char) : Bool := cs ≠ [] && cs.all Char.isDigit

/-- The exponent of a number, where it has one. -/
def isExponent : List Char → Bool
  | [] => true
  | c :: cs =>
      (c = 'e' || c = 'E') &&
        isDigits (if cs.head? = some '+' || cs.head? = some '-' then cs.tail else cs)

/-- What follows the whole digits of a number. -/
def isFraction (cs : List Char) : Bool :=
  if cs.head? = some '.' then
    let digits := cs.tail.takeWhile Char.isDigit
    digits ≠ [] && isExponent (cs.tail.drop digits.length)
  else isExponent cs

/-- The grammar of numbers: no plus, no zero in front, digits around a point. -/
def isNumberLiteral (cs : List Char) : Bool :=
  let unsigned := if cs.head? = some '-' then cs.tail else cs
  let whole := unsigned.takeWhile Char.isDigit
  (whole = ['0'] || whole.head?.any fun c => c ≠ '0') && isFraction (unsigned.drop whole.length)

/-- The characters of numbers. -/
def isNumberChar (c : Char) : Bool := c.isDigit || c ∈ ['-', '+', '.', 'e', 'E']

def readNumber (token : List Char) : Option Number :=
  if isNumberLiteral token then (signed? decimal? token).map Number.round else none

/-- A value that is one token but no string. -/
def readAtom (text : List Char) : Option (Json × List Char) :=
  if "null".toList <+: text then some (.null, text.drop 4)
  else if "true".toList <+: text then some (.bool true, text.drop 4)
  else if "false".toList <+: text then some (.bool false, text.drop 5)
  else
    (readNumber (text.takeWhile isNumberChar)).map fun n =>
      (.number n, text.dropWhile isNumberChar)

/-- A member before the others.  Of two with one name the later value stays. -/
def addMember (name : String) (value : Json) (members : Members) : Members :=
  match Members.get? members name with
  | some later => (name, later) :: members.filter fun m => m.1 ≠ name
  | none => (name, value) :: members

/-- What follows a token. -/
def afterChar (c : Char) (text : List Char) : Option (List Char) :=
  match skipSpace text with
  | [] => none
  | d :: rest => if d = c then some rest else none

/-- What follows the comma before an item. -/
def afterSeparator (first : Bool) (text : List Char) : Option (List Char) :=
  if first then some text else afterChar ',' text

mutual

/-- A value, and what follows. -/
def readValue : Nat → List Char → Option (Json × List Char)
  | 0, _ => none
  | fuel + 1, text =>
      match skipSpace text with
      | [] => none
      | c :: rest =>
          if c = '"' then
            (readString fuel rest).map fun (cs, rest) => (.string (String.ofList cs), rest)
          else if c = '[' then
            (readItems fuel true rest).map fun (items, rest) => (.array items, rest)
          else if c = '\x7b' then
            (readMembers fuel true rest).map fun (members, rest) => (.object members, rest)
          else readAtom (c :: rest)

/-- The items of an array up to the closing bracket, and what follows. -/
def readItems : Nat → Bool → List Char → Option (List Json × List Char)
  | 0, _, _ => none
  | fuel + 1, first, text =>
      match afterChar ']' text with
      | some rest => some ([], rest)
      | none =>
          (afterSeparator first text).bind fun text =>
            (readValue fuel text).bind fun (item, rest) =>
              (readItems fuel false rest).map fun (items, rest) => (item :: items, rest)

/-- The members of an object up to the closing bracket, and what follows. -/
def readMembers : Nat → Bool → List Char → Option (Members × List Char)
  | 0, _, _ => none
  | fuel + 1, first, text =>
      match afterChar '\x7d' text with
      | some rest => some ([], rest)
      | none =>
          (afterSeparator first text).bind fun text =>
            (afterChar '"' text).bind fun text =>
              (readString fuel text).bind fun (name, rest) =>
                (afterChar ':' rest).bind fun rest =>
                  (readValue fuel rest).bind fun (value, rest) =>
                    (readMembers fuel false rest).map fun (members, rest) =>
                      (addMember (String.ofList name) value members, rest)

end

/-- `JSON.parse`, or `none` where it throws. -/
def parse (text : String) : Option Json :=
  (readValue (text.toList.length + 1) text.toList).bind fun (value, rest) =>
    if skipSpace rest = [] then some value else none

/-! ## Sound values -/

/-- A number that is read back from its text as itself. -/
def readsBack : Number → Bool
  | .finite value =>
      let token := (numberText value).toList
      token.all isNumberChar && readNumber token = some (.finite value)
  | _ => false

mutual

/-- A value that the runtime can hold and write. -/
def isSound : Json → Bool
  | .number value => readsBack value
  | .array items => areSound items
  | .object members => areSoundMembers members
  | _ => true

def areSound : List Json → Bool
  | [] => true
  | item :: items => isSound item && areSound items

/-- The names of sound members are distinct. -/
def areSoundMembers : List (String × Json) → Bool
  | [] => true
  | (name, value) :: members =>
      (members.all fun m => m.1 ≠ name) && isSound value && areSoundMembers members

end

/-! ## Strings -/

theorem digitsValue?_hexDigit {a b c d : Nat} (ha : a < 16) (hb : b < 16) (hc : c < 16)
    (hd : d < 16) :
    digitsValue? 16 [hexDigit a, hexDigit b, hexDigit c, hexDigit d] =
      some (16 * (16 * (16 * a + b) + c) + d) := by
  have hdigit : ∀ n < 16, digitValue (hexDigit n) = n := by decide
  simp [digitsValue?, hdigit a ha, hdigit b hb, hdigit c hc, hdigit d hd, ha, hb, hc, hd]

/-- An escaped character is read as itself. -/
theorem readChar_escapeChar (c : Char) (rest : List Char) :
    readChar (escapeChar c ++ rest) = some (c, rest) := by
  have hofNat : ∀ n, c.toNat = n → Char.ofNat n = c := by
    rintro n rfl
    exact Char.ofNat_toNat c
  unfold escapeChar
  split
  next h =>
    rw [h]
    rfl
  split
  next h =>
    rw [h]
    rfl
  split
  next h =>
    exact congrArg (fun d => some (d, rest)) (hofNat 8 h)
  split
  next h =>
    exact congrArg (fun d => some (d, rest)) (hofNat 9 h)
  split
  next h =>
    exact congrArg (fun d => some (d, rest)) (hofNat 10 h)
  split
  next h =>
    exact congrArg (fun d => some (d, rest)) (hofNat 12 h)
  split
  next h =>
    exact congrArg (fun d => some (d, rest)) (hofNat 13 h)
  split
  next h =>
    have hunit : readUnit ('0' :: '0' :: hexDigit (c.toNat / 16) :: hexDigit (c.toNat % 16) :: rest) =
        some (c.toNat, rest) := by
      have hdigits := digitsValue?_hexDigit (a := 0) (b := 0) (c := c.toNat / 16)
        (d := c.toNat % 16) (by decide) (by decide) (by omega) (by omega)
      simp only [readUnit]
      change (digitsValue? 16 [hexDigit 0, hexDigit 0, _, _]).map _ = _
      rw [hdigits, Option.map_some]
      congr 2
      omega
    change readUnicode ('0' :: '0' :: hexDigit (c.toNat / 16) :: hexDigit (c.toNat % 16) :: rest) = _
    rw [readUnicode, hunit]
    have hlow : (decide (c.toNat < 0xd800) || decide (0xe000 ≤ c.toNat)) = true := by
      rw [Bool.or_eq_true, decide_eq_true_eq]
      omega
    dsimp only
    rw [if_pos hlow, hofNat c.toNat rfl]
  next hquote hslash _ _ _ _ _ hcontrol =>
    rw [List.cons_append, List.nil_append]
    simp only [readChar, if_neg hslash, if_neg hcontrol]

/-- A character stays as it is or becomes an escape. -/
theorem escapeChar_cases (c : Char) :
    escapeChar c = [c] ∧ c ≠ '"' ∨ ∃ cs, escapeChar c = '\\' :: cs := by
  unfold escapeChar
  split
  next => exact .inr ⟨_, rfl⟩
  next hquote =>
    split
    next => exact .inr ⟨_, rfl⟩
    split
    next => exact .inr ⟨_, rfl⟩
    split
    next => exact .inr ⟨_, rfl⟩
    split
    next => exact .inr ⟨_, rfl⟩
    split
    next => exact .inr ⟨_, rfl⟩
    split
    next => exact .inr ⟨_, rfl⟩
    split
    next => exact .inr ⟨_, rfl⟩
    next => exact .inl ⟨rfl, hquote⟩

/-- No escaped character begins with a quote. -/
theorem head?_escapeChar (c : Char) (rest : List Char) :
    (escapeChar c ++ rest).head? ≠ some '"' := by
  rcases escapeChar_cases c with ⟨h, hquote⟩ | ⟨cs, h⟩
  · rw [h]
    exact fun heq => hquote (Option.some.inj heq)
  · rw [h]
    exact fun heq => absurd (Option.some.inj heq) (by decide)

theorem one_le_escapeChar (c : Char) : 1 ≤ (escapeChar c).length := by
  rcases escapeChar_cases c with ⟨h, _⟩ | ⟨cs, h⟩
  · rw [h]
    exact Nat.le_refl 1
  · rw [h]
    exact Nat.le_add_left 1 cs.length

theorem length_flatMap_escapeChar_le (cs : List Char) :
    cs.length ≤ (cs.flatMap escapeChar).length := by
  induction cs with
  | nil => exact Nat.le_refl 0
  | cons c cs ih =>
      have hc := one_le_escapeChar c
      rw [List.flatMap_cons, List.length_append, List.length_cons]
      omega

/-- A quoted string is read as itself. -/
theorem readString_quote {fuel : Nat} (cs rest : List Char) (h : cs.length < fuel) :
    readString fuel (cs.flatMap escapeChar ++ '"' :: rest) = some (cs, rest) := by
  induction cs generalizing fuel with
  | nil =>
      cases fuel with
      | zero => exact absurd h (Nat.not_lt_zero _)
      | succ fuel => rfl
  | cons c cs ih =>
      cases fuel with
      | zero => exact absurd h (Nat.not_lt_zero _)
      | succ fuel =>
          rw [List.flatMap_cons, List.append_assoc, readString, if_neg (head?_escapeChar c _),
            readChar_escapeChar, Option.bind_some]
          dsimp only
          rw [ih (Nat.lt_of_succ_lt_succ h), Option.map_some]

/-! ## Tokens -/

/-- What can follow a number: nothing that would make it longer. -/
def EndsNumber (rest : List Char) : Prop := ∀ c, rest.head? = some c → isNumberChar c = false

theorem endsNumber_cons {c : Char} {rest : List Char} (h : isNumberChar c = false) :
    EndsNumber (c :: rest) := by
  intro d hd
  cases hd
  exact h

theorem skipSpace_cons {c : Char} {rest : List Char} (h : isJsonSpace c = false) :
    skipSpace (c :: rest) = c :: rest := by
  rw [skipSpace, List.dropWhile_cons, h]
  rfl

theorem afterChar_self {c : Char} {rest : List Char} (h : isJsonSpace c = false) :
    afterChar c (c :: rest) = some rest := by
  rw [afterChar, skipSpace_cons h]
  simp

theorem afterChar_other {c d : Char} {rest : List Char} (h : isJsonSpace d = false) (hd : d ≠ c) :
    afterChar c (d :: rest) = none := by
  rw [afterChar, skipSpace_cons h]
  simp [hd]

/-- The first character of a value's text. -/
def BeginsValue (c : Char) : Prop :=
  isJsonSpace c = false ∧ c ≠ ']' ∧ c ≠ '\x7d' ∧ c ≠ ','

theorem beginsValue_of_isNumberChar {c : Char} (h : isNumberChar c = true) : BeginsValue c := by
  have hrange : 43 ≤ c.toNat ∧ c.toNat ≤ 57 ∧ c.toNat ≠ 44 ∨ c.toNat = 101 ∨ c.toNat = 69 := by
    simp only [isNumberChar, Char.isDigit, Bool.or_eq_true, Bool.and_eq_true, decide_eq_true_eq,
      List.mem_cons, List.not_mem_nil, or_false] at h
    rcases h with ⟨hlow, hhigh⟩ | rfl | rfl | rfl | rfl | rfl
    · have hlow : 48 ≤ c.toNat := hlow
      have hhigh : c.toNat ≤ 57 := hhigh
      omega
    · decide
    · decide
    · decide
    · decide
    · decide
  have hne : ∀ d : Char, d.toNat ≠ c.toNat → c ≠ d := fun d hd heq => hd (heq ▸ rfl)
  refine ⟨?_, hne _ ?_, hne _ ?_, hne _ ?_⟩
  · simp only [isJsonSpace, List.mem_cons, List.not_mem_nil, or_false, decide_eq_false_iff_not]
    omega
  · change 93 ≠ c.toNat
    omega
  · change 125 ≠ c.toNat
    omega
  · change 44 ≠ c.toNat
    omega

/-- The text of a number that is read back begins with one of its characters. -/
theorem numberText_cons {value : Rat} (h : readsBack (.finite value) = true) :
    ∃ c cs, (numberText value).toList = c :: cs ∧ isNumberChar c = true := by
  simp only [readsBack, Bool.and_eq_true, decide_eq_true_eq] at h
  cases htext : (numberText value).toList with
  | nil =>
      rw [htext] at h
      cases h.2
  | cons c cs =>
      rw [htext] at h
      exact ⟨c, cs, rfl, List.all_eq_true.mp h.1 c List.mem_cons_self⟩

/-- A literal is no prefix of a text that begins with another character. -/
theorem not_prefix_of_head {c d : Char} {cs ds : List Char} (h : c ≠ d) : ¬ c :: cs <+: d :: ds :=
  fun hprefix => h (List.cons_prefix_cons.mp hprefix).1

theorem readAtom_number {value : Rat} {rest : List Char}
    (h : readsBack (.finite value) = true) (hrest : EndsNumber rest) :
    readAtom ((numberText value).toList ++ rest) = some (.number (.finite value), rest) := by
  obtain ⟨c, cs, htext, hc⟩ := numberText_cons h
  simp only [readsBack, Bool.and_eq_true, decide_eq_true_eq] at h
  have hne : ∀ d : Char, isNumberChar d = false → d ≠ c := by
    rintro d hd rfl
    rw [hd] at hc
    cases hc
  have htake : ((numberText value).toList ++ rest).takeWhile isNumberChar =
      (numberText value).toList := by
    rw [List.takeWhile_append_of_pos (fun d hd => List.all_eq_true.mp h.1 d hd)]
    cases rest with
    | nil => simp
    | cons d ds => simp [hrest d rfl]
  have hdrop : ((numberText value).toList ++ rest).dropWhile isNumberChar = rest := by
    rw [List.dropWhile_append_of_pos (fun d hd => List.all_eq_true.mp h.1 d hd)]
    cases rest with
    | nil => rfl
    | cons d ds => simp [hrest d rfl]
  have hnull : ¬ "null".toList <+: (numberText value).toList ++ rest := by
    rw [htext]
    exact not_prefix_of_head (hne 'n' (by decide))
  have htrue : ¬ "true".toList <+: (numberText value).toList ++ rest := by
    rw [htext]
    exact not_prefix_of_head (hne 't' (by decide))
  have hfalse : ¬ "false".toList <+: (numberText value).toList ++ rest := by
    rw [htext]
    exact not_prefix_of_head (hne 'f' (by decide))
  rw [readAtom, if_neg hnull, if_neg htrue, if_neg hfalse, htake, hdrop, h.2, Option.map_some]

/-! ## Values -/

/-- The text of a value begins as a value does. -/
theorem stringifyChars_cons {value : Json} (h : isSound value = true) :
    ∃ c cs, stringifyChars value = c :: cs ∧ BeginsValue c := by
  cases value with
  | null => exact ⟨'n', "ull".toList, rfl, by decide, by decide, by decide, by decide⟩
  | bool value =>
      cases value with
      | true => exact ⟨'t', "rue".toList, rfl, by decide, by decide, by decide, by decide⟩
      | false => exact ⟨'f', "alse".toList, rfl, by decide, by decide, by decide, by decide⟩
  | number value =>
      cases value with
      | nan => cases h
      | infinite negative => cases h
      | finite value =>
          obtain ⟨c, cs, htext, hc⟩ := numberText_cons h
          exact ⟨c, cs, htext, beginsValue_of_isNumberChar hc⟩
  | string value => exact ⟨'"', _, rfl, by decide, by decide, by decide, by decide⟩
  | array items => exact ⟨'[', _, rfl, by decide, by decide, by decide, by decide⟩
  | object members => exact ⟨'\x7b', _, rfl, by decide, by decide, by decide, by decide⟩

theorem addMember_of_new {name : String} {value : Json} {members : Members}
    (h : (members.all fun m => m.1 ≠ name) = true) :
    addMember name value members = (name, value) :: members := by
  have hget : Members.get? members name = none := by
    rw [Members.get?, Option.map_eq_none_iff, List.find?_eq_none]
    intro m hm
    have := List.all_eq_true.mp h m hm
    simpa using this
  rw [addMember, hget]

/-- A number in front of more items ends there. -/
theorem endsNumber_stringifyItems (items : List Json) (rest : List Char) :
    EndsNumber (stringifyItems false items ++ rest) := by
  cases items with
  | nil =>
      rw [stringifyItems]
      exact endsNumber_cons (by decide)
  | cons item items =>
      rw [stringifyItems]
      exact endsNumber_cons (c := ',') (by decide)

theorem endsNumber_stringifyMembers (members : Members) (rest : List Char) :
    EndsNumber (stringifyMembers false members ++ rest) := by
  cases members with
  | nil =>
      rw [stringifyMembers]
      exact endsNumber_cons (by decide)
  | cons member members =>
      rw [stringifyMembers]
      exact endsNumber_cons (c := ',') (by decide)

/-- The separator of an item is passed, and does not end the list. -/
theorem separator_spec (first : Bool) (close : Char) {c : Char} (text : List Char)
    (hc : BeginsValue c) (hclose : c ≠ close) (hcomma : close ≠ ',') :
    afterChar close (separator first ++ c :: text) = none ∧
      afterSeparator first (separator first ++ c :: text) = some (c :: text) := by
  cases first with
  | true => exact ⟨afterChar_other hc.1 hclose, rfl⟩
  | false =>
      exact ⟨afterChar_other (d := ',') (by decide) hcomma.symm,
        afterChar_self (c := ',') (by decide)⟩

theorem readString_quoted {fuel : Nat} (s : String) (rest : List Char)
    (h : (quote s).length ≤ fuel + 1) :
    readString fuel (s.toList.flatMap escapeChar ++ '"' :: rest) = some (s.toList, rest) := by
  have hlength := length_flatMap_escapeChar_le s.toList
  simp only [quote, List.length_cons, List.length_append, List.length_nil] at h
  exact readString_quote _ _ (by omega)

theorem quote_append (s : String) (rest : List Char) :
    quote s ++ rest = '"' :: (s.toList.flatMap escapeChar ++ '"' :: rest) := by
  simp [quote]

theorem length_stringifyItems_pos (first : Bool) (items : List Json) :
    0 < (stringifyItems first items).length := by
  induction items generalizing first with
  | nil =>
      rw [stringifyItems]
      exact Nat.one_pos
  | cons item items ih =>
      rw [stringifyItems, List.length_append]
      exact Nat.add_pos_right _ (ih false)

theorem length_stringifyMembers_pos (first : Bool) (members : Members) :
    0 < (stringifyMembers first members).length := by
  induction members generalizing first with
  | nil =>
      rw [stringifyMembers]
      exact Nat.one_pos
  | cons member members ih =>
      rw [stringifyMembers, List.length_append]
      exact Nat.add_pos_right _ (ih false)

mutual

/-- The text of a sound value is read as the value, with as much fuel as the
text is long. -/
theorem readValue_stringifyChars {fuel : Nat} {rest : List Char} :
    ∀ (value : Json), isSound value = true → (stringifyChars value).length ≤ fuel →
      EndsNumber rest → readValue fuel (stringifyChars value ++ rest) = some (value, rest) := by
  intro value hsound hfuel hrest
  cases fuel with
  | zero =>
      obtain ⟨c, cs, htext, _⟩ := stringifyChars_cons hsound
      rw [htext] at hfuel
      exact absurd hfuel (Nat.not_succ_le_zero _)
  | succ fuel =>
      cases value with
      | null => rfl
      | bool value =>
          cases value with
          | true => rfl
          | false => rfl
      | number value =>
          cases value with
          | nan => cases hsound
          | infinite negative => cases hsound
          | finite value =>
              obtain ⟨c, cs, htext, hc⟩ := numberText_cons hsound
              have hspace := (beginsValue_of_isNumberChar hc).1
              have hne : ∀ d : Char, isNumberChar d = false → c ≠ d := by
                rintro d hd rfl
                rw [hd] at hc
                cases hc
              have hatom := readAtom_number hsound hrest
              rw [stringifyChars, numberChars, readValue]
              rw [htext, List.cons_append] at hatom ⊢
              rw [skipSpace_cons hspace]
              dsimp only
              rw [if_neg (hne '"' (by decide)), if_neg (hne '[' (by decide)),
                if_neg (hne '\x7b' (by decide)), hatom]
      | string value =>
          rw [stringifyChars] at hfuel ⊢
          rw [quote_append, readValue, skipSpace_cons (by decide)]
          dsimp only
          rw [if_pos rfl, readString_quoted value rest hfuel, Option.map_some]
          dsimp only
          rw [String.ofList_toList]
      | array items =>
          rw [stringifyChars, List.length_cons] at hfuel
          rw [stringifyChars, List.cons_append, readValue, skipSpace_cons (by decide)]
          dsimp only
          rw [if_neg (by decide), if_pos rfl,
            readItems_stringifyItems items true hsound (Nat.le_of_succ_le_succ hfuel),
            Option.map_some]
      | object members =>
          rw [stringifyChars, List.length_cons] at hfuel
          rw [stringifyChars, List.cons_append, readValue, skipSpace_cons (by decide)]
          dsimp only
          rw [if_neg (by decide), if_neg (by decide), if_pos rfl,
            readMembers_stringifyMembers members true hsound (Nat.le_of_succ_le_succ hfuel),
            Option.map_some]
termination_by structural value => value

theorem readItems_stringifyItems {fuel : Nat} {rest : List Char} :
    ∀ (items : List Json) (first : Bool), areSound items = true →
      (stringifyItems first items).length ≤ fuel →
      readItems fuel first (stringifyItems first items ++ rest) = some (items, rest)
  | [], first, _, hfuel => by
      rw [stringifyItems] at hfuel ⊢
      cases fuel with
      | zero => exact absurd hfuel (Nat.not_succ_le_zero _)
      | succ fuel =>
          rw [readItems, List.singleton_append, afterChar_self (by decide)]
  | item :: items, first, hsound, hfuel => by
      simp only [areSound, Bool.and_eq_true] at hsound
      obtain ⟨c, cs, htext, hc⟩ := stringifyChars_cons hsound.1
      have hlength := congrArg List.length htext
      have hpos := length_stringifyItems_pos false items
      rw [stringifyItems] at hfuel ⊢
      simp only [List.length_append, List.length_cons] at hfuel hlength
      cases fuel with
      | zero => omega
      | succ fuel =>
          obtain ⟨hopen, hafter⟩ := separator_spec first ']'
            (cs ++ (stringifyItems false items ++ rest)) hc hc.2.1 (by decide)
          rw [List.append_assoc, List.append_assoc, htext, List.cons_append, readItems, hopen]
          dsimp only
          rw [hafter, Option.bind_some, ← List.cons_append, ← htext,
            readValue_stringifyChars item hsound.1 (by omega) (endsNumber_stringifyItems items rest),
            Option.bind_some]
          dsimp only
          rw [readItems_stringifyItems items false hsound.2 (by omega), Option.map_some]
termination_by structural items => items

theorem readMembers_stringifyMembers {fuel : Nat} {rest : List Char} :
    ∀ (members : Members) (first : Bool), areSoundMembers members = true →
      (stringifyMembers first members).length ≤ fuel →
      readMembers fuel first (stringifyMembers first members ++ rest) = some (members, rest)
  | [], first, _, hfuel => by
      rw [stringifyMembers] at hfuel ⊢
      cases fuel with
      | zero => exact absurd hfuel (Nat.not_succ_le_zero _)
      | succ fuel =>
          rw [readMembers, List.singleton_append, afterChar_self (by decide)]
  | (name, value) :: members, first, hsound, hfuel => by
      simp only [areSoundMembers, Bool.and_eq_true] at hsound
      obtain ⟨⟨hnew, hvalue⟩, hmembers⟩ := hsound
      have hpos := length_stringifyMembers_pos false members
      rw [stringifyMembers] at hfuel ⊢
      simp only [List.length_append, List.length_cons] at hfuel
      cases fuel with
      | zero => omega
      | succ fuel =>
          have hname : (quote name).length ≤ fuel + 1 := by omega
          obtain ⟨hopen, hafter⟩ := separator_spec first '\x7d' (c := '"')
            (name.toList.flatMap escapeChar ++ '"' ::
              (':' :: stringifyChars value ++ (stringifyMembers false members ++ rest)))
            ⟨by decide, by decide, by decide, by decide⟩ (by decide) (by decide)
          rw [List.append_assoc, List.append_assoc, List.append_assoc, quote_append, readMembers,
            hopen]
          dsimp only
          rw [hafter, Option.bind_some, afterChar_self (by decide), Option.bind_some,
            readString_quoted name _ hname, Option.bind_some]
          dsimp only
          rw [List.cons_append, afterChar_self (by decide), Option.bind_some,
            readValue_stringifyChars value hvalue (by omega)
              (endsNumber_stringifyMembers members rest), Option.bind_some]
          dsimp only
          rw [readMembers_stringifyMembers members false hmembers (by omega), Option.map_some]
          dsimp only
          rw [String.ofList_toList, addMember_of_new hnew]
termination_by structural members => members

end

/-- A sound value is what its text is parsed as. -/
theorem parse_stringify {value : Json} (h : isSound value = true) :
    parse (stringify value) = some value := by
  have hread : readValue ((stringifyChars value).length + 1) (stringifyChars value ++ []) =
      some (value, []) :=
    readValue_stringifyChars value h (Nat.le_succ _) (fun c hc => by cases hc)
  rw [List.append_nil] at hread
  rw [parse, stringify, String.toList_ofList, hread, Option.bind_some]
  rfl

/-- Different sound values have different texts. -/
theorem stringify_inj {value value' : Json} (h : isSound value = true)
    (h' : isSound value' = true) (heq : stringify value = stringify value') : value = value' := by
  have hparse := parse_stringify h
  rw [heq, parse_stringify h'] at hparse
  exact (Option.some.inj hparse).symm

end Json

end Lib
