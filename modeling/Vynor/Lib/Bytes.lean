import Mathlib.Data.List.TakeWhile
import Vynor.Lib.Number

/-!
# Bytes as texts

Bytes in base64 and in hexadecimal.  The decoders are those of `Buffer.from`:
base64 ends at the first `=`, takes the characters of both alphabets, passes
over all others, and drops what is left of a group that holds no whole byte.
What an encoder writes is decoded to the bytes it was written from.
-/

namespace Lib

abbrev Bytes := List UInt8

namespace Bytes

/-! ## Base64 -/

/-- The character of six bits. -/
def base64Digit (n : Nat) : Char :=
  if n < 26 then Char.ofNat ('A'.toNat + n)
  else if n < 52 then Char.ofNat ('a'.toNat + (n - 26))
  else if n < 62 then Char.ofNat ('0'.toNat + (n - 52))
  else if n = 62 then '+'
  else '/'

/-- The six bits of a character, in the standard or the URL alphabet. -/
def sextet? (c : Char) : Option Nat :=
  if 'A' ≤ c ∧ c ≤ 'Z' then some (c.toNat - 'A'.toNat)
  else if 'a' ≤ c ∧ c ≤ 'z' then some (c.toNat - 'a'.toNat + 26)
  else if '0' ≤ c ∧ c ≤ '9' then some (c.toNat - '0'.toNat + 52)
  else if c = '+' ∨ c = '-' then some 62
  else if c = '/' ∨ c = '_' then some 63
  else none

/-- The sextets of three bytes. -/
def sextets (a b c : UInt8) : List Nat :=
  [a.toNat / 4, a.toNat % 4 * 16 + b.toNat / 16, b.toNat % 16 * 4 + c.toNat / 64, c.toNat % 64]

/-- `toString('base64')`, as characters. -/
def base64Chars : Bytes → List Char
  | [] => []
  | [a] => ((sextets a 0 0).take 2).map base64Digit ++ ['=', '=']
  | [a, b] => ((sextets a b 0).take 3).map base64Digit ++ ['=']
  | a :: b :: c :: rest => (sextets a b c).map base64Digit ++ base64Chars rest

/-- The bytes of some sextets. -/
def ofSextets : List Nat → Bytes
  | p :: q :: r :: s :: rest =>
      UInt8.ofNat (p * 4 + q / 16) :: UInt8.ofNat (q % 16 * 16 + r / 4) ::
        UInt8.ofNat (r % 4 * 64 + s) :: ofSextets rest
  | [p, q, r] => [UInt8.ofNat (p * 4 + q / 16), UInt8.ofNat (q % 16 * 16 + r / 4)]
  | [p, q] => [UInt8.ofNat (p * 4 + q / 16)]
  | _ => []

/-- `Buffer.from(text, 'base64')`. -/
def ofBase64Chars (text : List Char) : Bytes :=
  ofSextets ((text.takeWhile fun c => c ≠ '=').filterMap sextet?)

def toBase64 (bytes : Bytes) : String := String.ofList (base64Chars bytes)

def ofBase64 (text : String) : Bytes := ofBase64Chars text.toList

example : toBase64 [0xfb, 0xff, 0x61, 0x7a] = "+/9heg==" := by decide

theorem sextet?_base64Digit {n : Nat} (h : n < 64) : sextet? (base64Digit n) = some n := by
  have hall : ∀ n < 64, sextet? (base64Digit n) = some n := by decide
  exact hall n h

theorem base64Digit_ne {n : Nat} (h : n < 64) : base64Digit n ≠ '=' := by
  have hall : ∀ n < 64, base64Digit n ≠ '=' := by decide
  exact hall n h

theorem lt_of_mem_sextets {a b c : UInt8} {n : Nat} (h : n ∈ sextets a b c) : n < 64 := by
  have ha := a.toNat_lt
  have hb := b.toNat_lt
  have hc := c.toNat_lt
  simp only [sextets, List.mem_cons, List.not_mem_nil, or_false] at h
  omega

theorem takeWhile_digits {digits : List Nat} (h : ∀ n ∈ digits, n < 64) (text : List Char) :
    (digits.map base64Digit ++ text).takeWhile (fun c => c ≠ '=') =
      digits.map base64Digit ++ text.takeWhile fun c => c ≠ '=' := by
  refine List.takeWhile_append_of_pos fun c hc => ?_
  obtain ⟨n, hn, rfl⟩ := List.mem_map.mp hc
  exact decide_eq_true (base64Digit_ne (h n hn))

/-- Digits in front of a text are read as their sextets. -/
theorem ofBase64Chars_digits {digits : List Nat} (h : ∀ n ∈ digits, n < 64) (text : List Char) :
    ofBase64Chars (digits.map base64Digit ++ text) =
      ofSextets (digits ++ (text.takeWhile fun c => c ≠ '=').filterMap sextet?) := by
  have hfilter : (digits.map base64Digit).filterMap sextet? = digits := by
    rw [List.filterMap_map]
    refine (List.filterMap_congr fun n hn => ?_).trans (List.filterMap_some)
    exact sextet?_base64Digit (h n hn)
  rw [ofBase64Chars, takeWhile_digits h, List.filterMap_append, hfilter]

/-- The sextets of bytes are the bytes again. -/
theorem ofNat_sextets (a b c : UInt8) :
    UInt8.ofNat (a.toNat / 4 * 4 + (a.toNat % 4 * 16 + b.toNat / 16) / 16) = a ∧
      UInt8.ofNat ((a.toNat % 4 * 16 + b.toNat / 16) % 16 * 16 +
        (b.toNat % 16 * 4 + c.toNat / 64) / 4) = b ∧
      UInt8.ofNat ((b.toNat % 16 * 4 + c.toNat / 64) % 4 * 64 + c.toNat % 64) = c := by
  have ha := a.toNat_lt
  have hb := b.toNat_lt
  have hc := c.toNat_lt
  have hofNat : ∀ (x : UInt8) (n : Nat), n = x.toNat → UInt8.ofNat n = x := by
    rintro x n rfl
    exact UInt8.ofNat_toNat
  exact ⟨hofNat a _ (by omega), hofNat b _ (by omega), hofNat c _ (by omega)⟩

theorem ofBase64Chars_base64Chars (bytes : Bytes) : ofBase64Chars (base64Chars bytes) = bytes := by
  induction bytes using base64Chars.induct with
  | case1 => rfl
  | case2 a =>
      rw [base64Chars, ofBase64Chars_digits fun n hn => lt_of_mem_sextets (List.mem_of_mem_take hn)]
      exact congrArg (fun x => [x]) (ofNat_sextets a 0 0).1
  | case3 a b =>
      obtain ⟨ha, hb, _⟩ := ofNat_sextets a b 0
      rw [base64Chars, ofBase64Chars_digits fun n hn => lt_of_mem_sextets (List.mem_of_mem_take hn)]
      exact congrArg₂ (fun x y => [x, y]) ha hb
  | case4 a b c rest ih =>
      obtain ⟨ha, hb, hc⟩ := ofNat_sextets a b c
      rw [base64Chars, ofBase64Chars_digits fun n hn => lt_of_mem_sextets hn]
      rw [ofBase64Chars] at ih
      simp only [sextets, List.cons_append, List.nil_append, ofSextets, ih, ha, hb, hc]

/-- What `toString('base64')` writes is read back. -/
theorem ofBase64_toBase64 (bytes : Bytes) : ofBase64 (toBase64 bytes) = bytes := by
  rw [ofBase64, toBase64, String.toList_ofList, ofBase64Chars_base64Chars]

theorem toBase64_ne_empty {bytes : Bytes} (h : bytes ≠ []) : toBase64 bytes ≠ "" := by
  intro hempty
  have hread := ofBase64_toBase64 bytes
  rw [hempty] at hread
  exact h hread.symm

theorem mem_map_base64Digit {digits : List Nat} (h : ∀ n ∈ digits, n < 64) {c : Char}
    (hc : c ∈ digits.map base64Digit) : c = '=' ∨ ∃ n < 64, c = base64Digit n := by
  obtain ⟨n, hn, rfl⟩ := List.mem_map.mp hc
  exact Or.inr ⟨n, h n hn, rfl⟩

/-- The characters of base64 are digits and padding. -/
theorem mem_base64Chars {bytes : Bytes} {c : Char} (hc : c ∈ base64Chars bytes) :
    c = '=' ∨ ∃ n < 64, c = base64Digit n := by
  have htake : ∀ (k : Nat) (x y z : UInt8), ∀ n ∈ (sextets x y z).take k, n < 64 :=
    fun k x y z n hn => lt_of_mem_sextets (List.mem_of_mem_take hn)
  induction bytes using base64Chars.induct with
  | case1 => cases hc
  | case2 a =>
      rcases List.mem_append.mp hc with hdigit | hpad
      · exact mem_map_base64Digit (htake 2 a 0 0) hdigit
      · exact Or.inl (by simpa using hpad)
  | case3 a b =>
      rcases List.mem_append.mp hc with hdigit | hpad
      · exact mem_map_base64Digit (htake 3 a b 0) hdigit
      · exact Or.inl (List.mem_singleton.mp hpad)
  | case4 a b c' rest ih =>
      rcases List.mem_append.mp hc with hdigit | hrest
      · exact mem_map_base64Digit (fun n hn => lt_of_mem_sextets hn) hdigit
      · exact ih hrest

theorem length_base64Chars (bytes : Bytes) :
    (base64Chars bytes).length = (bytes.length + 2) / 3 * 4 := by
  induction bytes using base64Chars.induct with
  | case1 => rfl
  | case2 a => simp [base64Chars, sextets]
  | case3 a b => simp [base64Chars, sextets]
  | case4 a b c rest ih =>
      rw [base64Chars, List.length_append, ih]
      simp only [sextets, List.map_cons, List.map_nil, List.length_cons, List.length_nil]
      omega

/-! ## Base64 for URLs -/

/-- A character of the URL alphabet. -/
def urlChar (c : Char) : Char := if c = '+' then '-' else if c = '/' then '_' else c

/-- `toString('base64url')`: the URL alphabet, and no padding. -/
def toBase64Url (bytes : Bytes) : String :=
  String.ofList (((base64Chars bytes).filter (· ≠ '=')).map urlChar)

example : toBase64Url [0xfb, 0xff, 0x61, 0x7a] = "-_9heg" := by decide

theorem sextet?_urlChar (c : Char) : sextet? (urlChar c) = sextet? c := by
  unfold urlChar
  split
  next h =>
    subst h
    rfl
  split
  next h =>
    subst h
    rfl
  · rfl

theorem urlChar_ne {c : Char} (h : c ≠ '=') : urlChar c ≠ '=' := by
  unfold urlChar
  split
  · decide
  split
  · decide
  · exact h

theorem filter_digits {digits : List Nat} (h : ∀ n ∈ digits, n < 64) :
    (digits.map base64Digit).filter (· ≠ '=') = digits.map base64Digit := by
  rw [List.filter_eq_self]
  intro c hc
  obtain ⟨n, hn, rfl⟩ := List.mem_map.mp hc
  exact decide_eq_true (base64Digit_ne (h n hn))

/-- The padding is at the end. -/
theorem takeWhile_base64Chars (bytes : Bytes) :
    (base64Chars bytes).takeWhile (fun c => c ≠ '=') =
      (base64Chars bytes).filter (· ≠ '=') := by
  have htake : ∀ (k : Nat) (x y z : UInt8), ∀ n ∈ (sextets x y z).take k, n < 64 :=
    fun k x y z n hn => lt_of_mem_sextets (List.mem_of_mem_take hn)
  induction bytes using base64Chars.induct with
  | case1 => rfl
  | case2 a =>
      rw [base64Chars, takeWhile_digits (htake 2 a 0 0), List.filter_append,
        filter_digits (htake 2 a 0 0)]
      rfl
  | case3 a b =>
      rw [base64Chars, takeWhile_digits (htake 3 a b 0), List.filter_append,
        filter_digits (htake 3 a b 0)]
      rfl
  | case4 a b c rest ih =>
      have hdigits : ∀ n ∈ sextets a b c, n < 64 := fun n hn => lt_of_mem_sextets hn
      rw [base64Chars, takeWhile_digits hdigits, List.filter_append, filter_digits hdigits, ih]

/-- What `toString('base64url')` writes is read back. -/
theorem ofBase64_toBase64Url (bytes : Bytes) : ofBase64 (toBase64Url bytes) = bytes := by
  have hwhole : (((base64Chars bytes).filter (· ≠ '=')).map urlChar).takeWhile (fun c => c ≠ '=') =
      ((base64Chars bytes).filter (· ≠ '=')).map urlChar := by
    rw [List.takeWhile_eq_self_iff]
    intro c hc
    obtain ⟨d, hd, rfl⟩ := List.mem_map.mp hc
    exact decide_eq_true (urlChar_ne (of_decide_eq_true (List.mem_filter.mp hd).2))
  have hsextets : sextet? ∘ urlChar = sextet? := funext sextet?_urlChar
  rw [ofBase64, toBase64Url, String.toList_ofList, ofBase64Chars, hwhole, List.filterMap_map,
    hsextets, ← takeWhile_base64Chars, ← ofBase64Chars, ofBase64Chars_base64Chars]

/-! ## Hexadecimal -/

/-- `toString('hex')`, as characters. -/
def hexChars (bytes : Bytes) : List Char :=
  bytes.flatMap fun b => [Nat.digitChar (b.toNat / 16), Nat.digitChar (b.toNat % 16)]

/-- `Buffer.from(text, 'hex')`.  It ends at the first pair that is no byte. -/
def ofHexChars : List Char → Bytes
  | a :: b :: rest =>
      if digitValue a < 16 ∧ digitValue b < 16 then
        UInt8.ofNat (digitValue a * 16 + digitValue b) :: ofHexChars rest
      else []
  | _ => []

theorem ofHexChars_hexChars (bytes : Bytes) : ofHexChars (hexChars bytes) = bytes := by
  induction bytes with
  | nil => rfl
  | cons b bytes ih =>
      have hb := b.toNat_lt
      have hhigh := digitValue_digitChar (n := b.toNat / 16) (by omega)
      have hlow := digitValue_digitChar (n := b.toNat % 16) (by omega)
      have hbyte : UInt8.ofNat (b.toNat / 16 * 16 + b.toNat % 16) = b := by
        rw [Nat.div_add_mod']
        exact UInt8.ofNat_toNat
      rw [hexChars, List.flatMap_cons]
      change ofHexChars (_ :: _ :: hexChars bytes) = _
      rw [ofHexChars, hhigh, hlow, if_pos ⟨by omega, by omega⟩, hbyte, ih]

theorem length_hexChars (bytes : Bytes) : (hexChars bytes).length = 2 * bytes.length := by
  induction bytes with
  | nil => rfl
  | cons b bytes ih =>
      rw [hexChars] at ih ⊢
      rw [List.flatMap_cons, List.length_append, ih, List.length_cons]
      simp only [List.length_cons, List.length_nil]
      omega

/-- The characters of hexadecimal are digits. -/
theorem mem_hexChars {bytes : Bytes} {c : Char} (hc : c ∈ hexChars bytes) :
    ∃ n < 16, c = Nat.digitChar n := by
  obtain ⟨b, _, hb⟩ := List.mem_flatMap.mp hc
  have hlt := b.toNat_lt
  simp only [List.mem_cons, List.not_mem_nil, or_false] at hb
  rcases hb with rfl | rfl
  · exact ⟨b.toNat / 16, by omega, rfl⟩
  · exact ⟨b.toNat % 16, by omega, rfl⟩

theorem digitValue_of_mem_hexChars {bytes : Bytes} {c : Char} (hc : c ∈ hexChars bytes) :
    digitValue c < 16 := by
  obtain ⟨n, hn, rfl⟩ := mem_hexChars hc
  rw [digitValue_digitChar hn]
  exact hn

end Bytes

end Lib
