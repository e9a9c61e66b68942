import Mathlib.Data.List.TakeWhile
import Vynor.Lib.Percent

/-!
# Reading URLs

The inverse of percent encoding, and the query of a URL as a list of names and
values.  The parts of a URL are encoded so that no separator is left in them:
what `encodeURIComponent` wrote is read back (`decodeURIComponent_encode`), and
so is a query (`parse_write`).
-/

namespace Lib

namespace Percent

/-! ## Decoding -/

/-- The bytes of an encoded text.  A percent sign without two digits stands for
itself. -/
def percentDecode : List Char → Bytes
  | [] => []
  | c :: cs =>
      match c, cs with
      | '%', high :: low :: rest =>
          if digitValue high < 16 ∧ digitValue low < 16 then
            UInt8.ofNat (16 * digitValue high + digitValue low) :: percentDecode rest
          else String.utf8EncodeChar '%' ++ percentDecode (high :: low :: rest)
      | c, cs => String.utf8EncodeChar c ++ percentDecode cs

/-- Every percent sign has its two digits. -/
def isEscaped : List Char → Bool
  | [] => true
  | c :: cs =>
      match c, cs with
      | '%', high :: low :: rest => digitValue high < 16 && digitValue low < 16 && isEscaped rest
      | '%', _ => false
      | _, cs => isEscaped cs

/-- `decodeURIComponent`, which throws on a text that is no encoding. -/
def decodeURIComponent (text : List Char) : Option String :=
  let bytes := percentDecode text
  let decoded := Utf8.decode bytes
  if isEscaped text && Utf8.encode decoded = bytes then some decoded else none

theorem hexDigit_facts : ∀ n < 16,
    digitValue (hexDigit n) = n ∧ hexDigit n ≠ '&' ∧ hexDigit n ≠ '=' ∧ hexDigit n ≠ '+' ∧
      hexDigit n ≠ '?' ∧ hexDigit n ≠ '%' := by decide

theorem percentDecode_byteChars (b : UInt8) (rest : List Char) :
    percentDecode (byteChars b ++ rest) = b :: percentDecode rest := by
  have hb : b.toNat < 256 := b.toNat_lt
  obtain ⟨hhigh, _⟩ := hexDigit_facts (b.toNat / 16) (by omega)
  obtain ⟨hlow, _⟩ := hexDigit_facts (b.toNat % 16) (by omega)
  rw [byteChars, List.cons_append, List.cons_append, List.cons_append, List.nil_append,
    percentDecode]
  simp only [hhigh, hlow]
  rw [if_pos ⟨by omega, by omega⟩, Nat.div_add_mod, UInt8.ofNat_toNat]

theorem percentDecode_flatMap_byteChars (bytes : Bytes) (rest : List Char) :
    percentDecode (bytes.flatMap byteChars ++ rest) = bytes ++ percentDecode rest := by
  induction bytes with
  | nil => rfl
  | cons b bytes ih =>
      rw [List.flatMap_cons, List.append_assoc, percentDecode_byteChars, ih, List.cons_append]

/-- A character that is no percent sign stands for its bytes. -/
theorem percentDecode_cons {c : Char} (hc : c ≠ '%') (cs : List Char) :
    percentDecode (c :: cs) = String.utf8EncodeChar c ++ percentDecode cs := by
  rw [percentDecode]
  exact fun _ _ _ h _ => hc h

theorem isEscaped_cons {c : Char} (hc : c ≠ '%') (cs : List Char) :
    isEscaped (c :: cs) = isEscaped cs := by
  rw [isEscaped]
  · exact hc
  · exact fun _ _ _ h _ => hc h

theorem isEscaped_flatMap_byteChars (bytes : Bytes) (rest : List Char) :
    isEscaped (bytes.flatMap byteChars ++ rest) = isEscaped rest := by
  induction bytes with
  | nil => rfl
  | cons b bytes ih =>
      have hb : b.toNat < 256 := b.toNat_lt
      obtain ⟨hhigh, _⟩ := hexDigit_facts (b.toNat / 16) (by omega)
      obtain ⟨hlow, _⟩ := hexDigit_facts (b.toNat % 16) (by omega)
      rw [List.flatMap_cons, List.append_assoc, byteChars, List.cons_append, List.cons_append,
        List.cons_append, List.nil_append, isEscaped, hhigh, hlow, ih]
      simp only [Bool.and_eq_right_iff_imp, Bool.and_eq_true, decide_eq_true_eq]
      exact fun _ => ⟨by omega, by omega⟩

/-- An encoded character stands for its bytes. -/
theorem percentDecode_append_encodeChar {keep : Char → Bool} (hkeep : keep '%' = false) (c : Char)
    (rest : List Char) :
    percentDecode (encodeChar keep c ++ rest) = String.utf8EncodeChar c ++ percentDecode rest := by
  rw [encodeChar]
  split
  next hc =>
    have hne : c ≠ '%' := by
      rintro rfl
      rw [hkeep] at hc
      cases hc
    rw [List.singleton_append, percentDecode_cons hne]
  next hc => rw [percentDecode_flatMap_byteChars]

section Encoded

variable {keep : Char → Bool} (hkeep : keep '%' = false)

include hkeep

/-- The bytes of an encoded text are those of the text. -/
theorem percentDecode_encodeChars (cs : List Char) :
    percentDecode (encodeChars keep cs) = Utf8.encodeChars cs := by
  induction cs with
  | nil => rfl
  | cons c cs ih =>
      rw [encodeChars_cons, percentDecode_append_encodeChar hkeep, ih]
      rfl

theorem isEscaped_encodeChars (cs : List Char) : isEscaped (encodeChars keep cs) = true := by
  induction cs with
  | nil => rfl
  | cons c cs ih =>
      rw [encodeChars_cons, encodeChar]
      split
      next hc =>
        have hne : c ≠ '%' := by
          rintro rfl
          rw [hkeep] at hc
          cases hc
        rw [List.singleton_append, isEscaped_cons hne, ih]
      next hc => rw [isEscaped_flatMap_byteChars, ih]

/-- What `encodeURIComponent` wrote is read back. -/
theorem decodeURIComponent_encode (text : String) :
    decodeURIComponent (encode keep text).toList = some text := by
  have hbytes : percentDecode (encode keep text).toList = Utf8.encode text := by
    rw [encode, String.toList_ofList, percentDecode_encodeChars hkeep, Utf8.encode]
  have hescaped : isEscaped (encode keep text).toList = true := by
    rw [encode, String.toList_ofList, isEscaped_encodeChars hkeep]
  simp only [decodeURIComponent, hbytes, Utf8.decode_encode, hescaped]
  simp

end Encoded

/-- The characters of an encoded text are kept ones, percent signs and digits. -/
theorem mem_encodeChars {keep : Char → Bool} {cs : List Char} {c : Char}
    (hc : c ∈ encodeChars keep cs) : keep c = true ∨ c = '%' ∨ ∃ n < 16, c = hexDigit n := by
  obtain ⟨d, _, hd⟩ := List.mem_flatMap.mp hc
  rw [encodeChar] at hd
  split at hd
  next hkept =>
    rw [List.mem_singleton.mp hd]
    exact Or.inl hkept
  next hcoded =>
    obtain ⟨b, _, hb⟩ := List.mem_flatMap.mp hd
    have hlt : b.toNat < 256 := b.toNat_lt
    simp only [byteChars, List.mem_cons, List.not_mem_nil, or_false] at hb
    rcases hb with rfl | rfl | rfl
    · exact Or.inr (Or.inl rfl)
    · exact Or.inr (Or.inr ⟨b.toNat / 16, by omega, rfl⟩)
    · exact Or.inr (Or.inr ⟨b.toNat % 16, by omega, rfl⟩)

end Percent

/-! ## Search parameters -/

namespace SearchParams

open Percent (encodeChar percentDecode)

/-- The characters that a form keeps besides letters and digits. -/
def isFormChar (c : Char) : Bool := c.isAlphanum || c = '*' || c = '-' || c = '.' || c = '_'

/-- A name or a value in a form. -/
def encodeChars (cs : List Char) : List Char :=
  cs.flatMap fun c => if c = ' ' then ['+'] else encodeChar isFormChar c

/-- The text of a name or a value. -/
def decodeChars (cs : List Char) : String :=
  Utf8.decode (percentDecode (cs.map fun c => if c = '+' then ' ' else c))

/-- A name with its value. -/
def writePair (p : String × String) : List Char :=
  encodeChars p.1.toList ++ '=' :: encodeChars p.2.toList

/-- `params.toString()`. -/
def write (params : List (String × String)) : List Char :=
  ['&'].intercalate (params.map writePair)

/-- A piece of a query. -/
def readPair (piece : List Char) : String × String :=
  (decodeChars (piece.takeWhile (· ≠ '=')), decodeChars ((piece.dropWhile (· ≠ '=')).drop 1))

/-- `new URLSearchParams(text)`. -/
def parse (text : List Char) : List (String × String) :=
  ((text.splitOn '&').filter (· ≠ [])).map readPair

/-- `params.get(name)`. -/
def get (params : List (String × String)) (name : String) : Option String := params.lookup name

example : String.ofList (write [("a b", "1+1"), ("c", "")]) = "a+b=1%2B1&c=" := by decide

theorem isFormChar_marks : isFormChar '%' = false ∧ isFormChar '&' = false ∧
    isFormChar '=' = false ∧ isFormChar '+' = false := by decide

/-- No separator is left in an encoded name or value. -/
theorem mem_encodeChars {cs : List Char} {c : Char} (hc : c ∈ encodeChars cs) :
    c ≠ '&' ∧ c ≠ '=' := by
  obtain ⟨d, _, hd⟩ := List.mem_flatMap.mp hc
  split at hd
  next => rw [List.mem_singleton.mp hd]; decide
  next =>
    have hmem : c ∈ Percent.encodeChars isFormChar [d] := by
      rw [Percent.encodeChars_cons]
      exact List.mem_append_left _ hd
    rcases Percent.mem_encodeChars hmem with hkept | rfl | ⟨n, hn, rfl⟩
    · constructor
      · rintro rfl
        rw [isFormChar_marks.2.1] at hkept
        cases hkept
      · rintro rfl
        rw [isFormChar_marks.2.2.1] at hkept
        cases hkept
    · decide
    · exact ⟨(Percent.hexDigit_facts n hn).2.1, (Percent.hexDigit_facts n hn).2.2.1⟩

/-- An encoded character holds no plus sign. -/
theorem map_plus_encodeChar (c : Char) :
    (encodeChar isFormChar c).map (fun d => if d = '+' then ' ' else d) =
      encodeChar isFormChar c := by
  have hplain : ∀ d ∈ encodeChar isFormChar c, (if d = '+' then ' ' else d) = id d := by
    intro d hd
    have hmem : d ∈ Percent.encodeChars isFormChar [c] := by
      rw [Percent.encodeChars_cons]
      exact List.mem_append_left _ hd
    refine if_neg ?_
    rintro rfl
    rcases Percent.mem_encodeChars hmem with hkept | hpercent | ⟨n, hn, hdigit⟩
    · rw [isFormChar_marks.2.2.2] at hkept
      cases hkept
    · exact absurd hpercent (by decide)
    · exact (Percent.hexDigit_facts n hn).2.2.2.1 hdigit.symm
  rw [List.map_congr_left hplain, List.map_id]

/-- A name or a value is read back. -/
theorem decodeChars_encodeChars (text : String) : decodeChars (encodeChars text.toList) = text := by
  have hbytes : ∀ cs : List Char,
      percentDecode ((encodeChars cs).map fun c => if c = '+' then ' ' else c) =
        Utf8.encodeChars cs := by
    intro cs
    induction cs with
    | nil => rfl
    | cons c cs ih =>
        rw [encodeChars, List.flatMap_cons, List.map_append, Utf8.encodeChars, List.flatMap_cons]
        split
        next hspace =>
          rw [hspace, List.map_singleton, if_pos rfl, List.singleton_append,
            Percent.percentDecode_cons (by decide)]
          exact congrArg _ ih
        next hspace =>
          rw [map_plus_encodeChar]
          have hone := Percent.percentDecode_append_encodeChar isFormChar_marks.1 c
            ((encodeChars cs).map fun c => if c = '+' then ' ' else c)
          exact hone.trans (congrArg _ ih)
  rw [decodeChars, hbytes, ← Utf8.encode, Utf8.decode_encode]

theorem readPair_writePair (p : String × String) : readPair (writePair p) = p := by
  have hname : ∀ c ∈ encodeChars p.1.toList, decide (c ≠ '=') = true := fun c hc =>
    decide_eq_true (mem_encodeChars hc).2
  rw [readPair, writePair, List.takeWhile_append_of_pos hname, List.dropWhile_append_of_pos hname,
    List.takeWhile_cons_of_neg (by decide), List.dropWhile_cons_of_neg (by decide), List.append_nil,
    List.drop_one, List.tail_cons, decodeChars_encodeChars, decodeChars_encodeChars]

/-- A query that was written is read back. -/
theorem parse_write (params : List (String × String)) : parse (write params) = params := by
  rcases eq_or_ne params [] with rfl | hne
  · rfl
  · have hseparator : ∀ piece ∈ params.map writePair, '&' ∉ piece := by
      intro piece hpiece
      obtain ⟨p, _, rfl⟩ := List.mem_map.mp hpiece
      rw [writePair, List.mem_append, List.mem_cons, not_or, not_or]
      exact ⟨fun h => (mem_encodeChars h).1 rfl, by decide, fun h => (mem_encodeChars h).1 rfl⟩
    have hfilter : (params.map writePair).filter (· ≠ []) = params.map writePair := by
      rw [List.filter_eq_self]
      intro piece hpiece
      obtain ⟨p, _, rfl⟩ := List.mem_map.mp hpiece
      exact decide_eq_true (by simp [writePair])
    rw [parse, write, List.splitOn_intercalate _ hseparator (by simpa using hne), hfilter,
      List.map_map]
    exact (List.map_congr_left fun p _ => readPair_writePair p).trans (List.map_id params)

end SearchParams

end Lib
