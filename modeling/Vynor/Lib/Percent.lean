import Vynor.Lib.Utf8

/-!
# Percent encoding

A character that is *kept* stands for itself, any other is written as the bytes
of its UTF-8, each with a percent sign and two upper-case digits.  Who keeps more
characters writes shorter texts, and texts of one length are the same
(`encodeChars_eq_iff`).
-/

namespace Lib.Percent

/-- The digit of a number below 16. -/
def hexDigit (n : Nat) : Char := Char.ofNat (if n < 10 then 48 + n else 55 + n)

/-- A byte with its percent sign. -/
def byteChars (b : UInt8) : List Char := ['%', hexDigit (b.toNat / 16), hexDigit (b.toNat % 16)]

def encodeChar (keep : Char → Bool) (c : Char) : List Char :=
  if keep c then [c] else (String.utf8EncodeChar c).flatMap byteChars

def encodeChars (keep : Char → Bool) (cs : List Char) : List Char := cs.flatMap (encodeChar keep)

/-- A text with every character encoded that is not kept. -/
def encode (keep : Char → Bool) (text : String) : String :=
  String.ofList (encodeChars keep text.toList)

example : encode Char.isAlphanum "a é(" = "a%20%C3%A9%28" := by decide

variable {keep keep' : Char → Bool}

theorem encodeChars_cons (keep : Char → Bool) (c : Char) (cs : List Char) :
    encodeChars keep (c :: cs) = encodeChar keep c ++ encodeChars keep cs := List.flatMap_cons

/-- A text of kept characters stands for itself. -/
theorem encodeChars_eq_self {cs : List Char} (h : ∀ c ∈ cs, keep c = true) :
    encodeChars keep cs = cs := by
  induction cs with
  | nil => rfl
  | cons c cs ih =>
      obtain ⟨hc, hcs⟩ := List.forall_mem_cons.mp h
      rw [encodeChars_cons, ih hcs, encodeChar, if_pos hc, List.singleton_append]

theorem encode_eq_self {text : String} (h : text.toList.all keep = true) :
    encode keep text = text := by
  rw [encode, encodeChars_eq_self (List.all_eq_true.mp h), String.ofList_toList]

/-- Where two keep the same characters of a text, they encode it alike. -/
theorem encodeChars_congr {cs : List Char} (h : ∀ c ∈ cs, keep c = keep' c) :
    encodeChars keep cs = encodeChars keep' cs := by
  induction cs with
  | nil => rfl
  | cons c cs ih =>
      obtain ⟨hc, hcs⟩ := List.forall_mem_cons.mp h
      rw [encodeChars_cons, encodeChars_cons, ih hcs, encodeChar, encodeChar, hc]

/-! ## Lengths -/

/-- An encoded character is longer than a kept one. -/
theorem three_le_length (c : Char) :
    3 ≤ ((String.utf8EncodeChar c).flatMap byteChars).length := by
  have hbytes : ∀ bytes : Bytes, (bytes.flatMap byteChars).length = 3 * bytes.length := by
    intro bytes
    induction bytes with
    | nil => rfl
    | cons b bytes ih =>
        rw [List.flatMap_cons, List.length_append, ih, List.length_cons]
        simp only [byteChars, List.length_cons, List.length_nil]
        omega
  have hsize := c.utf8Size_pos
  rw [hbytes, String.length_utf8EncodeChar]
  omega

theorem length_encodeChar_le (h : ∀ c, keep c = true → keep' c = true) (c : Char) :
    (encodeChar keep' c).length ≤ (encodeChar keep c).length ∧
      ((encodeChar keep' c).length = (encodeChar keep c).length → keep c = keep' c) := by
  have hlong := three_le_length c
  have hkept : (if true = true then [c] else (String.utf8EncodeChar c).flatMap byteChars).length =
      1 := by
    rw [if_pos rfl, List.length_singleton]
  have hcoded : (if false = true then [c] else
      (String.utf8EncodeChar c).flatMap byteChars).length =
      ((String.utf8EncodeChar c).flatMap byteChars).length := by
    rw [if_neg Bool.false_ne_true]
  unfold encodeChar
  cases hkeep : keep c with
  | true =>
      rw [h c hkeep]
      exact ⟨Nat.le_refl _, fun _ => rfl⟩
  | false =>
      cases keep' c with
      | true =>
          rw [hkept, hcoded]
          exact ⟨by omega, fun heq => by omega⟩
      | false => exact ⟨Nat.le_refl _, fun _ => rfl⟩

/-- Who keeps more writes no longer text, and one of the same length only where
both keep the same characters. -/
theorem length_encodeChars_le (h : ∀ c, keep c = true → keep' c = true) (cs : List Char) :
    (encodeChars keep' cs).length ≤ (encodeChars keep cs).length ∧
      ((encodeChars keep' cs).length = (encodeChars keep cs).length →
        ∀ c ∈ cs, keep c = keep' c) := by
  induction cs with
  | nil => exact ⟨Nat.le_refl _, fun _ c hc => absurd hc List.not_mem_nil⟩
  | cons c cs ih =>
      obtain ⟨hle, heq⟩ := length_encodeChar_le h c
      have hrest := ih.1
      rw [encodeChars_cons, encodeChars_cons, List.length_append, List.length_append]
      refine ⟨Nat.add_le_add hle hrest, fun hlength => List.forall_mem_cons.mpr ⟨?_, ?_⟩⟩
      · exact heq (by omega)
      · exact ih.2 (by omega)

/-- Texts of one length are the same, and their characters are kept by both or by
none. -/
theorem encodeChars_eq_iff (h : ∀ c, keep c = true → keep' c = true) (cs : List Char) :
    encodeChars keep' cs = encodeChars keep cs ↔ ∀ c ∈ cs, keep c = keep' c := by
  constructor
  · exact fun heq => (length_encodeChars_le h cs).2 (congrArg List.length heq)
  · exact fun hkeep => (encodeChars_congr hkeep).symm

/-! ## Segments -/

/-- Encoding the segments of a path is encoding the path with its separator
kept. -/
theorem join_encodeChars_splitOn (keep : Char → Bool) (separator : Char) (cs : List Char) :
    [separator].intercalate ((cs.splitOn separator).map (encodeChars keep)) =
      encodeChars (fun c => c == separator || keep c) cs := by
  induction cs with
  | nil => rfl
  | cons c cs ih =>
      obtain ⟨segment, segments, hsplit⟩ := List.exists_cons_of_ne_nil
        (List.splitOn_ne_nil separator cs)
      rw [hsplit] at ih
      rw [List.splitOn_cons_eq_if_modifyHead, hsplit, encodeChars_cons, ← ih, encodeChar]
      cases hc : c == separator with
      | true =>
          rw [if_pos rfl, Bool.true_or, if_pos rfl, beq_iff_eq.mp hc]
          rfl
      | false =>
          rw [if_neg Bool.false_ne_true, Bool.false_or, ← encodeChar, List.modifyHead_cons,
            List.map_cons, List.map_cons, encodeChars_cons]
          cases segments with
          | nil => rw [List.map_nil, List.intercalate_singleton, List.intercalate_singleton]
          | cons other segments =>
              rw [List.map_cons, List.intercalate_cons_cons, List.intercalate_cons_cons]
              simp only [List.append_assoc]

/-! ## Joined texts -/

/-- Where each part is no longer than its counterpart, neither is the joined
text, and it has the same length only where each part has. -/
theorem length_intercalate_le {α β : Type*} (separator : List β) {f g : α → List β} {l : List α}
    (h : ∀ a ∈ l, (f a).length ≤ (g a).length) :
    (separator.intercalate (l.map f)).length ≤ (separator.intercalate (l.map g)).length ∧
      ((separator.intercalate (l.map f)).length = (separator.intercalate (l.map g)).length →
        ∀ a ∈ l, (f a).length = (g a).length) := by
  induction l with
  | nil => exact ⟨Nat.le_refl _, fun _ a ha => absurd ha List.not_mem_nil⟩
  | cons a l ih =>
      obtain ⟨ha, hl⟩ := List.forall_mem_cons.mp h
      obtain ⟨hle, heq⟩ := ih hl
      cases l with
      | nil =>
          simp only [List.map_cons, List.map_nil, List.intercalate_singleton]
          refine ⟨ha, fun hlength b hb => ?_⟩
          rw [List.mem_singleton.mp hb]
          exact hlength
      | cons b l =>
          simp only [List.map_cons, List.intercalate_cons_cons, List.length_append] at hle heq ⊢
          refine ⟨by omega, fun hlength => List.forall_mem_cons.mpr ⟨by omega, ?_⟩⟩
          exact heq (by omega)

end Lib.Percent
