import Vynor.Basic

/-!
# Message content

The normalized contents a message can carry, the plain text that stands for
one, and the one-line preview of a text.
-/

namespace Vynor

/-- `mediaType`. -/
inductive MediaType where
  | image
  | audio
  | video
  | document
  | sticker
  | voice
deriving DecidableEq, Repr

/-- `InboundMessageContent`, with the members the plain text is made from.  A
coordinate is the text that `toFixed(5)` prints for it.  Replies are `TEXT`. -/
inductive MessageContent where
  | text (text : String)
  | media (mediaType : MediaType) (filename caption : Option String)
  | location (latitude longitude : String) (name address : Option String)
  | contact (formattedNames : List String)
  | interactive (id title : String)
  | reaction (emoji : String) (unreact : Bool)
  | unsupported (rawType : String) (description : Option String)
deriving DecidableEq, Repr

/-- Whether `OutboundMessageContentSchema.safeParse` accepts a content.  Its
`INTERACTIVE` content needs an action, which an inbound one does not have. -/
def MessageContent.isOutbound : MessageContent → Bool
  | .text body => body ≠ ""
  | .media _ _ _ => true
  | .location _ _ _ _ => true
  | _ => false

/-- What `\s` matches and `trim` removes. -/
def isSpace (c : Char) : Bool :=
  c.toNat ∈ [9, 10, 11, 12, 13, 32, 0xa0, 0x1680, 0x2028, 0x2029, 0x202f, 0x205f, 0x3000, 0xfeff] ||
    (0x2000 ≤ c.toNat && c.toNat ≤ 0x200a)

/-- The characters left by `trim`. -/
def trimChars (cs : List Char) : List Char :=
  ((cs.dropWhile isSpace).reverse.dropWhile isSpace).reverse

/-- `text.trim()`. -/
def trim (text : String) : String := String.ofList (trimChars text.toList)

/-- The characters left by `replace(/\s+/g, ' ')`.  `inRun` says that the
character before was a space. -/
def collapseSpaces (inRun : Bool) : List Char → List Char
  | [] => []
  | c :: cs =>
      if isSpace c then
        if inRun then collapseSpaces true cs else ' ' :: collapseSpaces true cs
      else c :: collapseSpaces false cs

/-- `MEDIA_LABELS`. -/
def mediaLabel : MediaType → String
  | .image => "Photo"
  | .video => "Video"
  | .audio => "Audio"
  | .voice => "Voice message"
  | .document => "Document"
  | .sticker => "Sticker"

/-- `summarizeMessageContent`. -/
def summarizeMessageContent : MessageContent → String
  | .text text => (truthy (some (trim text))).getD "(empty message)"
  | .media mediaType filename caption =>
      match truthy (caption.map trim) with
      | some caption => caption
      | none =>
          match truthy filename with
          | some filename => mediaLabel mediaType ++ ": " ++ filename
          | none => mediaLabel mediaType
  | .location latitude longitude name address =>
      match [name, address].filterMap truthy with
      | [] => "Location: " ++ latitude ++ ", " ++ longitude
      | parts => "Location: " ++ ", ".intercalate parts
  | .contact formattedNames => "Contact: " ++ ", ".intercalate formattedNames
  | .interactive _ title => title
  | .reaction emoji unreact => if unreact then "Removed a reaction" else "Reacted " ++ emoji
  | .unsupported rawType description =>
      description.getD ("Unsupported message (" ++ rawType ++ ")")

/-- `truncatePreview`, with its default length.  Characters are code points. -/
def truncatePreview (text : String) : String :=
  let chars := trimChars (collapseSpaces false text.toList)
  if chars.length ≤ 280 then String.ofList chars else String.ofList (chars.take 279 ++ ['…'])

example : truncatePreview "  one\n\n two " = "one two" := by decide

/-- A preview fits its column. -/
theorem truncatePreview_length_le (text : String) : (truncatePreview text).length ≤ 280 := by
  simp only [truncatePreview]
  split
  · rw [String.length_ofList]
    assumption
  · rw [String.length_ofList, List.length_append, List.length_take, List.length_singleton]
    omega

/-! ## Code units -/

/-- A string as the code units that `slice` counts. -/
abbrev CodeUnits := List UInt16

/-- The code units of a character: one, or a surrogate pair. -/
def charUnits (c : Char) : CodeUnits :=
  if c.toNat < 0x10000 then [UInt16.ofNat c.toNat]
  else
    [UInt16.ofNat (0xd800 + (c.toNat - 0x10000) / 0x400),
      UInt16.ofNat (0xdc00 + (c.toNat - 0x10000) % 0x400)]

/-- The code units of a string. -/
def codeUnits (s : String) : CodeUnits := s.toList.flatMap charUnits

theorem unit_inj {x y : Nat} (hx : x < 0x10000) (hy : y < 0x10000)
    (h : UInt16.ofNat x = UInt16.ofNat y) : x = y := by
  have hn := congrArg UInt16.toNat h
  rwa [UInt16.toNat_ofNat_of_lt' hx, UInt16.toNat_ofNat_of_lt' hy] at hn

/-- No character is encoded as a part of another. -/
theorem charUnits_append_inj {a b : Char} {s t : CodeUnits}
    (h : charUnits a ++ s = charUnits b ++ t) : a = b ∧ s = t := by
  have ha : a.toNat < 0xd800 ∨ 0xdfff < a.toNat ∧ a.toNat < 0x110000 := a.valid
  have hb : b.toNat < 0xd800 ∨ 0xdfff < b.toNat ∧ b.toNat < 0x110000 := b.valid
  unfold charUnits at h
  split at h <;> split at h <;> simp only [List.cons_append, List.nil_append, List.cons.injEq] at h
  · exact ⟨Char.toNat_inj.mp (unit_inj (by omega) (by omega) h.1), h.2⟩
  · have hfirst := unit_inj (by omega) (by omega) h.1
    omega
  · have hfirst := unit_inj (by omega) (by omega) h.1
    omega
  · have hfirst := unit_inj (by omega) (by omega) h.1
    have hsecond := unit_inj (by omega) (by omega) h.2.1
    exact ⟨Char.toNat_inj.mp (by omega), h.2.2⟩

theorem charUnits_ne_nil (c : Char) : charUnits c ≠ [] := by
  unfold charUnits
  split <;> exact List.cons_ne_nil _ _

/-- Two strings with the same code units are the same. -/
theorem codeUnits_injective : Function.Injective codeUnits := by
  intro s t h
  unfold codeUnits at h
  rw [← String.toList_inj]
  generalize s.toList = cs at h
  generalize t.toList = ds at h
  induction cs generalizing ds with
  | nil =>
      cases ds with
      | nil => rfl
      | cons d ds =>
          rw [List.flatMap_nil, List.flatMap_cons] at h
          exact absurd (List.append_eq_nil_iff.mp h.symm).1 (charUnits_ne_nil d)
  | cons c cs ih =>
      cases ds with
      | nil =>
          rw [List.flatMap_nil, List.flatMap_cons] at h
          exact absurd (List.append_eq_nil_iff.mp h).1 (charUnits_ne_nil c)
      | cons d ds =>
          rw [List.flatMap_cons, List.flatMap_cons] at h
          obtain ⟨rfl, hrest⟩ := charUnits_append_inj h
          rw [ih ds hrest]

theorem codeUnits_append (s t : String) : codeUnits (s ++ t) = codeUnits s ++ codeUnits t := by
  simp [codeUnits, String.toList_append]

/-- A character has one code unit or two. -/
theorem length_codeUnits_le (s : String) : (codeUnits s).length ≤ 2 * s.length := by
  have hchar (c : Char) : (charUnits c).length ≤ 2 := by
    unfold charUnits
    split <;> simp
  rw [← String.length_toList, codeUnits]
  induction s.toList with
  | nil => exact Nat.zero_le _
  | cons c cs ih =>
      have hc := hchar c
      rw [List.flatMap_cons, List.length_append, List.length_cons]
      omega

end Vynor
