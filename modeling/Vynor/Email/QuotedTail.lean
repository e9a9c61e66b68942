import Vynor.Email.ReplyTrimmer
import Vynor.Lib.Lines

/-!
# What is stripped off a reply

`stripQuotedReply` works on lines in three stages: it cuts at the first reply
header, drops the quoted or blank lines at the end of what is left, and trims
the text.  `QuotedTailRemoved` states what the three do together.  The last
stage can be done on the lines (`trimChars_joined`), so the lines of a result
are known, and no line of them is a header because a header is recognised on a
trimmed line and what follows the last line was cut.
-/

namespace Vynor.Email

open Lib (stripFront stripBack stripLines)

/-! ## Lines and headers -/

/-- The lines of a text, of which a break is `\n` or `\r\n`. -/
def textLines (text : String) : List (List Char) := (unifyBreaks text.toList).splitOnP (· = '\n')

/-- The lines as a text. -/
def joined (lines : List (List Char)) : List Char := ['\n'].intercalate lines

/-- The line at a position is a reply header, given the line after it. -/
def isHeaderAt (lines : List (List Char)) (i : Nat) : Bool :=
  cuts (trimChars (lines.getD i [])) (trimChars (lines.getD (i + 1) []))

/-- The line begins with `>`. -/
def isQuote (line : List Char) : Prop := (line.dropWhile isSpace).head? = some '>'

/-- `\r` occurs in `\r\n` only. -/
def BreaksPaired (text : String) : Prop :=
  ∀ i < text.toList.length, text.toList[i]? = some '\r' → text.toList[i + 1]? = some '\n'

instance : DecidablePred BreaksPaired := fun _ => Nat.decidableBallLT _ _

/-- What the result of `stripQuotedReply` is to its text. -/
structure QuotedTailRemoved (text result : String) : Prop where
  /-- The result is the first `kept` lines up to outer whitespace.  Of the lines
  before the first header, which is at `first`, only quoted or blank ones at
  the end are not kept. -/
  keepsLines : ∃ kept first, kept ≤ first ∧ first ≤ (textLines text).length ∧
    (∀ i < first, isHeaderAt (textLines text) i = false) ∧
    (first < (textLines text).length → isHeaderAt (textLines text) first) ∧
    (∀ i, kept ≤ i → i < first → isQuoted ((textLines text).getD i [])) ∧
    result.toList = trimChars (joined ((textLines text).take kept))
  /-- No line of the result is a reply header. -/
  noHeader : ∀ i, isHeaderAt (textLines result) i = false
  /-- The last line of the result is not a quote. -/
  lastNotQuote : ∀ line, (textLines result).getLast? = some line → ¬isQuote line

/-! ## The first header -/

theorem cuts_nil (next : List Char) : cuts [] next = false := rfl

/-- A line that is no header before some line is none before a blank one. -/
theorem cuts_blank {line next : List Char} (h : cuts line next = false) : cuts line [] = false := by
  rw [cuts, Bool.and_eq_false_iff] at h ⊢
  refine h.imp id fun h => ?_
  rw [Bool.or_eq_false_iff] at h ⊢
  exact ⟨h.1, rfl⟩

@[simp] theorem isHeaderAt_cons_succ (line : List Char) (rest : List (List Char)) (i : Nat) :
    isHeaderAt (line :: rest) (i + 1) = isHeaderAt rest i := rfl

theorem isHeaderAt_cons_zero (line : List Char) (rest : List (List Char)) :
    isHeaderAt (line :: rest) 0 = cuts (trimChars line) (trimChars (rest.headD [])) := by
  cases rest <;> rfl

theorem isHeaderAt_of_length_le {lines : List (List Char)} {i : Nat} (h : lines.length ≤ i) :
    isHeaderAt lines i = false := by
  rw [isHeaderAt, List.getD_eq_getElem?_getD, List.getElem?_eq_none h]
  exact cuts_nil _

theorem keptLines_begins (lines : List (List Char)) : keptLines lines <+: lines := by
  induction lines with
  | nil => exact List.prefix_refl _
  | cons line rest ih =>
      rw [keptLines]
      split
      next => exact List.nil_prefix
      next => exact (List.prefix_cons_inj line).mpr ih

theorem not_isHeaderAt_of_lt {lines : List (List Char)} {i : Nat}
    (h : i < (keptLines lines).length) : isHeaderAt lines i = false := by
  induction lines generalizing i with
  | nil => cases h
  | cons line rest ih =>
      rw [keptLines] at h
      split at h
      next => cases h
      next hcut =>
        cases i with
        | zero =>
            rw [isHeaderAt_cons_zero]
            exact Bool.not_eq_true _ ▸ hcut
        | succ i => exact ih (Nat.lt_of_succ_lt_succ h)

theorem isHeaderAt_length_keptLines {lines : List (List Char)}
    (h : (keptLines lines).length < lines.length) :
    isHeaderAt lines (keptLines lines).length := by
  induction lines with
  | nil => cases h
  | cons line rest ih =>
      rw [keptLines] at h ⊢
      split at h
      next hcut =>
        rw [if_pos hcut, List.length_nil, isHeaderAt_cons_zero]
        exact hcut
      next hcut =>
        rw [if_neg hcut]
        exact ih (Nat.lt_of_succ_lt_succ h)

theorem keptLines_eq_self_cons {line : List Char} {rest : List (List Char)} :
    keptLines (line :: rest) = line :: rest ↔
      cuts (trimChars line) (trimChars (rest.headD [])) = false ∧ keptLines rest = rest := by
  rw [keptLines]
  cases cuts (trimChars line) (trimChars (rest.headD [])) with
  | true => simp
  | false => simp

/-- Lines of which nothing is cut have no header. -/
theorem not_isHeaderAt_of_keptLines {lines : List (List Char)} (h : keptLines lines = lines)
    (i : Nat) : isHeaderAt lines i = false := by
  rcases Nat.lt_or_ge i lines.length with hlt | hge
  · exact not_isHeaderAt_of_lt (h.symm ▸ hlt)
  · exact isHeaderAt_of_length_le hge

/-- What is kept has no header either: the line after the last is gone. -/
theorem keptLines_of_begins {kept lines : List (List Char)} (h : kept <+: keptLines lines) :
    keptLines kept = kept := by
  induction lines generalizing kept with
  | nil =>
      rw [List.prefix_nil.mp h]
      rfl
  | cons line rest ih =>
      rw [keptLines] at h
      split at h
      next =>
        rw [List.prefix_nil.mp h]
        rfl
      next hcut =>
        cases kept with
        | nil => rfl
        | cons first kept =>
            obtain ⟨rfl, hrest⟩ := List.cons_prefix_cons.mp h
            refine keptLines_eq_self_cons.mpr ⟨?_, ih hrest⟩
            rw [Bool.not_eq_true] at hcut
            cases kept with
            | nil => exact cuts_blank hcut
            | cons second kept =>
                cases hrest.trans (keptLines_begins rest) with
                | intro tail htail =>
                    rw [← htail] at hcut
                    exact hcut

/-! ## Trimming lines -/

theorem isSpace_break : isSpace '\n' := rfl

theorem trimChars_eq_strip (text : List Char) : trimChars text = Lib.strip isSpace text := rfl

/-- A text is trimmed by trimming its lines. -/
theorem trimChars_joined (lines : List (List Char)) :
    trimChars (joined lines) = joined (stripLines isSpace lines) :=
  Lib.strip_join isSpace_break lines

theorem trimChars_eq_nil_of_all {line : List Char} (h : line.all isSpace) :
    trimChars line = [] := by
  rw [trimChars_eq_strip, Lib.strip, Lib.dropWhile_eq_nil_of_all h]
  rfl

theorem keptLines_stripFront {lines : List (List Char)} (h : keptLines lines = lines) :
    keptLines (stripFront isSpace lines) = stripFront isSpace lines := by
  induction lines with
  | nil => rfl
  | cons line rest ih =>
      obtain ⟨hcut, hrest⟩ := keptLines_eq_self_cons.mp h
      rw [stripFront]
      split
      next => exact ih hrest
      next =>
        refine keptLines_eq_self_cons.mpr ⟨?_, hrest⟩
        rw [trimChars_eq_strip, Lib.strip_dropWhile, ← trimChars_eq_strip]
        exact hcut

theorem trimChars_head_stripBack (lines : List (List Char)) :
    trimChars ((stripBack isSpace lines).headD []) = trimChars (lines.headD []) := by
  cases lines with
  | nil => rfl
  | cons line rest =>
      rw [stripBack]
      split
      next =>
        split
        next hall => exact (trimChars_eq_nil_of_all hall).symm
        next => exact Lib.strip_rdropWhile line
      next => rfl

theorem keptLines_stripBack {lines : List (List Char)} (h : keptLines lines = lines) :
    keptLines (stripBack isSpace lines) = stripBack isSpace lines := by
  induction lines with
  | nil => rfl
  | cons line rest ih =>
      obtain ⟨hcut, hrest⟩ := keptLines_eq_self_cons.mp h
      rw [stripBack]
      split
      next =>
        split
        next => rfl
        next =>
          refine keptLines_eq_self_cons.mpr ⟨?_, rfl⟩
          rw [trimChars_eq_strip, Lib.strip_rdropWhile, ← trimChars_eq_strip]
          exact cuts_blank hcut
      next =>
        refine keptLines_eq_self_cons.mpr ⟨?_, ih hrest⟩
        rw [trimChars_head_stripBack]
        exact hcut

/-- Trimming makes no line a header. -/
theorem keptLines_stripLines {lines : List (List Char)} (h : keptLines lines = lines) :
    keptLines (stripLines isSpace lines) = stripLines isSpace lines :=
  keptLines_stripBack (keptLines_stripFront h)

/-! ## The lines of a result -/

theorem not_mem_unifyBreaks {text : List Char}
    (h : ∀ i < text.length, text[i]? = some '\r' → text[i + 1]? = some '\n') :
    '\r' ∉ unifyBreaks text := by
  induction text using unifyBreaks.induct with
  | case1 text ih =>
      rw [unifyBreaks, List.mem_cons, not_or]
      exact ⟨by decide, ih fun i hi => h (i + 2) (Nat.add_lt_add_right hi 2)⟩
  | case2 c text hpair ih =>
      have hc : c ≠ '\r' := by
        rintro rfl
        have hnext := h 0 (Nat.zero_lt_succ _) rfl
        cases text with
        | nil => cases hnext
        | cons d rest =>
            rw [List.getElem?_cons_succ, List.getElem?_cons_zero, Option.some.injEq] at hnext
            exact hpair rest rfl (by rw [hnext])
      rw [unifyBreaks, List.mem_cons, not_or]
      · exact ⟨hc.symm, ih fun i hi => h (i + 1) (Nat.add_lt_add_right hi 1)⟩
      · exact hpair
  | case3 => exact List.not_mem_nil

theorem unifyBreaks_eq_self {text : List Char} (h : '\r' ∉ text) : unifyBreaks text = text := by
  induction text using unifyBreaks.induct with
  | case1 text ih => exact absurd List.mem_cons_self h
  | case2 c text hpair ih =>
      rw [unifyBreaks, ih fun hmem => h (List.mem_cons_of_mem c hmem)]
      exact hpair
  | case3 => rfl

theorem mem_of_mem_splitOnP {text line : List Char} {p : Char → Bool} {c : Char}
    (hline : line ∈ text.splitOnP p) (hc : c ∈ line) : c ∈ text ∧ p c = false := by
  induction text generalizing line with
  | nil =>
      rw [List.splitOnP_nil, List.mem_singleton] at hline
      rw [hline] at hc
      cases hc
  | cons d text ih =>
      rw [List.splitOnP_cons_eq_if_modifyHead] at hline
      split at hline
      next =>
        rcases List.mem_cons.mp hline with rfl | hline
        · cases hc
        · exact (ih hline hc).imp_left (List.mem_cons_of_mem d)
      next hd =>
        cases hlines : text.splitOnP p with
        | nil => exact absurd hlines (List.splitOnP_ne_nil p text)
        | cons first rest =>
            rw [hlines, List.modifyHead_cons] at hline
            rcases List.mem_cons.mp hline with rfl | hline
            · rcases List.mem_cons.mp hc with rfl | hc
              · exact ⟨List.mem_cons_self, Bool.not_eq_true _ ▸ hd⟩
              · exact (ih (hlines ▸ List.mem_cons_self) hc).imp_left (List.mem_cons_of_mem d)
            · exact (ih (hlines ▸ List.mem_cons_of_mem first hline) hc).imp_left
                (List.mem_cons_of_mem d)

/-- No line has a break in it. -/
def BreakFree (lines : List (List Char)) : Prop := ∀ line ∈ lines, '\r' ∉ line ∧ '\n' ∉ line

theorem breakFree_textLines {text : String} (h : BreaksPaired text) :
    BreakFree (textLines text) := by
  intro line hline
  constructor
  · intro hmem
    exact not_mem_unifyBreaks h (mem_of_mem_splitOnP hline hmem).1
  · intro hmem
    have hbreak := (mem_of_mem_splitOnP hline hmem).2
    rw [decide_eq_false_iff_not] at hbreak
    exact hbreak rfl

theorem BreakFree.stripLines {lines : List (List Char)} (h : BreakFree lines) :
    BreakFree (stripLines isSpace lines) := by
  intro line hline
  constructor
  · intro hmem
    obtain ⟨old, hold, hmem⟩ := Lib.mem_of_mem_stripLines hline hmem
    exact (h old hold).1 hmem
  · intro hmem
    obtain ⟨old, hold, hmem⟩ := Lib.mem_of_mem_stripLines hline hmem
    exact (h old hold).2 hmem

theorem not_mem_joined {lines : List (List Char)} (h : BreakFree lines) :
    '\r' ∉ joined lines := by
  induction lines with
  | nil => exact List.not_mem_nil
  | cons line rest ih =>
      obtain ⟨hline, hrest⟩ := List.forall_mem_cons.mp h
      cases rest with
      | nil =>
          rw [joined, List.intercalate_singleton]
          exact hline.1
      | cons next rest =>
          rw [joined, List.intercalate_cons_cons, List.mem_append, List.mem_append]
          rintro ((hmem | hmem) | hmem)
          · exact hline.1 hmem
          · exact absurd hmem (by decide)
          · exact ih hrest hmem

/-- The lines of joined lines are those lines. -/
theorem textLines_joined {lines : List (List Char)} (h : BreakFree lines) :
    textLines (String.ofList (joined lines)) = if lines = [] then [[]] else lines := by
  rw [textLines, String.toList_ofList, unifyBreaks_eq_self (not_mem_joined h)]
  split
  next hnil =>
    rw [hnil]
    rfl
  next hne =>
    have hsplit := List.splitOn_intercalate '\n' (fun line hline => (h line hline).2) hne
    rw [List.splitOn_eq_splitOnP] at hsplit
    exact hsplit

/-! ## The three stages together -/

/-- The lines that are left before the text is trimmed. -/
def keptOf (text : String) : List (List Char) := (keptLines (textLines text)).rdropWhile isQuoted

theorem toList_stripQuotedReply (text : String) :
    (stripQuotedReply text).toList = trimChars (joined (keptOf text)) := String.toList_ofList

theorem keptOf_begins (text : String) : keptOf text <+: keptLines (textLines text) :=
  List.rdropWhile_prefix _ _

theorem keptOf_begins_textLines (text : String) : keptOf text <+: textLines text :=
  (keptOf_begins text).trans (keptLines_begins _)

/-- A line dropped from the end is quoted or blank. -/
theorem isQuoted_of_dropped {text : String} {i : Nat} (hkept : (keptOf text).length ≤ i)
    (hfirst : i < (keptLines (textLines text)).length) :
    isQuoted ((textLines text).getD i []) := by
  have hsplit : keptOf text ++ (keptLines (textLines text)).rtakeWhile isQuoted
      = keptLines (textLines text) := List.rdropWhile_append_rtakeWhile
  have hi : i < (textLines text).length :=
    lt_of_lt_of_le hfirst (keptLines_begins _).length_le
  rw [List.getD_eq_getElem?_getD, List.getElem?_eq_getElem hi, Option.getD_some,
    ← (keptLines_begins (textLines text)).getElem hfirst]
  refine List.mem_rtakeWhile_imp (l := keptLines (textLines text)) ?_
  have hlength := congrArg List.length hsplit
  rw [List.length_append] at hlength
  rw [← List.getElem_of_eq hsplit (by rw [hsplit]; exact hfirst),
    List.getElem_append_right hkept]
  exact List.getElem_mem _

theorem isQuoted_of_all {line : List Char} (h : line.all isSpace) : isQuoted line := by
  rw [isQuoted, Lib.dropWhile_eq_nil_of_all h]

theorem isQuoted_of_isQuote {line : List Char} (h : isQuote line) : isQuoted line := by
  rw [isQuote] at h
  rw [isQuoted]
  cases hdrop : line.dropWhile isSpace with
  | nil => rfl
  | cons c rest =>
      rw [hdrop, List.head?_cons, Option.some.injEq] at h
      exact decide_eq_true h

/-- Whether a line is quoted is read off its first character that is not blank. -/
theorem isQuoted_congr {line other : List Char}
    (h : (line.dropWhile isSpace).head? = (other.dropWhile isSpace).head?) :
    isQuoted line = isQuoted other := by
  rw [isQuoted, isQuoted]
  cases hline : line.dropWhile isSpace with
  | nil =>
      rw [hline, List.head?_nil, eq_comm, List.head?_eq_none_iff] at h
      rw [h]
  | cons c rest =>
      rw [hline, List.head?_cons, eq_comm, List.head?_eq_some_iff] at h
      obtain ⟨others, hothers⟩ := h
      rw [hothers]

/-- The last of the trimmed lines is not quoted. -/
theorem not_isQuoted_last (text : String) {line : List Char}
    (hline : (stripLines isSpace (keptOf text)).getLast? = some line) : isQuoted line = false := by
  cases hlast : (keptOf text).getLast? with
  | none =>
      rw [List.getLast?_eq_none_iff] at hlast
      rw [hlast] at hline
      cases hline
  | some last =>
      have hne : keptOf text ≠ [] := by
        intro hnil
        rw [hnil] at hlast
        cases hlast
      have hnot : isQuoted last = false := by
        have h := List.rdropWhile_last_not isQuoted _ hne
        rw [List.getLast?_eq_some_getLast hne, Option.some.injEq] at hlast
        rw [← hlast]
        exact Bool.not_eq_true _ ▸ h
      have hblank : last.all isSpace = false := by
        rw [← Bool.not_eq_true]
        intro hall
        rw [isQuoted_of_all hall] at hnot
        cases hnot
      obtain ⟨new, hnew, hhead⟩ := Lib.getLast?_stripLines hlast hblank
      rw [hnew, Option.some.injEq] at hline
      rw [← hline, isQuoted_congr hhead, hnot]

/-- The lines of the result, where there are any. -/
theorem textLines_stripQuotedReply {text : String} (h : BreaksPaired text) :
    textLines (stripQuotedReply text) =
      if stripLines isSpace (keptOf text) = [] then [[]]
      else stripLines isSpace (keptOf text) := by
  have hfree : BreakFree (keptOf text) := fun line hline =>
    breakFree_textLines h line ((keptOf_begins_textLines text).subset hline)
  rw [← textLines_joined hfree.stripLines, ← trimChars_joined, ← toList_stripQuotedReply,
    String.ofList_toList]

theorem keptLines_result {text : String} (h : BreaksPaired text) :
    keptLines (textLines (stripQuotedReply text)) = textLines (stripQuotedReply text) := by
  rw [textLines_stripQuotedReply h]
  split
  next => rfl
  next => exact keptLines_stripLines (keptLines_of_begins (keptOf_begins text))

/-- A result is its own kept lines, joined. -/
theorem joined_keptOf_result {text : String} (h : BreaksPaired text) :
    joined (keptOf (stripQuotedReply text)) = (stripQuotedReply text).toList := by
  have hresult : (stripQuotedReply text).toList = joined (stripLines isSpace (keptOf text)) := by
    rw [toList_stripQuotedReply, trimChars_joined]
  rw [keptOf, keptLines_result h, hresult, textLines_stripQuotedReply h]
  split
  next hnil =>
    rw [hnil]
    rfl
  next hne =>
    rw [List.rdropWhile_eq_self_iff.mpr]
    intro hlines
    rw [not_isQuoted_last text (List.getLast?_eq_some_getLast hlines)]
    exact Bool.false_ne_true

theorem trimChars_idempotent (text : List Char) : trimChars (trimChars text) = trimChars text :=
  Lib.strip_strip text

/-- `stripQuotedReply` takes a quoted tail off a text and nothing else, and
taking it off twice is taking it off once. -/
theorem quotedTailRemoved_stripQuotedReply (text : String) (h : BreaksPaired text) :
    QuotedTailRemoved text (stripQuotedReply text) ∧
      stripQuotedReply (stripQuotedReply text) = stripQuotedReply text := by
  refine ⟨⟨?_, ?_, ?_⟩, ?_⟩
  · refine ⟨(keptOf text).length, (keptLines (textLines text)).length,
      (keptOf_begins text).length_le, (keptLines_begins _).length_le,
      fun i hi => not_isHeaderAt_of_lt hi, isHeaderAt_length_keptLines,
      fun i => isQuoted_of_dropped, ?_⟩
    rw [toList_stripQuotedReply, ← List.prefix_iff_eq_take.mp (keptOf_begins_textLines text)]
  · exact not_isHeaderAt_of_keptLines (keptLines_result h)
  · intro line hline hquote
    rw [textLines_stripQuotedReply h] at hline
    split at hline
    next =>
      rw [List.getLast?_singleton, Option.some.injEq] at hline
      rw [← hline] at hquote
      cases hquote
    next =>
      have hnot := not_isQuoted_last text hline
      rw [isQuoted_of_isQuote hquote] at hnot
      cases hnot
  · rw [← String.toList_inj, toList_stripQuotedReply, joined_keptOf_result h,
      toList_stripQuotedReply, trimChars_idempotent]

/-- A reply below which a client put what it answers. -/
theorem quotedTailRemoved_bottom :
    BreaksPaired "Thanks!\r\n\r\n> Hello\r\n\r\nFrom: Budi\r\nSent: Tuesday" ∧
      QuotedTailRemoved "Thanks!\r\n\r\n> Hello\r\n\r\nFrom: Budi\r\nSent: Tuesday" "Thanks!" := by
  have hpaired : BreaksPaired "Thanks!\r\n\r\n> Hello\r\n\r\nFrom: Budi\r\nSent: Tuesday" := by
    decide
  have hresult : stripQuotedReply "Thanks!\r\n\r\n> Hello\r\n\r\nFrom: Budi\r\nSent: Tuesday"
      = "Thanks!" := by decide
  refine ⟨hpaired, ?_⟩
  rw [← hresult]
  exact (quotedTailRemoved_stripQuotedReply _ hpaired).1

end Vynor.Email
