import Mathlib.Data.List.DropRight
import Mathlib.Data.List.TakeWhile

/-!
# Stripping a text made of lines

A text is its lines joined by a separator.  `strip` takes the outer run of
blank characters off a text.  Where the separator is blank itself, `strip` can
be done on the lines: `stripFront` drops the blank lines at the front and what
is blank before the first other line, `stripBack` does the same at the back,
and `strip_join` says that the two agree.
-/

namespace Lib

variable {α : Type*} (blank : α → Bool)

/-- A text without the blank characters around it. -/
def strip (text : List α) : List α := (text.dropWhile blank).rdropWhile blank

/-- The lines from the first that is not blank on, with its front stripped. -/
def stripFront : List (List α) → List (List α)
  | [] => []
  | line :: rest =>
      if line.all blank then stripFront rest else line.dropWhile blank :: rest

/-- The lines up to the last that is not blank, with its back stripped. -/
def stripBack : List (List α) → List (List α)
  | [] => []
  | line :: rest =>
      if rest.all (fun line => line.all blank) then
        if line.all blank then [] else [line.rdropWhile blank]
      else line :: stripBack rest

/-- The lines of a stripped text. -/
def stripLines (lines : List (List α)) : List (List α) := stripBack blank (stripFront blank lines)

variable {blank}

/-! ## One text -/

theorem dropWhile_eq_nil_of_all {text : List α} (h : text.all blank) : text.dropWhile blank = [] :=
  List.dropWhile_eq_nil_iff.mpr (List.all_eq_true.mp h)

theorem rdropWhile_eq_nil_of_all {text : List α} (h : text.all blank) :
    text.rdropWhile blank = [] :=
  List.rdropWhile_eq_nil_iff.mpr (List.all_eq_true.mp h)

theorem rdropWhile_append_of_all {text back : List α} (h : back.all blank) :
    (text ++ back).rdropWhile blank = text.rdropWhile blank := by
  rw [List.rdropWhile, List.reverse_append,
    List.dropWhile_append_of_pos fun c hc => List.all_eq_true.mp h c (List.mem_reverse.mp hc)]
  rfl

theorem dropWhile_append_of_not_all {text back : List α} (h : text.all blank = false) :
    (text ++ back).dropWhile blank = text.dropWhile blank ++ back := by
  rw [List.dropWhile_append, if_neg]
  intro hempty
  rw [List.isEmpty_iff, List.dropWhile_eq_nil_iff] at hempty
  rw [List.all_eq_true.mpr hempty] at h
  cases h

theorem rdropWhile_append_of_not_all {text back : List α} (h : back.all blank = false) :
    (text ++ back).rdropWhile blank = text ++ back.rdropWhile blank := by
  have hrev : back.reverse.all blank = false := by rw [List.all_reverse, h]
  rw [List.rdropWhile, List.reverse_append, dropWhile_append_of_not_all hrev, List.reverse_append,
    List.reverse_reverse]
  rfl

/-- What is left begins and ends with a character that is not blank. -/
theorem dropWhile_strip (text : List α) :
    (strip blank text).dropWhile blank = strip blank text := by
  rw [List.dropWhile_eq_self_iff]
  intro hne
  have hbegins : strip blank text <+: text.dropWhile blank := List.rdropWhile_prefix blank _
  have hfront : 0 < (text.dropWhile blank).length := lt_of_lt_of_le hne hbegins.length_le
  rw [hbegins.getElem hne]
  exact List.dropWhile_get_zero_not _ _ hfront

theorem strip_strip (text : List α) : strip blank (strip blank text) = strip blank text := by
  rw [strip, dropWhile_strip]
  exact List.rdropWhile_idempotent _ _

/-- Stripping the front of a text first changes nothing. -/
theorem strip_dropWhile (text : List α) :
    strip blank (text.dropWhile blank) = strip blank text := by
  rw [strip, List.dropWhile_idempotent]
  rfl

theorem strip_append_of_all {back : List α} (h : back.all blank) (text : List α) :
    strip blank (text ++ back) = strip blank text := by
  cases hall : text.all blank with
  | true =>
      rw [strip, dropWhile_eq_nil_of_all (by rw [List.all_append, hall, h]; rfl), strip,
        dropWhile_eq_nil_of_all hall]
  | false => rw [strip, dropWhile_append_of_not_all hall, rdropWhile_append_of_all h, strip]

/-- Nor does stripping its back first. -/
theorem strip_rdropWhile (text : List α) :
    strip blank (text.rdropWhile blank) = strip blank text := by
  have hback : (text.rtakeWhile blank).all blank :=
    List.all_eq_true.mpr fun c hc => List.mem_rtakeWhile_imp hc
  rw [← strip_append_of_all hback, List.rdropWhile_append_rtakeWhile]

/-! ## Joined lines -/

variable {sep : α}

theorem all_join (hsep : blank sep) (lines : List (List α)) :
    ([sep].intercalate lines).all blank = lines.all fun line => line.all blank := by
  induction lines with
  | nil => rfl
  | cons line rest ih =>
      cases rest with
      | nil => simp
      | cons next rest =>
          rw [List.intercalate_cons_cons, List.all_append, List.all_append, ih]
          simp [hsep]

theorem dropWhile_join (hsep : blank sep) (lines : List (List α)) :
    ([sep].intercalate lines).dropWhile blank = [sep].intercalate (stripFront blank lines) := by
  induction lines with
  | nil => rfl
  | cons line rest ih =>
      rw [stripFront]
      cases hall : line.all blank with
      | true =>
          rw [if_pos rfl, ← ih]
          cases rest with
          | nil =>
              rw [List.intercalate_singleton, dropWhile_eq_nil_of_all hall]
              rfl
          | cons next rest =>
              have hfront : (line ++ [sep]).all blank := by simp [hall, hsep]
              rw [List.intercalate_cons_cons,
                List.dropWhile_append_of_pos (List.all_eq_true.mp hfront)]
      | false =>
          rw [if_neg Bool.false_ne_true]
          cases rest with
          | nil => rw [List.intercalate_singleton, List.intercalate_singleton]
          | cons next rest =>
              rw [List.intercalate_cons_cons, List.append_assoc, dropWhile_append_of_not_all hall,
                List.intercalate_cons_cons, List.append_assoc]

theorem stripBack_ne_nil {lines : List (List α)}
    (h : (lines.all fun line => line.all blank) = false) : stripBack blank lines ≠ [] := by
  cases lines with
  | nil => cases h
  | cons line rest =>
      rw [stripBack]
      split
      next hrest =>
        rw [List.all_cons, hrest, Bool.and_true] at h
        rw [h, if_neg Bool.false_ne_true]
        exact List.cons_ne_nil _ _
      next => exact List.cons_ne_nil _ _

theorem rdropWhile_join (hsep : blank sep) (lines : List (List α)) :
    ([sep].intercalate lines).rdropWhile blank = [sep].intercalate (stripBack blank lines) := by
  induction lines with
  | nil => rfl
  | cons line rest ih =>
      rw [stripBack]
      cases hrest : rest.all fun line => line.all blank with
      | true =>
          rw [if_pos rfl]
          have hline : ([sep].intercalate (line :: rest)).rdropWhile blank
              = line.rdropWhile blank := by
            cases rest with
            | nil => rw [List.intercalate_singleton]
            | cons next rest =>
                rw [← all_join hsep] at hrest
                rw [List.intercalate_cons_cons, List.append_assoc,
                  rdropWhile_append_of_all (by simp [hsep, hrest])]
          rw [hline]
          cases hall : line.all blank with
          | true => rw [if_pos rfl, rdropWhile_eq_nil_of_all hall, List.intercalate_nil]
          | false => rw [if_neg Bool.false_ne_true, List.intercalate_singleton]
      | false =>
          have hne : rest ≠ [] := by
            rintro rfl
            cases hrest
          rw [if_neg Bool.false_ne_true, List.intercalate_cons_of_ne_nil hne,
            List.intercalate_cons_of_ne_nil (stripBack_ne_nil hrest), ← ih, List.append_assoc,
            List.append_assoc, ← List.append_assoc, ← List.append_assoc]
          exact rdropWhile_append_of_not_all (by rw [all_join hsep, hrest])

/-- A text is stripped by stripping its lines. -/
theorem strip_join (hsep : blank sep) (lines : List (List α)) :
    strip blank ([sep].intercalate lines) = [sep].intercalate (stripLines blank lines) := by
  rw [strip, dropWhile_join hsep, rdropWhile_join hsep, stripLines]

/-! ## What stripping does to the lines -/

/-- A character of a stripped line is one of the lines' own. -/
theorem mem_of_mem_stripFront {lines : List (List α)} {line : List α} {c : α}
    (hline : line ∈ stripFront blank lines) (hc : c ∈ line) : ∃ old ∈ lines, c ∈ old := by
  induction lines with
  | nil => cases hline
  | cons first rest ih =>
      rw [stripFront] at hline
      split at hline
      next =>
        obtain ⟨old, hold, hmem⟩ := ih hline
        exact ⟨old, List.mem_cons_of_mem first hold, hmem⟩
      next =>
        rcases List.mem_cons.mp hline with rfl | hline
        · exact ⟨first, List.mem_cons_self, (List.dropWhile_sublist blank).subset hc⟩
        · exact ⟨line, List.mem_cons_of_mem first hline, hc⟩

theorem mem_of_mem_stripBack {lines : List (List α)} {line : List α} {c : α}
    (hline : line ∈ stripBack blank lines) (hc : c ∈ line) : ∃ old ∈ lines, c ∈ old := by
  induction lines with
  | nil => cases hline
  | cons first rest ih =>
      rw [stripBack] at hline
      split at hline
      next =>
        split at hline
        next => cases hline
        next =>
          rw [List.mem_singleton] at hline
          rw [hline] at hc
          exact ⟨first, List.mem_cons_self, (List.rdropWhile_prefix blank _).subset hc⟩
      next =>
        rcases List.mem_cons.mp hline with rfl | hline
        · exact ⟨line, List.mem_cons_self, hc⟩
        · obtain ⟨old, hold, hmem⟩ := ih hline
          exact ⟨old, List.mem_cons_of_mem first hold, hmem⟩

theorem mem_of_mem_stripLines {lines : List (List α)} {line : List α} {c : α}
    (hline : line ∈ stripLines blank lines) (hc : c ∈ line) : ∃ old ∈ lines, c ∈ old := by
  obtain ⟨middle, hmiddle, hmem⟩ := mem_of_mem_stripBack hline hc
  exact mem_of_mem_stripFront hmiddle hmem

/-- The last line keeps its first character that is not blank. -/
theorem getLast?_stripFront {lines : List (List α)} {last : List α}
    (hlast : lines.getLast? = some last) (hblank : last.all blank = false) :
    ∃ new, (stripFront blank lines).getLast? = some new ∧
      new.dropWhile blank = last.dropWhile blank := by
  induction lines with
  | nil => cases hlast
  | cons line rest ih =>
      rw [stripFront]
      cases rest with
      | nil =>
          rw [List.getLast?_singleton, Option.some.injEq] at hlast
          rw [hlast, hblank, if_neg Bool.false_ne_true]
          exact ⟨last.dropWhile blank, rfl, List.dropWhile_idempotent _ _⟩
      | cons next rest =>
          rw [List.getLast?_cons_cons] at hlast
          split
          next => exact ih hlast
          next => exact ⟨last, by rw [List.getLast?_cons_cons, hlast], rfl⟩

theorem getLast?_stripBack {lines : List (List α)} {last : List α}
    (hlast : lines.getLast? = some last) (hblank : last.all blank = false) :
    (stripBack blank lines).getLast? = some (last.rdropWhile blank) := by
  induction lines with
  | nil => cases hlast
  | cons line rest ih =>
      rw [stripBack]
      cases rest with
      | nil =>
          rw [List.getLast?_singleton, Option.some.injEq] at hlast
          rw [hlast, hblank, List.all_nil, if_pos rfl, if_neg Bool.false_ne_true,
            List.getLast?_singleton]
      | cons next rest =>
          rw [List.getLast?_cons_cons] at hlast
          have hrest : ((next :: rest).all fun line => line.all blank) = false := by
            rw [List.all_eq_false]
            exact ⟨last, List.mem_of_getLast? hlast, by rw [hblank]; exact Bool.false_ne_true⟩
          rw [hrest, if_neg Bool.false_ne_true]
          cases hback : stripBack blank (next :: rest) with
          | nil => exact absurd hback (stripBack_ne_nil hrest)
          | cons first back =>
              rw [List.getLast?_cons_cons, ← hback]
              exact ih hlast

theorem head?_dropWhile_rdropWhile {line : List α} (hblank : line.all blank = false) :
    ((line.rdropWhile blank).dropWhile blank).head? = (line.dropWhile blank).head? := by
  have hback : (line.rtakeWhile blank).all blank :=
    List.all_eq_true.mpr fun c hc => List.mem_rtakeWhile_imp hc
  have hsplit : line.rdropWhile blank ++ line.rtakeWhile blank = line :=
    List.rdropWhile_append_rtakeWhile
  have hfront : (line.rdropWhile blank).all blank = false := by
    rw [← hsplit, List.all_append, hback, Bool.and_true] at hblank
    exact hblank
  have hne : (line.rdropWhile blank).dropWhile blank ≠ [] := by
    rw [Ne, List.dropWhile_eq_nil_iff, ← List.all_eq_true, hfront]
    exact Bool.false_ne_true
  calc ((line.rdropWhile blank).dropWhile blank).head?
      = ((line.rdropWhile blank).dropWhile blank ++ line.rtakeWhile blank).head? := by
        rw [List.head?_append_of_ne_nil _ hne]
    _ = (line.dropWhile blank).head? := by
        rw [← dropWhile_append_of_not_all hfront, hsplit]

theorem getLast?_stripLines {lines : List (List α)} {last : List α}
    (hlast : lines.getLast? = some last) (hblank : last.all blank = false) :
    ∃ new, (stripLines blank lines).getLast? = some new ∧
      (new.dropWhile blank).head? = (last.dropWhile blank).head? := by
  obtain ⟨front, hfront, hsame⟩ := getLast?_stripFront hlast hblank
  have hnot : front.all blank = false := by
    rw [← Bool.not_eq_true, List.all_eq_true, ← List.dropWhile_eq_nil_iff, hsame,
      List.dropWhile_eq_nil_iff, ← List.all_eq_true, hblank]
    exact Bool.false_ne_true
  refine ⟨front.rdropWhile blank, getLast?_stripBack hfront hnot, ?_⟩
  rw [head?_dropWhile_rdropWhile hnot, hsame]

end Lib
