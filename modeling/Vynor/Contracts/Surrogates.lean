import Vynor.Contracts.Content
import Vynor.Lib.JsText

/-!
# Surrogate pairs

A text is *well formed* when its code units are those of characters
(`wellFormed_iff`), so that no half of a pair stands alone.  A cut after `n` code
units breaks a well-formed text exactly where it halves a pair
(`wellFormed_take_iff`).  `truncatePreview` cuts between characters, whatever
their code units are (`previewUnits_codeUnits`).
-/

namespace Vynor

open Lib.JsValue (isLead isTrail)

/-! ## Halves -/

theorem isLead_iff {u : UInt16} : isLead u = true ↔ 0xd800 ≤ u.toNat ∧ u.toNat < 0xdc00 := by
  rw [isLead, Bool.and_eq_true, decide_eq_true_eq, decide_eq_true_eq, UInt16.le_iff_toNat_le,
    UInt16.lt_iff_toNat_lt]
  rfl

theorem isTrail_iff {u : UInt16} : isTrail u = true ↔ 0xdc00 ≤ u.toNat ∧ u.toNat < 0xe000 := by
  rw [isTrail, Bool.and_eq_true, decide_eq_true_eq, decide_eq_true_eq, UInt16.le_iff_toNat_le,
    UInt16.lt_iff_toNat_lt]
  rfl

/-- No code unit is both halves. -/
theorem not_isLead_of_isTrail {u : UInt16} (h : isTrail u = true) : isLead u = false := by
  rw [isTrail_iff] at h
  rw [Bool.eq_false_iff, Ne, isLead_iff]
  omega

/-- The code units of a character: one that is no half, or the halves of a pair. -/
theorem charUnits_cases (c : Char) :
    (∃ u, charUnits c = [u] ∧ isLead u = false ∧ isTrail u = false) ∨
      ∃ u v, charUnits c = [u, v] ∧ isLead u = true ∧ isTrail v = true := by
  have hc : c.toNat < 0xd800 ∨ 0xdfff < c.toNat ∧ c.toNat < 0x110000 := c.valid
  rw [charUnits]
  split
  next hsmall =>
    refine Or.inl ⟨_, rfl, ?_, ?_⟩
    · rw [Bool.eq_false_iff, Ne, isLead_iff, UInt16.toNat_ofNat_of_lt' hsmall]
      omega
    · rw [Bool.eq_false_iff, Ne, isTrail_iff, UInt16.toNat_ofNat_of_lt' hsmall]
      omega
  next hlarge =>
    have hlead : 0xd800 + (c.toNat - 0x10000) / 0x400 < 0x10000 := by omega
    have htrail : 0xdc00 + (c.toNat - 0x10000) % 0x400 < 0x10000 := by omega
    refine Or.inr ⟨_, _, rfl, ?_, ?_⟩
    · rw [isLead_iff, UInt16.toNat_ofNat_of_lt' hlead]
      omega
    · rw [isTrail_iff, UInt16.toNat_ofNat_of_lt' htrail]
      omega

/-! ## Well-formed texts -/

/-- No half of a pair stands alone. -/
def isWellFormed : CodeUnits → Bool
  | [] => true
  | [u] => !isLead u && !isTrail u
  | u :: v :: rest =>
      if isLead u then isTrail v && isWellFormed rest
      else !isTrail u && isWellFormed (v :: rest)

/-- A text whose code units are those of characters. -/
def WellFormed (units : CodeUnits) : Prop := isWellFormed units = true

instance (units : CodeUnits) : Decidable (WellFormed units) :=
  inferInstanceAs (Decidable (isWellFormed units = true))

theorem wellFormed_nil : WellFormed [] := rfl

theorem wellFormed_cons {u : UInt16} (hlead : isLead u = false) (htrail : isTrail u = false)
    (rest : CodeUnits) : WellFormed (u :: rest) ↔ WellFormed rest := by
  cases rest with
  | nil => simp [WellFormed, isWellFormed, hlead, htrail]
  | cons v rest => simp [WellFormed, isWellFormed, hlead, htrail]

theorem wellFormed_pair {u v : UInt16} (hlead : isLead u = true) (htrail : isTrail v = true)
    (rest : CodeUnits) : WellFormed (u :: v :: rest) ↔ WellFormed rest := by
  simp [WellFormed, isWellFormed, hlead, htrail]

/-- The first half of a pair needs the second. -/
theorem not_wellFormed_lead {u : UInt16} (hlead : isLead u = true) : ¬WellFormed [u] := by
  simp [WellFormed, isWellFormed, hlead]

theorem wellFormed_flatMap (cs : List Char) : WellFormed (cs.flatMap charUnits) := by
  induction cs with
  | nil => exact wellFormed_nil
  | cons c cs ih =>
      rw [List.flatMap_cons]
      rcases charUnits_cases c with ⟨u, heq, hlead, htrail⟩ | ⟨u, v, heq, hlead, htrail⟩
      · rw [heq]
        exact (wellFormed_cons hlead htrail _).mpr ih
      · rw [heq]
        exact (wellFormed_pair hlead htrail _).mpr ih

theorem exists_char {n : Nat} (h : n < 0xd800 ∨ 0xdfff < n ∧ n < 0x110000) :
    ∃ c : Char, c.toNat = n := ⟨Char.ofNatAux n h, rfl⟩

/-- A code unit that is no half is a character. -/
theorem exists_char_of_unit {u : UInt16} (hlead : isLead u = false) (htrail : isTrail u = false) :
    ∃ c, charUnits c = [u] := by
  have hbound : u.toNat < 0x10000 := u.toNat_lt
  rw [Bool.eq_false_iff, Ne, isLead_iff] at hlead
  rw [Bool.eq_false_iff, Ne, isTrail_iff] at htrail
  obtain ⟨c, hc⟩ := exists_char (n := u.toNat) (by omega)
  exact ⟨c, by rw [charUnits, hc, if_pos hbound, UInt16.ofNat_toNat]⟩

/-- The halves of a pair are a character. -/
theorem exists_char_of_pair {u v : UInt16} (hlead : isLead u = true) (htrail : isTrail v = true) :
    ∃ c, charUnits c = [u, v] := by
  rw [isLead_iff] at hlead
  rw [isTrail_iff] at htrail
  obtain ⟨c, hc⟩ := exists_char
    (n := 0x10000 + (u.toNat - 0xd800) * 0x400 + (v.toNat - 0xdc00)) (by omega)
  have hu : 0xd800 + (c.toNat - 0x10000) / 0x400 = u.toNat := by omega
  have hv : 0xdc00 + (c.toNat - 0x10000) % 0x400 = v.toNat := by omega
  exact ⟨c, by rw [charUnits, if_neg (by omega), hu, hv, UInt16.ofNat_toNat, UInt16.ofNat_toNat]⟩

theorem exists_chars_of_wellFormed (units : CodeUnits) (h : WellFormed units) :
    ∃ cs : List Char, cs.flatMap charUnits = units := by
  rw [WellFormed] at h
  induction units using isWellFormed.induct with
  | case1 => exact ⟨[], rfl⟩
  | case2 u =>
      rw [isWellFormed, Bool.and_eq_true, Bool.not_eq_true', Bool.not_eq_true'] at h
      obtain ⟨c, hc⟩ := exists_char_of_unit h.1 h.2
      exact ⟨[c], by rw [List.flatMap_cons, List.flatMap_nil, hc, List.append_nil]⟩
  | case3 u v rest hlead ih =>
      rw [isWellFormed, if_pos hlead, Bool.and_eq_true] at h
      obtain ⟨c, hc⟩ := exists_char_of_pair hlead h.1
      obtain ⟨cs, hcs⟩ := ih h.2
      exact ⟨c :: cs, by rw [List.flatMap_cons, hc, hcs]; rfl⟩
  | case4 u v rest hlead ih =>
      rw [isWellFormed, if_neg hlead, Bool.and_eq_true, Bool.not_eq_true'] at h
      obtain ⟨c, hc⟩ := exists_char_of_unit (Bool.eq_false_iff.mpr hlead) h.1
      obtain ⟨cs, hcs⟩ := ih h.2
      exact ⟨c :: cs, by rw [List.flatMap_cons, hc, hcs]; rfl⟩

/-- The well-formed texts are those of characters. -/
theorem wellFormed_iff {units : CodeUnits} : WellFormed units ↔ ∃ s, codeUnits s = units := by
  constructor
  · intro h
    obtain ⟨cs, hcs⟩ := exists_chars_of_wellFormed units h
    exact ⟨String.ofList cs, by rw [codeUnits, String.toList_ofList, hcs]⟩
  · rintro ⟨s, rfl⟩
    exact wellFormed_flatMap s.toList

/-! ## Cuts -/

/-- A cut after `n` code units separates the halves of a pair. -/
def Halves (n : Nat) (units : CodeUnits) : Prop :=
  n ≠ 0 ∧ units[n - 1]?.any isLead = true ∧ units[n]?.any isTrail = true

instance (n : Nat) (units : CodeUnits) : Decidable (Halves n units) :=
  inferInstanceAs (Decidable
    (n ≠ 0 ∧ units[n - 1]?.any isLead = true ∧ units[n]?.any isTrail = true))

theorem not_halves_zero (units : CodeUnits) : ¬Halves 0 units := fun h => h.1 rfl

/-- The units before and after the cut move along with it. -/
theorem halves_cons (n : Nat) (u : UInt16) (units : CodeUnits) :
    Halves (n + 2) (u :: units) ↔ Halves (n + 1) units := by
  simp [Halves]

theorem halves_one (u v : UInt16) (units : CodeUnits) :
    Halves 1 (u :: v :: units) ↔ isLead u = true ∧ isTrail v = true := by
  simp [Halves]

/-- A cut after a unit that is no first half halves nothing there. -/
theorem halves_cons_of_not_lead {u : UInt16} (h : isLead u = false) (n : Nat)
    (units : CodeUnits) : Halves (n + 1) (u :: units) ↔ Halves n units := by
  cases n with
  | zero => simp [Halves, h]
  | succ n => rw [halves_cons]

theorem wellFormed_take_flatMap_iff (cs : List Char) :
    ∀ n, WellFormed ((cs.flatMap charUnits).take n) ↔ ¬Halves n (cs.flatMap charUnits) := by
  induction cs with
  | nil =>
      intro n
      rw [List.flatMap_nil, List.take_nil]
      simp [wellFormed_nil, Halves]
  | cons c cs ih =>
      intro n
      rw [List.flatMap_cons]
      rcases charUnits_cases c with ⟨u, heq, hlead, htrail⟩ | ⟨u, v, heq, hlead, htrail⟩
      · rw [heq, List.singleton_append]
        cases n with
        | zero => exact iff_of_true wellFormed_nil (not_halves_zero _)
        | succ n =>
            rw [List.take_succ_cons, wellFormed_cons hlead htrail, ih n,
              halves_cons_of_not_lead hlead]
      · rw [heq, List.cons_append, List.singleton_append]
        match n with
        | 0 => exact iff_of_true wellFormed_nil (not_halves_zero _)
        | 1 =>
            exact iff_of_false (not_wellFormed_lead hlead)
              (not_not_intro ((halves_one u v _).mpr ⟨hlead, htrail⟩))
        | n + 2 =>
            rw [List.take_succ_cons, List.take_succ_cons, wellFormed_pair hlead htrail, ih n,
              halves_cons, halves_cons_of_not_lead (not_isLead_of_isTrail htrail)]

/-- A cut breaks a text exactly where it halves a pair. -/
theorem wellFormed_take_iff (s : String) (n : Nat) :
    WellFormed ((codeUnits s).take n) ↔ ¬Halves n (codeUnits s) :=
  wellFormed_take_flatMap_iff s.toList n

/-! ## Previews -/

/-- Whether `\s` matches a code unit. -/
def isSpaceUnit (u : UInt16) : Bool := isSpace (Char.ofNat u.toNat)

/-- `text.replace(/\s+/g, ' ')`.  `inRun` says that the unit before was a space. -/
def collapseUnits (inRun : Bool) : CodeUnits → CodeUnits
  | [] => []
  | u :: rest =>
      if isSpaceUnit u then
        if inRun then collapseUnits true rest else 32 :: collapseUnits true rest
      else u :: collapseUnits false rest

/-- `text.trim()`. -/
def trimUnits (units : CodeUnits) : CodeUnits :=
  ((units.dropWhile isSpaceUnit).reverse.dropWhile isSpaceUnit).reverse

/-- `Array.from(text)`: the characters, the halves of a pair together. -/
def arrayFrom : CodeUnits → List CodeUnits
  | [] => []
  | [u] => [[u]]
  | u :: v :: rest =>
      if isLead u && isTrail v then [u, v] :: arrayFrom rest else [u] :: arrayFrom (v :: rest)

/-- `truncatePreview` on code units. -/
def previewUnits (text : CodeUnits) : CodeUnits :=
  let singleLine := trimUnits (collapseUnits false text)
  let chars := arrayFrom singleLine
  if chars.length ≤ 280 then singleLine else (chars.take 279).flatten ++ codeUnits "…"

theorem isSpaceUnit_of_half {u : UInt16} (h : isLead u = true ∨ isTrail u = true) :
    isSpaceUnit u = false := by
  rw [isLead_iff, isTrail_iff] at h
  have hinvalid : ¬u.toNat.isValidChar := by
    rintro (hlow | hhigh)
    · omega
    · omega
  rw [isSpaceUnit, Char.ofNat, dif_neg hinvalid]
  rfl

/-- The code units of a space are one space, and those of another character are
none. -/
theorem isSpace_charUnits (c : Char) :
    (isSpace c = true ∧ ∃ u, charUnits c = [u] ∧ isSpaceUnit u = true) ∨
      isSpace c = false ∧ ∀ u ∈ charUnits c, isSpaceUnit u = false := by
  by_cases hsmall : c.toNat < 0x10000
  · have hunit : charUnits c = [UInt16.ofNat c.toNat] := by rw [charUnits, if_pos hsmall]
    have hspace : isSpaceUnit (UInt16.ofNat c.toNat) = isSpace c := by
      rw [isSpaceUnit, UInt16.toNat_ofNat_of_lt' hsmall, Char.ofNat_toNat]
    rw [hunit]
    cases hc : isSpace c with
    | true => exact Or.inl ⟨rfl, _, rfl, hspace.trans hc⟩
    | false => exact Or.inr ⟨rfl, List.forall_mem_singleton.mpr (hspace.trans hc)⟩
  · refine Or.inr ⟨?_, ?_⟩
    · rw [Bool.eq_false_iff]
      intro hspace
      simp only [isSpace, Bool.or_eq_true, decide_eq_true_eq, Bool.and_eq_true, List.mem_cons,
        List.not_mem_nil, or_false] at hspace
      omega
    · rcases charUnits_cases c with ⟨u, heq, _⟩ | ⟨u, v, heq, hlead, htrail⟩
      · rw [charUnits, if_neg hsmall] at heq
        cases heq
      · rw [heq]
        exact List.forall_mem_cons.mpr ⟨isSpaceUnit_of_half (Or.inl hlead),
          List.forall_mem_singleton.mpr (isSpaceUnit_of_half (Or.inr htrail))⟩

theorem collapseUnits_append {units : CodeUnits} (hne : units ≠ [])
    (h : ∀ u ∈ units, isSpaceUnit u = false) (inRun : Bool) (rest : CodeUnits) :
    collapseUnits inRun (units ++ rest) = units ++ collapseUnits false rest := by
  induction units generalizing inRun with
  | nil => exact absurd rfl hne
  | cons u units ih =>
      obtain ⟨hu, hunits⟩ := List.forall_mem_cons.mp h
      rw [List.cons_append, collapseUnits, hu, if_neg Bool.false_ne_true, List.cons_append]
      cases units with
      | nil => rfl
      | cons v units => rw [ih (List.cons_ne_nil v units) hunits]

theorem collapseUnits_flatMap (cs : List Char) : ∀ inRun,
    collapseUnits inRun (cs.flatMap charUnits) = (collapseSpaces inRun cs).flatMap charUnits := by
  induction cs with
  | nil => exact fun _ => rfl
  | cons c cs ih =>
      intro inRun
      rw [List.flatMap_cons]
      rcases isSpace_charUnits c with ⟨hspace, u, heq, hu⟩ | ⟨hspace, hunits⟩
      · rw [heq, List.singleton_append, collapseUnits, if_pos hu, collapseSpaces, if_pos hspace]
        cases inRun with
        | true => exact ih true
        | false => exact congrArg (32 :: ·) (ih true)
      · rw [collapseUnits_append (charUnits_ne_nil c) hunits, collapseSpaces, hspace,
          if_neg Bool.false_ne_true, List.flatMap_cons, ih]

/-- Spaces at the front are left out of the code units as they are of the
characters, in either direction. -/
theorem dropWhile_flatMap {f : Char → CodeUnits} (hf : ∀ c, (f c).Perm (charUnits c))
    (cs : List Char) :
    (cs.flatMap f).dropWhile isSpaceUnit = (cs.dropWhile isSpace).flatMap f := by
  induction cs with
  | nil => rfl
  | cons c cs ih =>
      rw [List.flatMap_cons]
      rcases isSpace_charUnits c with ⟨hspace, u, heq, hu⟩ | ⟨hspace, hunits⟩
      · have hfc : f c = [u] := List.perm_singleton.mp (heq ▸ hf c)
        rw [hfc, List.singleton_append, List.dropWhile_cons_of_pos hu,
          List.dropWhile_cons_of_pos hspace, ih]
      · rw [List.dropWhile_cons_of_neg (Bool.eq_false_iff.mp hspace), List.flatMap_cons]
        cases hfc : f c with
        | nil => exact absurd (List.nil_perm.mp (hfc ▸ hf c)) (charUnits_ne_nil c)
        | cons u units =>
            have hu : isSpaceUnit u = false :=
              hunits u ((hf c).subset (hfc ▸ List.mem_cons_self))
            rw [List.cons_append, List.dropWhile_cons_of_neg (Bool.eq_false_iff.mp hu)]

theorem trimUnits_flatMap (cs : List Char) :
    trimUnits (cs.flatMap charUnits) = (trimChars cs).flatMap charUnits := by
  have hreverse : ∀ c, (List.reverse ∘ charUnits) c |>.Perm (charUnits c) := fun c =>
    List.reverse_perm _
  have htwice : List.reverse ∘ List.reverse ∘ charUnits = charUnits :=
    funext fun c => List.reverse_reverse _
  rw [trimUnits, dropWhile_flatMap fun c => .refl _, List.reverse_flatMap,
    dropWhile_flatMap hreverse, List.reverse_flatMap, htwice, trimChars]

theorem arrayFrom_cons {u : UInt16} (h : isLead u = false) (rest : CodeUnits) :
    arrayFrom (u :: rest) = [u] :: arrayFrom rest := by
  cases rest with
  | nil => rfl
  | cons v rest => rw [arrayFrom, h, Bool.false_and, if_neg Bool.false_ne_true]

/-- The characters of a text are those it is made of. -/
theorem arrayFrom_flatMap (cs : List Char) :
    arrayFrom (cs.flatMap charUnits) = cs.map charUnits := by
  induction cs with
  | nil => rfl
  | cons c cs ih =>
      rw [List.flatMap_cons, List.map_cons]
      rcases charUnits_cases c with ⟨u, heq, hlead, _⟩ | ⟨u, v, heq, hlead, htrail⟩
      · rw [heq, List.singleton_append, arrayFrom_cons hlead, ih]
      · rw [heq, List.cons_append, List.singleton_append, arrayFrom, hlead, htrail, Bool.and_self,
          if_pos rfl, ih]

/-- The preview of a well-formed text is well formed: it is that of its
characters. -/
theorem previewUnits_codeUnits (s : String) :
    previewUnits (codeUnits s) = codeUnits (truncatePreview s) := by
  rw [previewUnits, codeUnits, collapseUnits_flatMap, trimUnits_flatMap, arrayFrom_flatMap,
    List.length_map, truncatePreview]
  split
  · rw [codeUnits, String.toList_ofList]
  · rw [← List.map_take, codeUnits, codeUnits, String.toList_ofList, String.toList_ofList,
      List.flatMap_append]
    exact congrArg (· ++ _) List.flatMap_def.symm

end Vynor
