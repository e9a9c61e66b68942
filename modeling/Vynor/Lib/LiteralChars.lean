import Vynor.Lib.Number

/-!
# The characters of numbers

A number is read from digits, letters of the hexadecimal digits and prefixes, and
a few marks (`mem_ofLiteral`).  A text with another character is no number, and is
printed for none (`mem_numberText`).
-/

namespace Lib

/-- A character that does not split a text is in one of its pieces. -/
theorem exists_piece {p : Char → Bool} {c : Char} (hp : p c = false) {cs : List Char}
    (hc : c ∈ cs) : ∃ piece ∈ cs.splitOnP p, c ∈ piece := by
  induction cs with
  | nil => cases hc
  | cons d cs ih =>
      rw [List.splitOnP_cons_eq_if_modifyHead]
      split
      next hd =>
        rcases List.mem_cons.mp hc with rfl | hc
        · rw [hp] at hd
          cases hd
        · obtain ⟨piece, hpiece, hmem⟩ := ih hc
          exact ⟨piece, List.mem_cons_of_mem _ hpiece, hmem⟩
      next =>
        obtain ⟨first, rest, hsplit⟩ := List.exists_cons_of_ne_nil (List.splitOnP_ne_nil p cs)
        rw [hsplit] at ih ⊢
        rw [List.modifyHead_cons]
        rcases List.mem_cons.mp hc with rfl | hc
        · exact ⟨_, List.mem_cons_self, List.mem_cons_self⟩
        · obtain ⟨piece, hpiece, hmem⟩ := ih hc
          rcases List.mem_cons.mp hpiece with rfl | hpiece
          · exact ⟨_, List.mem_cons_self, List.mem_cons_of_mem d hmem⟩
          · exact ⟨piece, List.mem_cons_of_mem _ hpiece, hmem⟩

theorem digitValue_of_natural? {base n : Nat} {cs : List Char} (h : natural? base cs = some n)
    {c : Char} (hc : c ∈ cs) : digitValue c < base := by
  cases cs with
  | nil => cases hc
  | cons d cs =>
      rw [natural?, digitsValue?] at h
      split at h
      next hall => exact of_decide_eq_true (List.all_eq_true.mp hall c hc)
      next => cases h

/-- The characters of a mantissa. -/
theorem mem_mantissa {cs : List Char} {m : Nat × Nat} (h : mantissa? cs = some m) {c : Char}
    (hc : c ∈ cs) : digitValue c < 10 ∨ c = '.' := by
  by_cases hpoint : c = '.'
  · exact Or.inr hpoint
  · left
    obtain ⟨piece, hpiece, hmem⟩ := exists_piece (p := fun d => d == '.') (by simpa using hpoint) hc
    rw [mantissa?, List.splitOn] at h
    split at h
    next whole hsplit =>
      obtain ⟨n, hn, _⟩ := Option.map_eq_some_iff.mp h
      rw [hsplit, List.mem_singleton] at hpiece
      exact digitValue_of_natural? hn (hpiece ▸ hmem)
    next whole fraction hsplit =>
      obtain ⟨n, hn, _⟩ := Option.map_eq_some_iff.mp h
      rw [hsplit] at hpiece
      refine digitValue_of_natural? hn ?_
      rcases List.mem_cons.mp hpiece with rfl | hpiece
      · exact List.mem_append_left _ hmem
      · exact List.mem_append_right _ (List.mem_singleton.mp hpiece ▸ hmem)
    next => cases h

/-- A character of a number that begins with a sign, or does not. -/
theorem mem_exponent {cs : List Char} {e : Int} (h : exponent? cs = some e) {c : Char}
    (hc : c ∈ cs) : digitValue c < 10 ∨ c = '+' ∨ c = '-' := by
  have hdigit : ∀ {ds : List Char}, c ∈ ds → (∃ n, natural? 10 ds = some n) →
      digitValue c < 10 ∨ c = '+' ∨ c = '-' := fun hmem ⟨_, hn⟩ =>
    Or.inl (digitValue_of_natural? hn hmem)
  unfold exponent? at h
  split at h
  · obtain ⟨_, hlift, _⟩ := Option.map_eq_some_iff.mp h
    obtain ⟨n, hn, _⟩ := Option.bind_eq_some_iff.mp hlift
    rcases List.mem_cons.mp hc with rfl | hc
    · exact Or.inr (Or.inl rfl)
    · exact hdigit hc ⟨n, hn⟩
  · obtain ⟨_, hlift, _⟩ := Option.map_eq_some_iff.mp h
    obtain ⟨n, hn, _⟩ := Option.bind_eq_some_iff.mp hlift
    rcases List.mem_cons.mp hc with rfl | hc
    · exact Or.inr (Or.inr rfl)
    · exact hdigit hc ⟨n, hn⟩
  · obtain ⟨_, hlift, _⟩ := Option.map_eq_some_iff.mp h
    obtain ⟨n, hn, _⟩ := Option.bind_eq_some_iff.mp hlift
    exact hdigit hc ⟨n, hn⟩

/-- The characters that literals are written with. -/
def IsLiteralChar (c : Char) : Prop := digitValue c < 16 ∨ c ∈ ['.', '+', '-', 'x', 'X', 'o', 'O']

instance (c : Char) : Decidable (IsLiteralChar c) := inferInstanceAs (Decidable (_ ∨ _))

theorem mem_decimal {cs : List Char} {q : Rat} (h : decimal? cs = some q) {c : Char}
    (hc : c ∈ cs) : IsLiteralChar c := by
  have hmantissa : digitValue c < 10 ∨ c = '.' → IsLiteralChar c := by
    rintro (hdigit | rfl)
    · exact Or.inl (by omega)
    · decide
  by_cases hmark : (decide (c = 'e') || decide (c = 'E')) = true
  · rw [Bool.or_eq_true, decide_eq_true_eq, decide_eq_true_eq] at hmark
    rcases hmark with rfl | rfl <;> decide
  · obtain ⟨piece, hpiece, hmem⟩ := exists_piece
      (p := fun d => decide (d = 'e') || decide (d = 'E')) (Bool.not_eq_true _ ▸ hmark) hc
    unfold decimal? at h
    split at h
    next digits hsplit =>
      obtain ⟨m, hm, _⟩ := Option.map_eq_some_iff.mp h
      rw [hsplit, List.mem_singleton] at hpiece
      exact hmantissa (mem_mantissa hm (hpiece ▸ hmem))
    next digits exponent hsplit =>
      obtain ⟨m, hm, he⟩ := Option.bind_eq_some_iff.mp h
      obtain ⟨e, he, _⟩ := Option.map_eq_some_iff.mp he
      rw [hsplit] at hpiece
      rcases List.mem_cons.mp hpiece with rfl | hpiece
      · exact hmantissa (mem_mantissa hm hmem)
      · rcases mem_exponent he (List.mem_singleton.mp hpiece ▸ hmem) with hdigit | rfl | rfl
        · exact Or.inl (by omega)
        · decide
        · decide
    next => cases h

theorem mem_signed {cs : List Char} {q : Rat} (h : signed? decimal? cs = some q) {c : Char}
    (hc : c ∈ cs) : IsLiteralChar c := by
  unfold signed? at h
  split at h
  · rcases List.mem_cons.mp hc with rfl | hc
    · decide
    · exact mem_decimal h hc
  · obtain ⟨q', hq, _⟩ := Option.map_eq_some_iff.mp h
    rcases List.mem_cons.mp hc with rfl | hc
    · decide
    · exact mem_decimal hq hc
  · exact mem_decimal h hc

/-- A number is only read from characters of literals. -/
theorem mem_ofLiteral {cs : List Char} {value : Rat} (h : Number.ofLiteral cs = .finite value)
    {c : Char} (hc : c ∈ cs) : IsLiteralChar c := by
  have hsome : ∀ {o : Option Rat}, (o.map Number.round).getD .nan = .finite value →
      ∃ q, o = some q := by
    intro o ho
    cases o with
    | none => cases ho
    | some q => exact ⟨q, rfl⟩
  have hprefixed : ∀ {base : Nat} {d : Char} {rest : List Char}, base ≤ 16 → IsLiteralChar d →
      c ∈ '0' :: d :: rest →
        (∃ q, (do let n ← natural? base rest; pure (n : Rat)) = some q) → IsLiteralChar c := by
    rintro base d rest hbase hd hmem ⟨q, hq⟩
    obtain ⟨n, hn, _⟩ := Option.bind_eq_some_iff.mp hq
    rcases List.mem_cons.mp hmem with rfl | hmem
    · decide
    · rcases List.mem_cons.mp hmem with rfl | hmem
      · exact hd
      · exact Or.inl (lt_of_lt_of_le (digitValue_of_natural? hn hmem) hbase)
  unfold Number.ofLiteral at h
  split at h
  · cases hc
  · exact hprefixed (by decide) (by decide) hc (hsome h)
  · exact hprefixed (by decide) (by decide) hc (hsome h)
  · exact hprefixed (by decide) (by decide) hc (hsome h)
  · exact hprefixed (by decide) (by decide) hc (hsome h)
  · exact hprefixed (by decide) (by decide) hc (hsome h)
  · exact hprefixed (by decide) (by decide) hc (hsome h)
  · split at h
    · cases h
    · split at h
      · cases h
      · obtain ⟨q, hq⟩ := hsome h
        exact mem_signed hq hc

/-! ## What is printed -/

theorem isLiteralChar_of_mem_toDigits {n : Nat} {c : Char} (hc : c ∈ Nat.toDigits 10 n) :
    IsLiteralChar c := by
  have hdigit : c.isDigit = true := Nat.isDigit_of_mem_toDigits (by decide) (by decide) hc
  rw [Char.isDigit, Bool.and_eq_true, decide_eq_true_eq, decide_eq_true_eq] at hdigit
  have hrange : '0' ≤ c ∧ c ≤ '9' := hdigit
  have hle : c.toNat ≤ 57 := hdigit.2
  refine Or.inl ?_
  rw [digitValue, if_pos hrange]
  change c.toNat - 48 < 16
  omega

theorem mem_decimalText {s : Nat} {m : Int} {c : Char} (hc : c ∈ decimalText s m) :
    IsLiteralChar c := by
  have hdigits : ∀ d ∈ Nat.toDigits 10 s, IsLiteralChar d := fun _ =>
    isLiteralChar_of_mem_toDigits
  have hzeros : ∀ k, c ∈ List.replicate k '0' → IsLiteralChar c := by
    intro k hzero
    rw [List.eq_of_mem_replicate hzero]
    decide
  simp only [decimalText] at hc
  generalize Nat.toDigits 10 s = digits at hdigits hc
  split at hc
  next =>
    rcases List.mem_append.mp hc with hc | hc
    · exact hdigits c hc
    · exact hzeros _ hc
  next =>
    split at hc
    next =>
      rcases List.mem_append.mp hc with hc | hc
      · exact hdigits c (List.mem_of_mem_take hc)
      · rcases List.mem_cons.mp hc with rfl | hc
        · decide
        · exact hdigits c (List.mem_of_mem_drop hc)
    next =>
      split at hc
      next =>
        rcases List.mem_append.mp hc with hc | hc
        · rcases List.mem_append.mp hc with hc | hc
          · have hprefix : c ∈ ['0', '.'] := hc
            rcases List.mem_cons.mp hprefix with rfl | hpoint
            · decide
            · rw [List.mem_singleton.mp hpoint]
              decide
          · exact hzeros _ hc
        · exact hdigits c hc
      next =>
        rcases List.mem_append.mp hc with hc | hc
        · split at hc
          next =>
            rcases List.mem_cons.mp hc with rfl | hc
            · exact hdigits c List.mem_cons_self
            · rcases List.mem_cons.mp hc with rfl | hc
              · decide
              · exact hdigits c (List.mem_cons_of_mem _ hc)
          next => exact hdigits c hc
        · rcases List.mem_cons.mp hc with rfl | hc
          · decide
          · rcases List.mem_cons.mp hc with rfl | hc
            · split
              · decide
              · decide
            · exact isLiteralChar_of_mem_toDigits hc

/-- A number is only printed with characters of literals. -/
theorem mem_numberText {value : Rat} {c : Char} (hc : c ∈ (numberText value).toList) :
    IsLiteralChar c := by
  unfold numberText at hc
  split at hc
  next =>
    have hzero : c ∈ ['0'] := hc
    rw [List.mem_singleton.mp hzero]
    decide
  next =>
    cases hdecimal : shortestDecimal? |value| with
    | none =>
        simp only [hdecimal] at hc
        cases hc
    | some decimal =>
        simp only [hdecimal, String.toList_ofList] at hc
        rcases List.mem_append.mp hc with hc | hc
        · split at hc
          next =>
            rw [List.mem_singleton.mp hc]
            decide
          next => cases hc
        · exact mem_decimalText hc

end Lib
