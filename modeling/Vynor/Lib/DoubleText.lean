import Vynor.Lib.JsonText
import Vynor.Lib.Rounding

/-!
# Texts of doubles

`numberText` finds a text for every double, because 17 digits are enough
(`exists_shortestDecimal`), and the text is a number literal that is read back
as the double (`readsBack_of_round`).
-/

namespace Lib

/-! ## Seventeen digits -/

theorem ten_zpow_pos (n : Int) : (0 : Rat) < 10 ^ n := zpow_pos (by norm_num) n

/-- A positive double is not too small and not too great. -/
theorem double_bounds {x : Rat} (hx : 0 < x) (h : Number.round x = .finite x) :
    (10 : Rat) ^ (-325 : Int) ≤ x ∧ x < 10 ^ (314 : Int) := by
  obtain ⟨j, hj, hvalue, hlt⟩ := exists_multiple hx h
  constructor
  · have hone : (1 : Rat) ≤ j := by exact_mod_cast hj
    have hunit : (2 : Rat) ^ (-1074 : Int) ≤ 2 ^ unitExponent x :=
      zpow_le_zpow_right₀ (by norm_num) (unitExponent_ge x)
    have hsmall : (10 : Rat) ^ (-325 : Int) ≤ 2 ^ (-1074 : Int) := by
      have hnat : (2 : Nat) ^ 1074 ≤ 10 ^ 325 := by decide +kernel
      have hrat : (2 : Rat) ^ 1074 ≤ 10 ^ 325 := by exact_mod_cast hnat
      rw [zpow_neg, zpow_neg]
      exact inv_anti₀ (two_zpow_pos 1074) hrat
    calc (10 : Rat) ^ (-325 : Int) ≤ 2 ^ unitExponent x := le_trans hsmall hunit
      _ ≤ j * 2 ^ unitExponent x := le_mul_of_one_le_left (two_zpow_pos _).le hone
      _ = x := hvalue.symm
  · have hnat : (2 : Nat) ^ 1024 ≤ 10 ^ 314 := by decide +kernel
    have hgreat : (2 : Rat) ^ 1024 ≤ 10 ^ 314 := by exact_mod_cast hnat
    exact lt_of_lt_of_le hlt hgreat

theorem exists_decimalExponent {x : Rat} (hlow : (10 : Rat) ^ (-325 : Int) ≤ x)
    (hhigh : x < 10 ^ (314 : Int)) :
    ∃ n, decimalExponent? x = some n ∧ (10 : Rat) ^ (n - 1) ≤ x ∧ x < 10 ^ n := by
  have hfind : decimalExponent? x =
      ((List.range 640).find? fun (i : Nat) => decide (x < (10 : Rat) ^ ((i : Int) - 325))).map
        fun (i : Nat) => (i : Int) - 325 := by
    rw [decimalExponent?, List.find?_map]
    rfl
  have hsome : ((List.range 640).find? fun (i : Nat) =>
      decide (x < (10 : Rat) ^ ((i : Int) - 325))).isSome := by
    rw [List.find?_isSome]
    exact ⟨639, List.mem_range.mpr (by decide), decide_eq_true hhigh⟩
  obtain ⟨i, hi⟩ := Option.isSome_iff_exists.mp hsome
  rw [hi, Option.map_some] at hfind
  rw [List.find?_range_eq_some] at hi
  obtain ⟨hlt, _, hfirst⟩ := hi
  refine ⟨(i : Int) - 325, hfind, ?_, of_decide_eq_true hlt⟩
  cases i with
  | zero => exact absurd (of_decide_eq_true hlt) (not_lt.mpr hlow)
  | succ i =>
      have hbefore := hfirst i (Nat.lt_succ_self i)
      rw [Bool.not_eq_true', decide_eq_false_iff_not, not_lt] at hbefore
      have hexponent : ((i + 1 : Nat) : Int) - 325 - 1 = (i : Int) - 325 := by
        push_cast
        ring
      rwa [hexponent]

/-- A decimal that is found is read as the number. -/
theorem round_of_decimalOf? {x : Rat} {n m : Int} {k s : Nat} (h : decimalOf? x n k = some (s, m)) :
    Number.round (s * (10 : Rat) ^ m) = .finite x := by
  simp only [decimalOf?] at h
  generalize (x / (10 : Rat) ^ (n - k)).floor.toNat = below at h
  have habove :
      Number.round (((below + 1 : Nat) : Rat) * (10 : Rat) ^ (n - (k : Int))) = .finite x →
      (if below + 1 = 10 ^ k then ((1 : Nat), n) else (below + 1, n - k)) = (s, m) →
        Number.round (s * (10 : Rat) ^ m) = .finite x := by
    intro hread heq
    split at heq
    next hten =>
      cases heq
      rw [hten, ← ten_zpow_sub] at hread
      rwa [Nat.cast_one, one_mul]
    next =>
      cases heq
      exact hread
  have hbelow : Number.round ((below : Rat) * (10 : Rat) ^ (n - (k : Int))) = .finite x →
      some (below, n - (k : Int)) = some (s, m) →
        Number.round (s * (10 : Rat) ^ m) = .finite x := by
    intro hread heq
    cases heq
    exact hread
  split at h
  next hboth =>
    rw [Bool.and_eq_true, decide_eq_true_eq, decide_eq_true_eq] at hboth
    split at h
    next => exact hbelow hboth.1 h
    next =>
      split at h
      next => exact habove hboth.2 (Option.some.inj h)
      next =>
        split at h
        next => exact hbelow hboth.1 h
        next => exact habove hboth.2 (Option.some.inj h)
  next =>
    split at h
    next hread => exact hbelow (of_decide_eq_true hread) h
    next =>
      split at h
      next hread => exact habove (of_decide_eq_true hread) (Option.some.inj h)
      next => cases h

/-- Seventeen digits are enough. -/
theorem decimalOf?_seventeen {x : Rat} {n : Int} (hx : 0 < x) (h : Number.round x = .finite x)
    (hlow : (10 : Rat) ^ (n - 1) ≤ x) : (decimalOf? x n 17).isSome := by
  have hP := ten_zpow_pos (n - (17 : Nat))
  have hscale : (10 : Rat) ^ (n - 1) = 10 ^ 16 * 10 ^ (n - (17 : Nat)) := by
    rw [← zpow_natCast, ← zpow_add₀ (by norm_num)]
    congr 1
    push_cast
    ring
  rw [hscale] at hlow
  have hfloor := Rat.floor_le (x / (10 : Rat) ^ (n - (17 : Nat)))
  have hnext : x / (10 : Rat) ^ (n - (17 : Nat))
      < (x / (10 : Rat) ^ (n - (17 : Nat))).floor + 1 := by
    exact_mod_cast Rat.lt_floor_add_one (x / (10 : Rat) ^ (n - (17 : Nat)))
  have hnonneg : 0 ≤ (x / (10 : Rat) ^ (n - (17 : Nat))).floor :=
    Rat.le_floor_iff.mpr (by exact_mod_cast (div_pos hx hP).le)
  have hcast : (((x / (10 : Rat) ^ (n - (17 : Nat))).floor.toNat : Nat) : Rat)
      = (x / (10 : Rat) ^ (n - (17 : Nat))).floor := by
    have hint : (((x / (10 : Rat) ^ (n - (17 : Nat))).floor.toNat : Nat) : Int)
        = (x / (10 : Rat) ^ (n - (17 : Nat))).floor := Int.toNat_of_nonneg hnonneg
    rw [← Int.cast_natCast, hint]
  rw [le_div_iff₀ hP, ← hcast] at hfloor
  rw [div_lt_iff₀ hP, ← hcast] at hnext
  simp only [decimalOf?]
  generalize (x / (10 : Rat) ^ (n - ((17 : Nat) : Int))).floor.toNat = below at hfloor hnext ⊢
  have hone : Number.round ((below : Rat) * (10 : Rat) ^ (n - ((17 : Nat) : Int))) = .finite x ∨
      Number.round (((below + 1 : Nat) : Rat) * (10 : Rat) ^ (n - ((17 : Nat) : Int)))
        = .finite x := by
    rcases le_total (2 * (x - below * (10 : Rat) ^ (n - ((17 : Nat) : Int))))
      ((10 : Rat) ^ (n - ((17 : Nat) : Int))) with hnear | hfar
    · refine Or.inl (round_of_near hx h ?_)
      rw [abs_of_nonpos (by linarith), le_div_iff₀ (by norm_num)]
      linarith
    · refine Or.inr (round_of_near hx h ?_)
      rw [Nat.cast_add, Nat.cast_one, abs_of_nonneg (by linarith), le_div_iff₀ (by norm_num)]
      linarith
  split
  next =>
    split
    · rfl
    · split
      · rfl
      · split <;> rfl
  next =>
    split
    next => rfl
    next hbelow =>
      split
      next => rfl
      next habove =>
        rcases hone with hone | hone
        · exact absurd (decide_eq_true hone) hbelow
        · exact absurd (decide_eq_true hone) habove

/-- A decimal is found for every positive double, and is read as the double. -/
theorem exists_shortestDecimal {x : Rat} (hx : 0 < x) (h : Number.round x = .finite x) :
    ∃ s m, shortestDecimal? x = some (s, m) ∧ 0 < s ∧
      Number.round (s * (10 : Rat) ^ m) = .finite x := by
  obtain ⟨hlow, hhigh⟩ := double_bounds hx h
  obtain ⟨n, hn, hnlow, _⟩ := exists_decimalExponent hlow hhigh
  have hsome : ((List.range 17).findSome? fun k => decimalOf? x n (k + 1)).isSome := by
    rw [List.findSome?_isSome_iff]
    exact ⟨16, List.mem_range.mpr (by decide), decimalOf?_seventeen hx h hnlow⟩
  obtain ⟨⟨s, m⟩, hfound⟩ := Option.isSome_iff_exists.mp hsome
  obtain ⟨k, _, hk⟩ := List.exists_of_findSome?_eq_some hfound
  have hread := round_of_decimalOf? hk
  refine ⟨s, m, by rw [shortestDecimal?, hn, Option.bind_some, hfound], ?_, hread⟩
  rw [Nat.pos_iff_ne_zero]
  rintro rfl
  rw [Nat.cast_zero, zero_mul] at hread
  have hzero : Number.round 0 = .finite 0 := rfl
  rw [hzero] at hread
  injection hread with hread
  exact (ne_of_gt hx) hread.symm

/-! ## Literals -/

/-- Characters that are digits. -/
def Digits (cs : List Char) : Prop := ∀ c ∈ cs, c.isDigit = true

/-- A number literal without a sign: the digits before and after the point, and
the exponent where there is one. -/
structure Literal where
  whole : List Char
  fraction : List Char
  exponent : Option (Bool × List Char)

namespace Literal

/-- The text before the exponent. -/
def mantissaChars (l : Literal) : List Char :=
  if l.fraction = [] then l.whole else l.whole ++ '.' :: l.fraction

/-- The exponent with its sign. -/
def exponentChars (l : Literal) : List Char :=
  match l.exponent with
  | none => []
  | some (negative, digits) => 'e' :: (if negative then '-' else '+') :: digits

def chars (l : Literal) : List Char := l.mantissaChars ++ l.exponentChars

def exponentValue (l : Literal) : Int :=
  match l.exponent with
  | none => 0
  | some (negative, digits) =>
      if negative then -(Nat.ofDigitChars 10 digits 0 : Int) else Nat.ofDigitChars 10 digits 0

/-- The number that is written. -/
def value (l : Literal) : Rat :=
  (Nat.ofDigitChars 10 (l.whole ++ l.fraction) 0 : Nat)
    * (10 : Rat) ^ (l.exponentValue - l.fraction.length)

/-- The literal keeps the grammar. -/
structure WellFormed (l : Literal) : Prop where
  whole : Digits l.whole
  ne_nil : l.whole ≠ []
  no_zero : l.whole = ['0'] ∨ l.whole.head? ≠ some '0'
  fraction : Digits l.fraction
  exponent : ∀ negative digits, l.exponent = some (negative, digits) → Digits digits ∧ digits ≠ []

end Literal

theorem natural?_digits {cs : List Char} (h : Digits cs) (hne : cs ≠ []) :
    natural? 10 cs = some (Nat.ofDigitChars 10 cs 0) := by
  have hvalue : ∀ c ∈ cs, digitValue c = c.toNat - '0'.toNat ∧ digitValue c < 10 := by
    intro c hc
    have hdigit := h c hc
    have hlow : '0' ≤ c := (Bool.and_eq_true _ _ ▸ hdigit : _ ∧ _).1 |> of_decide_eq_true
    have hhigh : c ≤ '9' := (Bool.and_eq_true _ _ ▸ hdigit : _ ∧ _).2 |> of_decide_eq_true
    have hnat : c.toNat ≤ '9'.toNat := hhigh
    rw [digitValue, if_pos ⟨hlow, hhigh⟩]
    refine ⟨rfl, ?_⟩
    have hnine : '9'.toNat = 57 := rfl
    have hzero : '0'.toNat = 48 := rfl
    omega
  have hfold : ∀ (cs : List Char) (start : Nat), (∀ c ∈ cs, digitValue c = c.toNat - '0'.toNat) →
      cs.foldl (fun n c => 10 * n + digitValue c) start = Nat.ofDigitChars 10 cs start := by
    intro cs
    induction cs with
    | nil => exact fun start _ => rfl
    | cons c cs ih =>
        intro start hall
        obtain ⟨hc, hrest⟩ := List.forall_mem_cons.mp hall
        rw [List.foldl_cons, ih _ hrest, hc, Nat.ofDigitChars_cons]
  have hdigits : digitsValue? 10 cs = some (Nat.ofDigitChars 10 cs 0) := by
    rw [digitsValue?, if_pos, hfold cs 0 fun c hc => (hvalue c hc).1]
    exact List.all_eq_true.mpr fun c hc => decide_eq_true (hvalue c hc).2
  cases cs with
  | nil => exact absurd rfl hne
  | cons c cs => exact hdigits

theorem Digits.append {cs ds : List Char} (h : Digits cs) (h' : Digits ds) : Digits (cs ++ ds) :=
  List.forall_mem_append.mpr ⟨h, h'⟩

theorem Digits.not_mem {cs : List Char} (h : Digits cs) {c : Char} (hc : c.isDigit = false) :
    c ∉ cs := by
  intro hmem
  rw [h c hmem] at hc
  cases hc

/-- What a mantissa is read as. -/
theorem mantissa?_chars {l : Literal} (h : l.WellFormed) :
    mantissa? l.mantissaChars
      = some (Nat.ofDigitChars 10 (l.whole ++ l.fraction) 0, l.fraction.length) := by
  rw [Literal.mantissaChars]
  split
  next hnone =>
    rw [mantissa?, List.splitOn_eq_singleton (h.whole.not_mem (by decide))]
    dsimp only
    rw [natural?_digits h.whole h.ne_nil, hnone, List.append_nil]
    rfl
  next hsome =>
    rw [mantissa?, List.splitOn_append_cons_self_of_not_mem (h.whole.not_mem (by decide)),
      List.splitOn_eq_singleton (h.fraction.not_mem (by decide))]
    dsimp only
    rw [natural?_digits (h.whole.append h.fraction) (by simp [hsome])]
    rfl

theorem mantissaChars_no_exponent {l : Literal} (h : l.WellFormed) :
    ∀ c ∈ l.mantissaChars, (decide (c = 'e') || decide (c = 'E')) = false := by
  have hdigits : ∀ cs : List Char, Digits cs → ∀ c ∈ cs,
      (decide (c = 'e') || decide (c = 'E')) = false := by
    intro cs hcs c hc
    rw [Bool.or_eq_false_iff, decide_eq_false_iff_not, decide_eq_false_iff_not]
    constructor
    · rintro rfl
      exact hcs.not_mem (by decide) hc
    · rintro rfl
      exact hcs.not_mem (by decide) hc
  intro c hc
  rw [Literal.mantissaChars] at hc
  split at hc
  next => exact hdigits _ h.whole c hc
  next =>
    rcases List.mem_append.mp hc with hc | hc
    · exact hdigits _ h.whole c hc
    · rcases List.mem_cons.mp hc with rfl | hc
      · rfl
      · exact hdigits _ h.fraction c hc

theorem exponent?_sign {digits : List Char} (h : Digits digits) (hne : digits ≠ [])
    (negative : Bool) :
    exponent? ((if negative then '-' else '+') :: digits) =
      some (if negative then -(Nat.ofDigitChars 10 digits 0 : Int)
        else Nat.ofDigitChars 10 digits 0) := by
  cases negative with
  | true =>
      rw [if_pos rfl, if_pos rfl, exponent?, natural?_digits h hne]
      rfl
  | false =>
      rw [if_neg Bool.false_ne_true, if_neg Bool.false_ne_true, exponent?, natural?_digits h hne]
      rfl

/-- What a literal is read as. -/
theorem decimal?_chars {l : Literal} (h : l.WellFormed) : decimal? l.chars = some l.value := by
  rw [decimal?, Literal.chars, Literal.exponentChars, Literal.value, Literal.exponentValue]
  cases hexponent : l.exponent with
  | none =>
      dsimp only
      rw [List.append_nil, List.splitOnP_eq_singleton (mantissaChars_no_exponent h)]
      dsimp only
      rw [mantissa?_chars h, zero_sub]
      rfl
  | some exponent =>
      obtain ⟨negative, digits⟩ := exponent
      obtain ⟨hdigits, hne⟩ := h.exponent negative digits hexponent
      have hrest : ∀ c ∈ (if negative then '-' else '+') :: digits,
          (decide (c = 'e') || decide (c = 'E')) = false := by
        refine List.forall_mem_cons.mpr ⟨by cases negative <;> rfl, fun c hc => ?_⟩
        rw [Bool.or_eq_false_iff, decide_eq_false_iff_not, decide_eq_false_iff_not]
        constructor
        · rintro rfl
          exact hdigits.not_mem (by decide) hc
        · rintro rfl
          exact hdigits.not_mem (by decide) hc
      dsimp only
      rw [List.splitOnP_append_cons_of_forall_mem (mantissaChars_no_exponent h) 'e' rfl,
        List.splitOnP_eq_singleton hrest]
      dsimp only
      rw [mantissa?_chars h, exponent?_sign hdigits hne]
      rfl

/-! ## The grammar -/

theorem takeWhile_digits {cs tail : List Char} (h : Digits cs)
    (htail : ∀ c, tail.head? = some c → c.isDigit = false) :
    (cs ++ tail).takeWhile Char.isDigit = cs := by
  rw [List.takeWhile_append_of_pos h]
  cases tail with
  | nil => exact List.append_nil _
  | cons c tail =>
      rw [List.takeWhile_cons, htail c rfl, if_neg Bool.false_ne_true, List.append_nil]

theorem isDigits_of_digits {cs : List Char} (h : Digits cs) (hne : cs ≠ []) :
    Json.isDigits cs = true := by
  rw [Json.isDigits, decide_eq_true hne, Bool.true_and]
  exact List.all_eq_true.mpr h

theorem isExponent_exponentChars {l : Literal} (h : l.WellFormed) :
    Json.isExponent l.exponentChars = true := by
  rw [Literal.exponentChars]
  cases hexponent : l.exponent with
  | none => rfl
  | some exponent =>
      obtain ⟨negative, digits⟩ := exponent
      obtain ⟨hdigits, hne⟩ := h.exponent negative digits hexponent
      have hread := isDigits_of_digits hdigits hne
      cases negative <;> exact hread

theorem exponentChars_head {l : Literal} (c : Char) (hc : l.exponentChars.head? = some c) :
    c.isDigit = false := by
  rw [Literal.exponentChars] at hc
  split at hc
  next => cases hc
  next =>
    rw [List.head?_cons, Option.some.injEq] at hc
    rw [← hc]
    rfl

/-- A literal begins with a digit. -/
theorem chars_cons {l : Literal} (h : l.WellFormed) :
    ∃ c rest, l.chars = c :: rest ∧ c.isDigit = true := by
  have hwhole : ∃ tail, l.chars = l.whole ++ tail := by
    rw [Literal.chars, Literal.mantissaChars]
    split
    · exact ⟨_, rfl⟩
    · exact ⟨_, List.append_assoc _ _ _⟩
  obtain ⟨tail, htail⟩ := hwhole
  cases hcs : l.whole with
  | nil => exact absurd hcs h.ne_nil
  | cons c rest =>
      rw [hcs] at htail
      exact ⟨c, rest ++ tail, htail, h.whole c (hcs ▸ List.mem_cons_self)⟩

theorem ne_of_isDigit {c d : Char} (hc : c.isDigit = true) (hd : d.isDigit = false) : c ≠ d := by
  rintro rfl
  rw [hc] at hd
  cases hd

/-- A literal keeps the grammar of numbers, with or without a minus. -/
theorem isNumberLiteral_chars {l : Literal} (h : l.WellFormed) (negative : Bool) :
    Json.isNumberLiteral ((if negative then ['-'] else []) ++ l.chars) = true := by
  have hwhole : ∃ tail, l.chars = l.whole ++ tail ∧
      (∀ c, tail.head? = some c → c.isDigit = false) ∧ Json.isFraction tail = true := by
    rw [Literal.chars, Literal.mantissaChars]
    split
    next =>
      refine ⟨l.exponentChars, rfl, exponentChars_head, ?_⟩
      have hpoint : l.exponentChars.head? ≠ some '.' := by
        rw [Literal.exponentChars]
        split
        next => exact fun heq => by cases heq
        next => exact fun heq => absurd (Option.some.inj heq) (by decide)
      rw [Json.isFraction, if_neg hpoint]
      exact isExponent_exponentChars h
    next hne =>
      refine ⟨'.' :: (l.fraction ++ l.exponentChars), by simp, ?_, ?_⟩
      · intro c hc
        rw [List.head?_cons, Option.some.injEq] at hc
        rw [← hc]
        rfl
      · rw [Json.isFraction, List.head?_cons, if_pos rfl, List.tail_cons]
        dsimp only
        rw [takeWhile_digits h.fraction exponentChars_head, List.drop_left,
          isExponent_exponentChars h, decide_eq_true hne]
        rfl
  obtain ⟨tail, hchars, htail, hfraction⟩ := hwhole
  have hunsigned : ∀ cs : List Char, cs = l.chars →
      ((decide (cs.takeWhile Char.isDigit = ['0']) ||
        (cs.takeWhile Char.isDigit).head?.any fun c => decide (c ≠ '0')) &&
          Json.isFraction (cs.drop (cs.takeWhile Char.isDigit).length)) = true := by
    rintro cs rfl
    rw [hchars, takeWhile_digits h.whole htail, List.drop_left, hfraction, Bool.and_true,
      Bool.or_eq_true, decide_eq_true_eq]
    refine h.no_zero.imp_right fun hzero => ?_
    cases hcs : l.whole with
    | nil => exact absurd hcs h.ne_nil
    | cons c rest =>
        rw [hcs] at hzero
        exact decide_eq_true fun heq => hzero (by rw [heq]; rfl)
  cases negative with
  | true => exact hunsigned l.chars rfl
  | false =>
      have hminus : l.chars.head? ≠ some '-' := by
        obtain ⟨c, rest, hcons, hc⟩ := chars_cons h
        rw [hcons, List.head?_cons]
        exact fun heq => ne_of_isDigit hc (by decide) (Option.some.inj heq)
      rw [if_neg Bool.false_ne_true, List.nil_append, Json.isNumberLiteral, if_neg hminus]
      exact hunsigned l.chars rfl

theorem isNumberChar_of_isDigit {c : Char} (h : c.isDigit = true) : Json.isNumberChar c = true := by
  rw [Json.isNumberChar, h, Bool.true_or]

theorem isNumberChar_chars {l : Literal} (h : l.WellFormed) :
    ∀ c ∈ l.chars, Json.isNumberChar c = true := by
  have hdigits : ∀ cs : List Char, Digits cs → ∀ c ∈ cs, Json.isNumberChar c = true :=
    fun cs hcs c hc => isNumberChar_of_isDigit (hcs c hc)
  rw [Literal.chars]
  refine List.forall_mem_append.mpr ⟨?_, ?_⟩
  · rw [Literal.mantissaChars]
    split
    next => exact hdigits _ h.whole
    next =>
      exact List.forall_mem_append.mpr
        ⟨hdigits _ h.whole, List.forall_mem_cons.mpr ⟨rfl, hdigits _ h.fraction⟩⟩
  · rw [Literal.exponentChars]
    cases hexponent : l.exponent with
    | none => exact fun c hc => by cases hc
    | some exponent =>
        obtain ⟨negative, digits⟩ := exponent
        obtain ⟨hall, _⟩ := h.exponent negative digits hexponent
        refine List.forall_mem_cons.mpr ⟨rfl, List.forall_mem_cons.mpr ⟨?_, hdigits _ hall⟩⟩
        cases negative <;> rfl

/-- A literal with a sign is read as the number it is rounded to. -/
theorem readNumber_chars {l : Literal} (h : l.WellFormed) (negative : Bool) :
    Json.readNumber ((if negative then ['-'] else []) ++ l.chars)
      = some (Number.round (if negative then -l.value else l.value)) := by
  rw [Json.readNumber, if_pos (isNumberLiteral_chars h negative)]
  cases negative with
  | true =>
      rw [if_pos rfl, if_pos rfl, List.singleton_append, signed?, decimal?_chars h]
      rfl
  | false =>
      have hsigned : signed? decimal? l.chars = decimal? l.chars := by
        obtain ⟨c, rest, hcons, hc⟩ := chars_cons h
        rw [hcons, signed?]
        · intro cs heq
          exact ne_of_isDigit hc (by decide) (List.cons.inj heq).1
        · intro cs heq
          exact ne_of_isDigit hc (by decide) (List.cons.inj heq).1
      rw [if_neg Bool.false_ne_true, if_neg Bool.false_ne_true, List.nil_append, hsigned,
        decimal?_chars h]
      rfl

/-! ## The text of a decimal -/

theorem digits_toDigits (s : Nat) : Digits (Nat.toDigits 10 s) := fun _ hc =>
  Nat.isDigit_of_mem_toDigits (by decide) (by decide) hc

/-- The digits of a positive number do not begin with zero. -/
theorem head?_toDigits {s : Nat} (hs : 0 < s) : (Nat.toDigits 10 s).head? ≠ some '0' := by
  induction s using Nat.strongRecOn with
  | ind s ih =>
      rcases Nat.lt_or_ge s 10 with hlt | hge
      · have hone : ∀ s < 10, 0 < s → (Nat.toDigits 10 s).head? ≠ some '0' := by decide
        exact hone s hlt hs
      · rw [Nat.toDigits_of_base_le (by decide) hge,
          List.head?_append_of_ne_nil _ Nat.toDigits_ne_nil]
        exact ih (s / 10) (Nat.div_lt_self hs (by decide)) (Nat.div_pos hge (by decide))

theorem digits_replicate_zero (k : Nat) : Digits (List.replicate k '0') := by
  intro c hc
  rw [List.eq_of_mem_replicate hc]
  rfl

/-- The text is a literal of this value. -/
def IsLiteral (text : List Char) (q : Rat) : Prop :=
  ∃ l : Literal, l.WellFormed ∧ text = l.chars ∧ l.value = q

section Layouts

variable {s : Nat} {m : Int} {D : List Char}

theorem digits_of_no_exponent (negative : Bool) (digits : List Char)
    (h : (none : Option (Bool × List Char)) = some (negative, digits)) :
    Digits digits ∧ digits ≠ [] :=
  absurd h.symm (Option.some_ne_none _)

/-- Digits with zeros after them. -/
theorem isLiteral_whole (hdigits : Digits D) (hhead : D.head? ≠ some '0')
    (hvalue : Nat.ofDigitChars 10 D 0 = s) (hne : D ≠ []) (hm : 0 ≤ m) :
    IsLiteral (D ++ List.replicate m.toNat '0') (s * (10 : Rat) ^ m) := by
  refine ⟨⟨D ++ List.replicate m.toNat '0', [], none⟩,
    ⟨hdigits.append (digits_replicate_zero _), by simp [hne], Or.inr ?_, List.forall_mem_nil _,
      digits_of_no_exponent⟩, ?_, ?_⟩
  · rwa [List.head?_append_of_ne_nil _ hne]
  · simp [Literal.chars, Literal.mantissaChars, Literal.exponentChars]
  · simp only [Literal.value, Literal.exponentValue, List.append_nil, List.length_nil,
      Nat.ofDigitChars_append, hvalue, Nat.ofDigitChars_replicate_zero]
    have hten : (10 : Rat) ^ m = ((10 ^ m.toNat : Nat) : Rat) := by
      rw [Nat.cast_pow, Nat.cast_ofNat, ← zpow_natCast, Int.toNat_of_nonneg hm]
    rw [hten, Nat.cast_mul, Nat.cast_zero, sub_zero, zpow_zero, mul_one, mul_comm]

/-- Digits with the point among them. -/
theorem isLiteral_point (hdigits : Digits D) (hhead : D.head? ≠ some '0')
    (hvalue : Nat.ofDigitChars 10 D 0 = s) (hm : m < 0) (hn : 0 < m + D.length) :
    IsLiteral (D.take (m + D.length).toNat ++ '.' :: D.drop (m + D.length).toNat)
      (s * (10 : Rat) ^ m) := by
  have hlt : (m + D.length).toNat < D.length := by omega
  have hfraction : D.drop (m + D.length).toNat ≠ [] := by
    rw [Ne, List.drop_eq_nil_iff]
    omega
  have htake : D.take (m + D.length).toNat ≠ [] := by
    rw [Ne, List.take_eq_nil_iff, not_or]
    refine ⟨by omega, ?_⟩
    rintro rfl
    exact Nat.not_lt_zero _ hlt
  refine ⟨⟨D.take (m + D.length).toNat, D.drop (m + D.length).toNat, none⟩,
    ⟨fun c hc => hdigits c (List.mem_of_mem_take hc), htake, Or.inr ?_,
      fun c hc => hdigits c (List.mem_of_mem_drop hc), digits_of_no_exponent⟩, ?_, ?_⟩
  · have hsplit :
        (D.take (m + D.length).toNat ++ D.drop (m + D.length).toNat).head? =
          (D.take (m + D.length).toNat).head? :=
      List.head?_append_of_ne_nil _ htake
    rwa [← hsplit, List.take_append_drop]
  · simp [Literal.chars, Literal.mantissaChars, Literal.exponentChars, hfraction]
  · simp only [Literal.value, Literal.exponentValue, List.take_append_drop, hvalue,
      List.length_drop]
    congr 2
    omega

/-- Digits after the point, with zeros before them. -/
theorem isLiteral_small (hdigits : Digits D) (hvalue : Nat.ofDigitChars 10 D 0 = s) (hne : D ≠ [])
    (hn : m + D.length ≤ 0) :
    IsLiteral ("0.".toList ++ List.replicate (-(m + D.length)).toNat '0' ++ D)
      (s * (10 : Rat) ^ m) := by
  refine ⟨⟨['0'], List.replicate (-(m + D.length)).toNat '0' ++ D, none⟩,
    ⟨List.forall_mem_singleton.mpr rfl, List.cons_ne_nil _ _, Or.inl rfl,
      (digits_replicate_zero _).append hdigits, digits_of_no_exponent⟩, ?_, ?_⟩
  · simp [Literal.chars, Literal.mantissaChars, Literal.exponentChars, hne]
  · have hzeros : Nat.ofDigitChars 10
        (['0'] ++ (List.replicate (-(m + D.length)).toNat '0' ++ D)) 0 = s := by
      rw [Nat.ofDigitChars_append, Nat.ofDigitChars_append]
      change Nat.ofDigitChars 10 D (Nat.ofDigitChars 10 (List.replicate _ '0') 0) = s
      rw [Nat.ofDigitChars_replicate_zero, Nat.mul_zero, hvalue]
    simp only [Literal.value, Literal.exponentValue, hzeros, List.length_append,
      List.length_replicate]
    congr 2
    omega

/-- The digits and the sign of an exponent are those of its value. -/
theorem exponent_toDigits (e : Int) :
    (if decide (e < 0) = true then -(Nat.ofDigitChars 10 (Nat.toDigits 10 e.natAbs) 0 : Int)
      else Nat.ofDigitChars 10 (Nat.toDigits 10 e.natAbs) 0) = e := by
  rw [Nat.ofDigitChars_ten_toDigits]
  split
  next hnegative =>
    have := of_decide_eq_true hnegative
    omega
  next hnegative =>
    rw [decide_eq_true_eq] at hnegative
    omega

/-- A digit before the point, and an exponent. -/
theorem isLiteral_exponent :
    Digits D → D.head? ≠ some '0' → Nat.ofDigitChars 10 D 0 = s → D ≠ [] →
    IsLiteral ((match D with
        | d :: e :: ds => d :: '.' :: e :: ds
        | ds => ds) ++
      'e' :: (if m + D.length - 1 < 0 then '-' else '+') ::
        Nat.toDigits 10 (m + D.length - 1).natAbs) (s * (10 : Rat) ^ m) := by
  intro hdigits hhead hvalue hne
  have hexponent : ∀ negative digits,
      some (decide (m + D.length - 1 < 0), Nat.toDigits 10 (m + D.length - 1).natAbs)
        = some (negative, digits) → Digits digits ∧ digits ≠ [] := by
    intro negative digits heq
    cases heq
    exact ⟨digits_toDigits _, Nat.toDigits_ne_nil⟩
  cases hD : D with
  | nil => exact absurd hD hne
  | cons d ds =>
      rw [← hD]
      refine ⟨⟨[d], ds, some (decide (m + D.length - 1 < 0),
        Nat.toDigits 10 (m + D.length - 1).natAbs)⟩,
        ⟨?_, List.cons_ne_nil _ _, Or.inr ?_, ?_, hexponent⟩, ?_, ?_⟩
      · exact List.forall_mem_singleton.mpr (hdigits d (hD ▸ List.mem_cons_self))
      · rw [hD] at hhead
        exact hhead
      · exact fun c hc => hdigits c (hD ▸ List.mem_cons_of_mem d hc)
      · cases ds with
        | nil => simp [hD, Literal.chars, Literal.mantissaChars, Literal.exponentChars]
        | cons e es => simp [hD, Literal.chars, Literal.mantissaChars, Literal.exponentChars]
      · simp only [Literal.value, Literal.exponentValue, exponent_toDigits, List.singleton_append]
        rw [← hD, hvalue]
        congr 2
        have hlength := congrArg List.length hD
        rw [List.length_cons] at hlength
        omega

end Layouts

/-- A decimal is written as a literal of its value. -/
theorem isLiteral_decimalText {s : Nat} (hs : 0 < s) (m : Int) :
    IsLiteral (decimalText s m) (s * (10 : Rat) ^ m) := by
  have hdigits := digits_toDigits s
  have hhead := head?_toDigits hs
  have hvalue : Nat.ofDigitChars 10 (Nat.toDigits 10 s) 0 = s := Nat.ofDigitChars_ten_toDigits
  have hpos : 0 < (Nat.toDigits 10 s).length := Nat.length_toDigits_pos
  simp only [decimalText]
  generalize Nat.toDigits 10 s = D at hdigits hhead hvalue hpos ⊢
  have hne : D ≠ [] := List.ne_nil_of_length_pos hpos
  split
  next hplain => exact isLiteral_whole hdigits hhead hvalue hne hplain.1
  next hplain =>
    split
    next hpoint => exact isLiteral_point hdigits hhead hvalue (by omega) hpoint.1
    next hpoint =>
      split
      next hsmall => exact isLiteral_small hdigits hvalue hne hsmall.2
      next hsmall => exact isLiteral_exponent hdigits hhead hvalue hne

/-! ## Every double is read back -/

/-- The text of a double is read as the double. -/
theorem readsBack_of_round {value : Rat} (h : Number.round value = .finite value) :
    Json.readsBack (.finite value) = true := by
  rcases eq_or_ne value 0 with rfl | hne
  · decide +kernel
  · have habs : Number.round |value| = .finite |value| := by
      rcases abs_choice value with heq | heq
      · rw [heq]
        exact h
      · rw [heq]
        exact round_neg h
    obtain ⟨s, m, hfound, hs, hround⟩ := exists_shortestDecimal (abs_pos.mpr hne) habs
    obtain ⟨l, hl, htext, hvalue⟩ := isLiteral_decimalText hs m
    rw [← hvalue] at hround
    have htoList : (numberText value).toList
        = (if decide (value < 0) = true then ['-'] else []) ++ l.chars := by
      rw [numberText, if_neg hne]
      dsimp only
      rw [hfound]
      dsimp only
      rw [String.toList_ofList, htext]
      exact congrArg (· ++ l.chars) (if_congr decide_eq_true_iff.symm rfl rfl)
    have hread : Number.round (if decide (value < 0) = true then -l.value else l.value)
        = .finite value := by
      split
      next hneg =>
        have hlt := of_decide_eq_true hneg
        rw [round_neg hround, abs_of_neg hlt, neg_neg]
      next hpos =>
        rw [decide_eq_true_eq, not_lt] at hpos
        rw [hround, abs_of_nonneg hpos]
    rw [Json.readsBack, htoList, readNumber_chars hl, hread, Bool.and_eq_true]
    refine ⟨List.all_eq_true.mpr (List.forall_mem_append.mpr ⟨?_, isNumberChar_chars hl⟩),
      decide_eq_true rfl⟩
    split
    · exact List.forall_mem_singleton.mpr rfl
    · exact fun c hc => by cases hc

end Lib
