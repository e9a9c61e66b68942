import Vynor.Lib.DoubleText

/-!
# Texts of integers

The integers below 2 ^ 53 are doubles (`round_natCast`), and what is printed for
them are digits (`digits_numberText`) that are read back (`ofLiteral_numberText`).
A greater integer that is a double may be printed with an exponent.  So after the
last character of a text that is no digit stands the text of an integer, or only
its exponent, and the two are told apart by that character
(`eq_of_append_numberText`).
-/

namespace Lib

/-! ## Integers are doubles -/

theorem binaryExponent_lt {n : Nat} (hn : 0 < n) (h : n < 2 ^ 53) :
    0 ≤ binaryExponent n ∧ binaryExponent n ≤ 52 := by
  have hpos : (0 : Rat) < n := by exact_mod_cast hn
  obtain ⟨hlow, hhigh⟩ := binaryExponent_bounds hpos
  constructor
  · have hone : (1 : Rat) ≤ n := by exact_mod_cast hn
    have hlt : (2 : Rat) ^ (0 : Int) < 2 ^ (binaryExponent n + 1) := by
      rw [zpow_zero]
      exact lt_of_le_of_lt hone hhigh
    have := (zpow_lt_zpow_iff_right₀ (by norm_num : (1 : Rat) < 2)).mp hlt
    omega
  · have hlt : (2 : Rat) ^ binaryExponent n < 2 ^ (53 : Int) := by
      refine lt_of_le_of_lt hlow ?_
      exact_mod_cast h
    have := (zpow_lt_zpow_iff_right₀ (by norm_num : (1 : Rat) < 2)).mp hlt
    omega

/-- An integer below 2 ^ 53 is a double. -/
theorem round_natCast {n : Nat} (h : n < 2 ^ 53) : Number.round n = .finite n := by
  rcases Nat.eq_zero_or_pos n with rfl | hn
  · rfl
  · obtain ⟨hlow, hhigh⟩ := binaryExponent_lt hn h
    have hunit : unitExponent (n : Rat) = binaryExponent n - 52 := by
      rw [unitExponent, max_eq_left (by omega)]
    have hpos : (0 : Rat) < n := by exact_mod_cast hn
    have hmultiple : (n : Rat) =
        ((n * 2 ^ (52 - binaryExponent n).toNat : Nat) : Int) * 2 ^ unitExponent (n : Rat) := by
      have hexponent : unitExponent (n : Rat) = -((52 - binaryExponent n).toNat : Int) := by
        rw [hunit, Int.toNat_of_nonneg (by omega)]
        ring
      rw [hexponent, zpow_neg, zpow_natCast, Int.cast_natCast]
      push_cast
      rw [mul_assoc, mul_inv_cancel₀ (pow_ne_zero _ (by norm_num)), mul_one]
    refine round_of_unit hpos ?_ hmultiple ?_
    · rw [abs_of_pos hpos]
      have hlt : (n : Rat) < 2 ^ 53 := by exact_mod_cast h
      exact lt_trans hlt (pow_lt_pow_right₀ (by norm_num) (by norm_num))
    · rw [sub_self, abs_zero]
      have := two_zpow_pos (unitExponent (n : Rat))
      linarith

/-! ## What is rounded is a double -/

/-- What a positive number is rounded to is a multiple of the unit, and at most
2 ^ 53 of them. -/
theorem exists_units {q x : Rat} (hq : 0 < q) (h : Number.round q = .finite x) :
    ∃ j : Int, 0 ≤ j ∧ j ≤ 2 ^ 53 ∧ x = j * 2 ^ unitExponent q ∧ |x| < 2 ^ 1024 := by
  obtain ⟨hvalue, hlt⟩ := (round_eq_finite hq).mp h
  have hu := two_zpow_pos (unitExponent q)
  have hscale : q / 2 ^ unitExponent q < 2 ^ 53 := by
    rw [div_lt_iff₀ hu]
    refine lt_of_lt_of_le (binaryExponent_bounds hq).2 ?_
    rw [← zpow_natCast, ← zpow_add₀ (by norm_num)]
    refine zpow_le_zpow_right₀ (by norm_num) ?_
    rw [unitExponent]
    push_cast
    omega
  have hpos : 0 < q / 2 ^ unitExponent q := div_pos hq hu
  have hhalf : |q / 2 ^ unitExponent q - roundHalfEven (q / 2 ^ unitExponent q)| ≤ 1 / 2 :=
    (isNearestEven_roundHalfEven _).elim le_of_lt fun h => le_of_eq h.1
  rw [abs_le] at hhalf
  refine ⟨roundHalfEven (q / 2 ^ unitExponent q), ?_, ?_, hvalue.symm, hlt⟩
  · have hlow : (-1 : Rat) < roundHalfEven (q / 2 ^ unitExponent q) := by linarith
    have : (-1 : Int) < roundHalfEven (q / 2 ^ unitExponent q) := by exact_mod_cast hlow
    omega
  · have hhigh : (roundHalfEven (q / 2 ^ unitExponent q) : Rat) < 2 ^ 53 + 1 := by linarith
    have : roundHalfEven (q / 2 ^ unitExponent q) < 2 ^ 53 + 1 := by exact_mod_cast hhigh
    omega

theorem round_round_of_pos {q x : Rat} (hq : 0 < q) (h : Number.round q = .finite x) :
    Number.round x = .finite x := by
  obtain ⟨j, hj, hmost, hvalue, hlt⟩ := exists_units hq h
  rcases hj.eq_or_lt with rfl | hj
  · rw [hvalue, Int.cast_zero, zero_mul]
    rfl
  · have hu := two_zpow_pos (unitExponent q)
    have hx : 0 < x := by
      rw [hvalue]
      exact mul_pos (by exact_mod_cast hj) hu
    obtain ⟨hlow, hhigh⟩ := binaryExponent_bounds hx
    have hpower : (2 : Rat) ^ (unitExponent q + 53) = 2 ^ 53 * 2 ^ unitExponent q := by
      rw [zpow_add₀ (by norm_num), mul_comm]
      norm_cast
    have hle : x ≤ 2 ^ (unitExponent q + 53) := by
      rw [hvalue, hpower]
      refine mul_le_mul_of_nonneg_right ?_ hu.le
      exact_mod_cast hmost
    have hexponent : binaryExponent x ≤ unitExponent q + 53 :=
      (zpow_le_zpow_iff_right₀ (by norm_num : (1 : Rat) < 2)).mp (hlow.trans hle)
    have hunit : -1074 ≤ unitExponent q := unitExponent_ge q
    have hzero : |x - x| < 2 ^ unitExponent x / 2 := by
      have := two_zpow_pos (unitExponent x)
      rw [sub_self, abs_zero]
      linarith
    rcases Int.lt_or_le (unitExponent q) (unitExponent x) with hgreater | hless
    · -- the number is the power of two where the unit gets greater
      have hunits : unitExponent x = max (binaryExponent x) (-1022) - 52 := rfl
      have hbinary : binaryExponent x = unitExponent q + 53 := by omega
      have heq : x = 2 ^ (unitExponent q + 53) := le_antisymm hle (hbinary ▸ hlow)
      refine round_of_unit hx hlt (j := 2 ^ 52) ?_ hzero
      have hux : unitExponent x = unitExponent q + 1 := by omega
      rw [hux, heq, zpow_add₀ (by norm_num), zpow_add₀ (by norm_num)]
      norm_num
      ring
    · refine round_of_unit hx hlt (j := j * 2 ^ (unitExponent q - unitExponent x).toNat) ?_ hzero
      have hsplit : (2 : Rat) ^ unitExponent q =
          2 ^ (unitExponent q - unitExponent x).toNat * 2 ^ unitExponent x := by
        rw [← zpow_natCast, ← zpow_add₀ (by norm_num), Int.toNat_of_nonneg (by omega),
          sub_add_cancel]
      push_cast
      rw [mul_assoc, ← hsplit]
      exact hvalue

/-- What a number is rounded to is a double. -/
theorem round_round {q x : Rat} (h : Number.round q = .finite x) : Number.round x = .finite x := by
  rcases lt_trichotomy q 0 with hneg | rfl | hpos
  · have hround := round_neg h
    have hback := round_neg (round_round_of_pos (neg_pos.mpr hneg) hround)
    rwa [neg_neg] at hback
  · cases h
    rfl
  · exact round_round_of_pos hpos h

/-! ## The decimals of integers -/

/-- A decimal of `k` digits, or a power of ten. -/
theorem decimalOf?_shape {x : Rat} {n m : Int} {k s : Nat} (h : decimalOf? x n k = some (s, m)) :
    m = n - k ∨ s = 1 ∧ m = n := by
  simp only [decimalOf?] at h
  generalize (x / (10 : Rat) ^ (n - k)).floor.toNat = below at h
  have habove : (if below + 1 = 10 ^ k then ((1 : Nat), n) else (below + 1, n - k)) = (s, m) →
      m = n - k ∨ s = 1 ∧ m = n := by
    intro heq
    split at heq
    · cases heq
      exact Or.inr ⟨rfl, rfl⟩
    · cases heq
      exact Or.inl rfl
  have hbelow : some (below, n - (k : Int)) = some (s, m) → m = n - k ∨ s = 1 ∧ m = n := by
    intro heq
    cases heq
    exact Or.inl rfl
  split at h
  · split at h
    · exact hbelow h
    · split at h
      · exact habove (Option.some.inj h)
      · split at h
        · exact hbelow h
        · exact habove (Option.some.inj h)
  · split at h
    · exact hbelow h
    · split at h
      · exact habove (Option.some.inj h)
      · cases h

/-- With as many digits as there are before the point an integer is found. -/
theorem decimalOf?_isSome {j k : Nat} (h : Number.round j = .finite j) :
    (decimalOf? j k k).isSome := by
  have hzero : ((k : Int) - (k : Int)) = 0 := sub_self _
  simp only [decimalOf?, hzero, zpow_zero, div_one, mul_one]
  have hfloor : (j : Rat).floor.toNat = j := by
    rw [show (j : Rat) = ((j : Int) : Rat) from (Int.cast_natCast j).symm, Rat.floor_intCast,
      Int.toNat_natCast]
  rw [hfloor]
  simp only [h, decide_true, Bool.true_and, if_true]
  split
  · split
    · rfl
    · split
      · rfl
      · split <;> rfl
  · rfl

/-- What is found in a range is found at the first place where there is something. -/
theorem exists_first_of_findSome?_range {α : Type*} {f : Nat → Option α} {a : α} {n : Nat}
    (h : (List.range n).findSome? f = some a) : ∃ k, f k = some a ∧ ∀ i < k, f i = none := by
  induction n with
  | zero => cases h
  | succ n ih =>
      rw [List.range_succ, List.findSome?_append, Option.or_eq_some_iff] at h
      rcases h with hbefore | ⟨hnone, hlast⟩
      · exact ih hbefore
      · refine ⟨n, ?_, fun i hi => List.findSome?_eq_none_iff.mp hnone i (List.mem_range.mpr hi)⟩
        rwa [List.findSome?_singleton] at hlast

/-- The decimal of an integer has no digits after the point. -/
theorem shortestDecimal?_natCast {j s : Nat} {m : Int} (hj : 0 < j)
    (h : Number.round j = .finite j) (hfound : shortestDecimal? j = some (s, m)) :
    ∃ n k : Nat, (10 : Rat) ^ ((n : Int) - 1) ≤ j ∧ k ≤ n ∧ s < 10 ^ k ∧
      (m = n - k ∨ s = 1 ∧ m = n) := by
  have hpos : (0 : Rat) < j := by exact_mod_cast hj
  obtain ⟨hlow, hhigh⟩ := double_bounds hpos h
  obtain ⟨n, hn, hnlow, hnhigh⟩ := exists_decimalExponent hlow hhigh
  have hn1 : 1 ≤ n := by
    have hone : (1 : Rat) ≤ j := by exact_mod_cast hj
    have hlt : (10 : Rat) ^ (0 : Int) < 10 ^ n := by
      rw [zpow_zero]
      exact lt_of_le_of_lt hone hnhigh
    have := (zpow_lt_zpow_iff_right₀ (by norm_num : (1 : Rat) < 10)).mp hlt
    omega
  obtain ⟨n, rfl⟩ : ∃ n' : Nat, n = n' := ⟨n.toNat, by omega⟩
  rw [shortestDecimal?, hn, Option.bind_some] at hfound
  obtain ⟨k, hk, hfind⟩ := exists_first_of_findSome?_range hfound
  have hle : k + 1 ≤ n := by
    by_contra hgt
    have hsome := decimalOf?_isSome (k := n) h
    have hnone := hfind (n - 1) (by omega)
    rw [show n - 1 + 1 = n by omega] at hnone
    rw [hnone] at hsome
    cases hsome
  obtain ⟨hs, _, _⟩ := decimalOf?_bounds hnhigh (Nat.succ_pos k) hk
  exact ⟨n, k + 1, hnlow, hle, hs, decimalOf?_shape hk⟩

/-! ## The texts of integers -/

/-- A text with digits at its end, after a sign. -/
def EndsSigned (text : List Char) : Prop :=
  ∃ before sign digits, text = before ++ sign :: digits ∧ Digits digits ∧
    (sign = '+' ∨ sign = '-')

theorem endsSigned_exponent (mantissa : List Char) (p : Prop) [Decidable p] (e : Nat) :
    EndsSigned (mantissa ++ 'e' :: (if p then '-' else '+') :: Nat.toDigits 10 e) := by
  refine ⟨mantissa ++ ['e'], if p then '-' else '+', Nat.toDigits 10 e, ?_, digits_toDigits e, ?_⟩
  · rw [List.append_assoc, List.singleton_append]
  · split
    · exact Or.inr rfl
    · exact Or.inl rfl

theorem toList_numberText {j : Nat} (hj : 0 < j) {s : Nat} {m : Int}
    (hfound : shortestDecimal? j = some (s, m)) :
    (numberText j).toList = decimalText s m := by
  have hpos : (0 : Rat) < j := by exact_mod_cast hj
  rw [numberText, if_neg (ne_of_gt hpos), abs_of_pos hpos]
  simp only [hfound, if_neg (not_lt.mpr hpos.le), List.nil_append, String.toList_ofList]

/-- An integer is printed as digits, or with an exponent. -/
theorem digits_or_signed {j : Nat} (h : Number.round j = .finite j) :
    Digits (numberText j).toList ∨ EndsSigned (numberText j).toList := by
  rcases Nat.eq_zero_or_pos j with rfl | hj
  · exact Or.inl (List.forall_mem_singleton.mpr rfl)
  · have hpos : (0 : Rat) < j := by exact_mod_cast hj
    obtain ⟨s, m, hfound, _, _⟩ := exists_shortestDecimal hpos h
    obtain ⟨n, k, _, hk, _, hm⟩ := shortestDecimal?_natCast hj h hfound
    have hnonneg : 0 ≤ m := by omega
    have hlength : 0 < (Nat.toDigits 10 s).length := Nat.length_toDigits_pos
    rw [toList_numberText hj hfound]
    simp only [decimalText]
    split
    next => exact Or.inl ((digits_toDigits s).append (digits_replicate_zero _))
    next hgreat =>
      rw [if_neg (by omega), if_neg (by omega)]
      exact Or.inr (endsSigned_exponent _ _ _)

/-- An integer below 2 ^ 53 is printed as digits. -/
theorem digits_numberText {j : Nat} (h : j < 2 ^ 53) : Digits (numberText j).toList := by
  rcases Nat.eq_zero_or_pos j with rfl | hj
  · exact List.forall_mem_singleton.mpr rfl
  · have hpos : (0 : Rat) < j := by exact_mod_cast hj
    have hround := round_natCast h
    obtain ⟨s, m, hfound, _, _⟩ := exists_shortestDecimal hpos hround
    obtain ⟨n, k, hn, hk, hs, hm⟩ := shortestDecimal?_natCast hj hround hfound
    have hn16 : n ≤ 16 := by
      have hlt : (10 : Rat) ^ ((n : Int) - 1) < 10 ^ (16 : Int) := by
        refine lt_of_le_of_lt hn ?_
        have hnat : j < 10 ^ 16 := lt_trans h (by norm_num)
        exact_mod_cast hnat
      have := (zpow_lt_zpow_iff_right₀ (by norm_num : (1 : Rat) < 10)).mp hlt
      omega
    have hlength : m + (Nat.toDigits 10 s).length ≤ 21 := by
      rcases hm with hm | ⟨rfl, hm⟩
      · have hk1 : 0 < k := by
          rw [Nat.pos_iff_ne_zero]
          rintro rfl
          have hzero : s = 0 := by omega
          subst hzero
          have hlen : (Nat.toDigits 10 0).length = 1 := rfl
          omega
        have hle : (Nat.toDigits 10 s).length ≤ k :=
          (Nat.length_toDigits_le_iff (by decide) (by omega)).mpr hs
        omega
      · have hlen : (Nat.toDigits 10 1).length = 1 := rfl
        omega
    rw [toList_numberText hj hfound]
    simp only [decimalText]
    rw [if_pos ⟨by omega, hlength⟩]
    exact (digits_toDigits s).append (digits_replicate_zero _)

theorem numberText_ne_nil {j : Nat} (h : Number.round j = .finite j) :
    (numberText j).toList ≠ [] := by
  intro hnil
  have hread := readsBack_of_round h
  rw [Json.readsBack, Bool.and_eq_true, hnil] at hread
  have hnone : Json.readNumber [] = none := rfl
  rw [hnone] at hread
  cases of_decide_eq_true hread.2

/-- Different doubles have different texts. -/
theorem numberText_inj {j k : Nat} (hj : Number.round j = .finite j)
    (hk : Number.round k = .finite k) (h : (numberText j).toList = (numberText k).toList) :
    j = k := by
  have hreadj := readsBack_of_round hj
  have hreadk := readsBack_of_round hk
  rw [Json.readsBack, Bool.and_eq_true] at hreadj hreadk
  have hsome := (of_decide_eq_true hreadj.2).symm.trans
    (h ▸ of_decide_eq_true hreadk.2 : Json.readNumber (numberText j).toList = _)
  injection hsome with hsome
  injection hsome with hsome
  exact_mod_cast hsome

theorem round_of_getD {o : Option Rat} {value : Rat}
    (h : (o.map Number.round).getD .nan = .finite value) : Number.round value = .finite value := by
  cases o with
  | none => cases h
  | some q => exact round_round h

/-- What is read is a double. -/
theorem round_of_ofLiteral {cs : List Char} {value : Rat} (h : Number.ofLiteral cs = .finite value) :
    Number.round value = .finite value := by
  unfold Number.ofLiteral at h
  split at h
  · cases h
    rfl
  · exact round_of_getD h
  · exact round_of_getD h
  · exact round_of_getD h
  · exact round_of_getD h
  · exact round_of_getD h
  · exact round_of_getD h
  · split at h
    · cases h
    · split at h
      · cases h
      · exact round_of_getD h

/-- Digits are read as a decimal. -/
theorem ofLiteral_digits {cs : List Char} (h : Digits cs) (hne : cs ≠ []) :
    Number.ofLiteral cs = ((signed? decimal? cs).map Number.round).getD .nan := by
  have hmark : ∀ c ∈ cs, c ≠ 'x' ∧ c ≠ 'X' ∧ c ≠ 'o' ∧ c ≠ 'O' ∧ c ≠ 'b' ∧ c ≠ 'B' ∧ c ≠ 'I' ∧
      c ≠ '+' ∧ c ≠ '-' := by
    intro c hc
    have hdigit := h c hc
    refine ⟨?_, ?_, ?_, ?_, ?_, ?_, ?_, ?_, ?_⟩ <;>
    · rintro rfl
      exact absurd hdigit (by decide)
  unfold Number.ofLiteral
  split
  · exact absurd rfl hne
  · exact absurd rfl (hmark 'x' (by simp)).1
  · exact absurd rfl (hmark 'X' (by simp)).2.1
  · exact absurd rfl (hmark 'o' (by simp)).2.2.1
  · exact absurd rfl (hmark 'O' (by simp)).2.2.2.1
  · exact absurd rfl (hmark 'b' (by simp)).2.2.2.2.1
  · exact absurd rfl (hmark 'B' (by simp)).2.2.2.2.2.1
  · rw [if_neg, if_neg]
    · rintro rfl
      exact (hmark '-' (by decide)).2.2.2.2.2.2.2.2 rfl
    · rintro (rfl | rfl)
      · exact (hmark 'I' (by decide)).2.2.2.2.2.2.1 rfl
      · exact (hmark '+' (by decide)).2.2.2.2.2.2.2.1 rfl

/-- The text of an integer below 2 ^ 53 is read back. -/
theorem ofLiteral_numberText {j : Nat} (h : j < 2 ^ 53) :
    Number.ofLiteral (numberText j).toList = .finite j := by
  have hround := round_natCast h
  have hread := readsBack_of_round hround
  rw [Json.readsBack, Bool.and_eq_true] at hread
  have hnumber := of_decide_eq_true hread.2
  rw [Json.readNumber] at hnumber
  split at hnumber
  · rw [ofLiteral_digits (digits_numberText h) (numberText_ne_nil hround), hnumber]
    rfl
  · cases hnumber

/-! ## What stands before an integer -/

/-- The last character of a text that is no digit, and what is around it. -/
theorem eq_of_append_digits {a b A B : List Char} {c d : Char} (hA : Digits A) (hB : Digits B)
    (hc : c.isDigit = false) (hd : d.isDigit = false) (h : a ++ c :: A = b ++ d :: B) :
    a = b ∧ c = d ∧ A = B := by
  have hreverse := congrArg List.reverse h
  simp only [List.reverse_append, List.reverse_cons, List.append_assoc, List.singleton_append]
    at hreverse
  have htakeA : (A.reverse ++ c :: a.reverse).takeWhile Char.isDigit = A.reverse := by
    rw [List.takeWhile_append_of_pos fun x hx => hA x (List.mem_reverse.mp hx),
      List.takeWhile_cons_of_neg (by simp [hc]), List.append_nil]
  have htakeB : (B.reverse ++ d :: b.reverse).takeWhile Char.isDigit = B.reverse := by
    rw [List.takeWhile_append_of_pos fun x hx => hB x (List.mem_reverse.mp hx),
      List.takeWhile_cons_of_neg (by simp [hd]), List.append_nil]
  have hAB : A = B := by
    rw [← List.reverse_inj, ← htakeA, ← htakeB, hreverse]
  subst hAB
  have hrest := List.append_cancel_left hreverse
  rw [List.cons.injEq, List.reverse_inj] at hrest
  exact ⟨hrest.2, hrest.1, rfl⟩

/-- A text with an integer after a mark: an integer below 2 ^ 53 stands after the
same text as any other. -/
theorem eq_of_append_numberText {a b : List Char} {mark : Char} {j k : Nat}
    (hmark : mark.isDigit = false ∧ mark ≠ '+' ∧ mark ≠ '-') (hj : j < 2 ^ 53)
    (hk : Number.round k = .finite k)
    (h : a ++ mark :: (numberText j).toList = b ++ mark :: (numberText k).toList) :
    a = b ∧ j = k := by
  rcases digits_or_signed hk with hdigits | ⟨before, sign, digits, htext, hdigits, hsign⟩
  · obtain ⟨hab, _, htext⟩ := eq_of_append_digits (digits_numberText hj) hdigits hmark.1 hmark.1 h
    exact ⟨hab, numberText_inj (round_natCast hj) hk htext⟩
  · have hsplit : a ++ mark :: (numberText j).toList = (b ++ mark :: before) ++ sign :: digits := by
      rw [h, htext, List.append_assoc, List.cons_append]
    have hnot : sign.isDigit = false := by
      rcases hsign with rfl | rfl <;> rfl
    obtain ⟨_, hsame, _⟩ :=
      eq_of_append_digits (digits_numberText hj) hdigits hmark.1 hnot hsplit
    rcases hsign with rfl | rfl
    · exact absurd hsame hmark.2.1
    · exact absurd hsame hmark.2.2

end Lib
