import Mathlib.Tactic.FieldSimp
import Mathlib.Tactic.Linarith
import Mathlib.Tactic.NormNum
import Mathlib.Tactic.Positivity
import Mathlib.Tactic.Ring
import Vynor.Lib.Number

/-!
# Rounding to doubles

What `Number.round` returns.  `roundHalfEven` gives the one nearest integer, or
the even one of two (`roundHalfEven_eq`).  A real number within `x / (2 * 10 ^ 16)`
of a positive double `x` is rounded to it (`round_of_near`): that is less than
half of a unit in the last place above `x`, and below it too, also at a power of
two where the unit gets smaller.
-/

namespace Lib

/-! ## Nearest integers -/

/-- The integer is nearest to the number, and even if another one is as near. -/
def IsNearestEven (q : Rat) (n : Int) : Prop := |q - n| < 1 / 2 ∨ |q - n| = 1 / 2 ∧ n % 2 = 0

theorem isNearestEven_roundHalfEven (q : Rat) : IsNearestEven q (roundHalfEven q) := by
  have hlow : (q.floor : Rat) ≤ q := Rat.floor_le q
  have hhigh : q < q.floor + 1 := by exact_mod_cast Rat.lt_floor_add_one q
  have hone : q - ((q.floor + 1 : Int) : Rat) = (q - q.floor) - 1 := by
    push_cast
    ring
  simp only [roundHalfEven]
  split
  next h => exact Or.inl (by rwa [abs_of_nonneg (by linarith)])
  next h =>
    split
    next hup =>
      refine Or.inl ?_
      rw [hone, abs_of_nonpos (by linarith)]
      linarith
    next hup =>
      have hhalf : q - q.floor = 1 / 2 := by linarith
      split
      next heven => exact Or.inr ⟨by rw [hhalf, abs_of_nonneg (by norm_num)], heven⟩
      next hodd =>
        refine Or.inr ⟨?_, by omega⟩
        rw [hone, hhalf, abs_of_nonpos (by norm_num)]
        norm_num

theorem IsNearestEven.unique {q : Rat} {n n' : Int} (h : IsNearestEven q n)
    (h' : IsNearestEven q n') : n = n' := by
  have hdiff : |((n - n' : Int) : Rat)| ≤ |q - n'| + |q - n| := by
    have hsplit : ((n - n' : Int) : Rat) = (q - n') - (q - n) := by
      push_cast
      ring
    rw [hsplit]
    exact abs_sub _ _
  have hle : |q - n| ≤ 1 / 2 := h.elim le_of_lt fun h => le_of_eq h.1
  have hle' : |q - n'| ≤ 1 / 2 := h'.elim le_of_lt fun h => le_of_eq h.1
  have hint : |n - n'| ≤ 1 := by
    have hcast : ((|n - n'| : Int) : Rat) ≤ (1 : Int) := by
      push_cast at hdiff ⊢
      linarith
    exact_mod_cast hcast
  by_contra hne
  have hone : |n - n'| = 1 := le_antisymm hint (Int.one_le_abs (sub_ne_zero.mpr hne))
  have hsum : (1 : Rat) ≤ |q - n'| + |q - n| := by
    have hcast : ((|n - n'| : Int) : Rat) = 1 := by rw [hone]; rfl
    push_cast at hdiff hcast
    linarith
  rcases h with h | ⟨h, heven⟩
  · linarith
  · rcases h' with h' | ⟨h', heven'⟩
    · linarith
    · rcases (abs_eq (by decide)).mp hone with hone | hone <;> omega

/-- The nearest integer is the only one. -/
theorem roundHalfEven_eq {q : Rat} {n : Int} (h : IsNearestEven q n) : roundHalfEven q = n :=
  (isNearestEven_roundHalfEven q).unique h

theorem roundHalfEven_neg (q : Rat) : roundHalfEven (-q) = -roundHalfEven q := by
  refine roundHalfEven_eq ?_
  have hneg : |-q - ((-roundHalfEven q : Int) : Rat)| = |q - roundHalfEven q| := by
    push_cast
    rw [← neg_sub', abs_neg]
  rw [IsNearestEven, hneg]
  exact (isNearestEven_roundHalfEven q).imp_right fun h => ⟨h.1, by omega⟩

/-! ## The leading bit -/

theorem two_zpow_pos (e : Int) : (0 : Rat) < 2 ^ e := zpow_pos (by norm_num) e

theorem two_zpow_succ (e : Int) : (2 : Rat) ^ (e + 1) = 2 * 2 ^ e := by
  rw [zpow_add_one₀ (by norm_num), mul_comm]

theorem binaryExponent_bounds {a : Rat} (ha : 0 < a) :
    (2 : Rat) ^ binaryExponent a ≤ a ∧ a < 2 ^ (binaryExponent a + 1) := by
  have hnum : 0 < a.num := Rat.num_pos.mpr ha
  have hden : (0 : Rat) < a.den := by exact_mod_cast a.den_pos
  have hvalue : a * a.den = a.num.natAbs := by
    rw [Rat.mul_den_eq_num]
    have habs : ((a.num.natAbs : Int) : Rat) = a.num := by rw [Int.natAbs_of_nonneg hnum.le]
    rw [← habs, Int.cast_natCast]
  have hnum0 : a.num.natAbs ≠ 0 := by omega
  have hnlow : ((2 ^ a.num.natAbs.log2 : Nat) : Rat) ≤ a.num.natAbs := by
    exact_mod_cast Nat.log2_self_le hnum0
  have hnhigh : (a.num.natAbs : Rat) < ((2 ^ (a.num.natAbs.log2 + 1) : Nat) : Rat) := by
    exact_mod_cast Nat.lt_log2_self
  have hdlow : ((2 ^ a.den.log2 : Nat) : Rat) ≤ a.den := by
    exact_mod_cast Nat.log2_self_le a.den_nz
  have hdhigh : (a.den : Rat) < ((2 ^ (a.den.log2 + 1) : Nat) : Rat) := by
    exact_mod_cast Nat.lt_log2_self
  have hpow : (2 : Rat) ^ ((a.num.natAbs.log2 : Int) - a.den.log2) * 2 ^ a.den.log2
      = 2 ^ a.num.natAbs.log2 := by
    rw [← zpow_natCast, ← zpow_natCast, ← zpow_add₀ (by norm_num), sub_add_cancel]
  push_cast at hnlow hnhigh hdlow hdhigh
  rw [pow_succ] at hnhigh hdhigh
  have hE := two_zpow_pos ((a.num.natAbs.log2 : Int) - a.den.log2)
  have hD : (0 : Rat) < 2 ^ a.den.log2 := by positivity
  simp only [binaryExponent]
  generalize (a.num.natAbs.log2 : Int) - a.den.log2 = e at *
  split
  next hlt =>
    rw [sub_add_cancel]
    refine ⟨?_, hlt⟩
    have hhalf : (2 : Rat) ^ (e - 1) * 2 = 2 ^ e := by
      rw [zpow_sub_one₀ (by norm_num)]
      field_simp
    by_contra hnot
    rw [not_le] at hnot
    nlinarith
  next hge =>
    rw [not_lt] at hge
    refine ⟨hge, ?_⟩
    rw [two_zpow_succ]
    by_contra hnot
    rw [not_lt] at hnot
    nlinarith

/-! ## Rounding -/

/-- The exponent of the unit in the last place. -/
def unitExponent (a : Rat) : Int := max (binaryExponent a) (-1022) - 52

theorem round_eq_finite {q x : Rat} (hq : 0 < q) :
    Number.round q = .finite x ↔
      roundHalfEven (q / 2 ^ unitExponent q) * (2 : Rat) ^ unitExponent q = x ∧ |x| < 2 ^ 1024 := by
  simp only [Number.round, unitExponent, if_neg (ne_of_gt hq), abs_of_pos hq]
  split
  next hinf =>
    constructor
    · intro h
      cases h
    · intro h
      rw [h.1] at hinf
      exact absurd h.2 (not_lt.mpr hinf)
  next hfin =>
    rw [not_le] at hfin
    constructor
    · intro h
      injection h with h
      exact ⟨h, by rwa [h] at hfin⟩
    · intro h
      rw [h.1]

/-- A multiple of the unit that is nearest to a number is what it is rounded to. -/
theorem round_of_unit {q x : Rat} {j : Int} (hq : 0 < q) (hx : |x| < 2 ^ 1024)
    (hj : x = j * 2 ^ unitExponent q) (hnear : |q - x| < 2 ^ unitExponent q / 2) :
    Number.round q = .finite x := by
  have hu := two_zpow_pos (unitExponent q)
  refine (round_eq_finite hq).mpr ⟨?_, hx⟩
  rw [hj]
  congr 2
  refine roundHalfEven_eq (Or.inl ?_)
  have hscale : q / 2 ^ unitExponent q - j = (q - x) / 2 ^ unitExponent q := by
    rw [hj]
    field_simp
  rw [hscale, abs_div, abs_of_pos hu, div_lt_iff₀ hu]
  linarith

theorem round_neg {q x : Rat} (h : Number.round q = .finite x) :
    Number.round (-q) = .finite (-x) := by
  simp only [Number.round, neg_eq_zero, abs_neg, neg_div, roundHalfEven_neg, Int.cast_neg,
    neg_mul] at h ⊢
  split at h
  next hzero =>
    rw [if_pos hzero]
    injection h with h
    rw [← h, neg_zero]
  next hzero =>
    rw [if_neg hzero]
    split at h
    next => cases h
    next hfin =>
      rw [if_neg hfin]
      injection h with h
      rw [h]

/-- A positive double as a multiple of its unit. -/
theorem exists_multiple {x : Rat} (hx : 0 < x) (h : Number.round x = .finite x) :
    ∃ j : Int, 0 < j ∧ x = j * 2 ^ unitExponent x ∧ x < 2 ^ 1024 := by
  obtain ⟨hvalue, hlt⟩ := (round_eq_finite hx).mp h
  refine ⟨_, ?_, hvalue.symm, by rwa [abs_of_pos hx] at hlt⟩
  have hu := two_zpow_pos (unitExponent x)
  have hpos : (0 : Rat) < roundHalfEven (x / 2 ^ unitExponent x) := by
    by_contra hnot
    rw [not_lt] at hnot
    nlinarith
  exact_mod_cast hpos

/-- A positive number against its unit: it has at most 53 bits, and just as many
unless the unit is the smallest. -/
theorem unit_bounds {a : Rat} (ha : 0 < a) :
    a < 2 ^ 53 * 2 ^ unitExponent a ∧
      (-1074 < unitExponent a → (2 : Rat) ^ 52 * 2 ^ unitExponent a ≤ a) := by
  obtain ⟨hlow, hhigh⟩ := binaryExponent_bounds ha
  have hscale : ∀ k : Nat, (2 : Rat) ^ k * 2 ^ unitExponent a = 2 ^ (unitExponent a + k) := by
    intro k
    rw [zpow_add₀ (by norm_num), zpow_natCast, mul_comm]
  rw [hscale, hscale]
  constructor
  · refine lt_of_lt_of_le hhigh (zpow_le_zpow_right₀ (by norm_num) ?_)
    simp only [unitExponent, Nat.cast_ofNat]
    omega
  · intro hnormal
    refine le_trans (zpow_le_zpow_right₀ (by norm_num) ?_) hlow
    simp only [unitExponent, Nat.cast_ofNat] at hnormal ⊢
    omega

theorem unitExponent_ge (a : Rat) : -1074 ≤ unitExponent a := by
  simp only [unitExponent]
  omega

/-- The next exponent doubles the unit, and a greater one is at least twice. -/
theorem two_mul_unit_le {d e : Int} (h : d < e) : 2 * (2 : Rat) ^ d ≤ 2 ^ e := by
  rw [← two_zpow_succ]
  exact zpow_le_zpow_right₀ (by norm_num) h

/-- What is near enough to a positive double is rounded to it. -/
theorem round_of_near {x q : Rat} (hx : 0 < x) (h : Number.round x = .finite x)
    (hnear : |q - x| ≤ x / (2 * 10 ^ 16)) : Number.round q = .finite x := by
  obtain ⟨j, hj, hvalue, hlt⟩ := exists_multiple hx h
  have hx1024 : |x| < 2 ^ 1024 := by rwa [abs_of_pos hx]
  obtain ⟨hdown, hup⟩ := abs_le.mp hnear
  rw [le_div_iff₀ (by norm_num)] at hup
  rw [← neg_div, div_le_iff₀ (by norm_num)] at hdown
  have hq : 0 < q := by linarith
  have hU := two_zpow_pos (unitExponent x)
  have hV := two_zpow_pos (unitExponent q)
  obtain ⟨hxhigh, hxlow⟩ := unit_bounds hx
  obtain ⟨hqhigh, hqlow⟩ := unit_bounds hq
  have hxge := unitExponent_ge x
  have hqge := unitExponent_ge q
  rcases lt_trichotomy (unitExponent q) (unitExponent x) with hless | hsame | hmore
  · -- `q` lies below the power of two that `x` is
    have hstep := two_mul_unit_le hless
    have hxlow := hxlow (by omega)
    have hjlow : (2 : Int) ^ 52 ≤ j := by
      have hle : (2 : Rat) ^ 52 ≤ j := le_of_mul_le_mul_right (hxlow.trans_eq hvalue) hU
      exact_mod_cast hle
    have hjhigh : j ≤ 2 ^ 52 := by
      by_contra hnot
      have hle : (2 : Rat) ^ 52 + 1 ≤ j := by exact_mod_cast not_le.mp hnot
      nlinarith
    have hpower : x = 2 ^ 52 * 2 ^ unitExponent x := by
      have heq : (j : Rat) = 2 ^ 52 := by exact_mod_cast le_antisymm hjhigh hjlow
      rw [← heq]
      exact hvalue
    have hnext : unitExponent x = unitExponent q + 1 := by
      by_contra hne
      have hfar : 4 * (2 : Rat) ^ unitExponent q ≤ 2 ^ unitExponent x := by
        have htwice := two_mul_unit_le (d := unitExponent q + 1) (e := unitExponent x) (by omega)
        rw [two_zpow_succ] at htwice
        linarith
      nlinarith
    rw [hnext, two_zpow_succ] at hpower
    refine round_of_unit (j := 2 ^ 53) hq hx1024 ?_ ?_
    · rw [hpower]
      push_cast
      ring
    · rw [abs_lt]
      constructor <;> nlinarith
  · refine round_of_unit (j := j) hq hx1024 (by rw [hsame]; exact hvalue) ?_
    rw [hsame, abs_lt]
    constructor <;> nlinarith
  · -- `x` and the next double are on one side of the power of two
    have hstep := two_mul_unit_le hmore
    have hqlow := hqlow (by omega)
    have hjhigh : j + 1 ≤ 2 ^ 53 := by
      have hless : (j : Rat) < 2 ^ 53 :=
        lt_of_mul_lt_mul_right (hvalue.symm.trans_lt hxhigh) hU.le
      exact_mod_cast hless
    have hle : (j : Rat) + 1 ≤ 2 ^ 53 := by exact_mod_cast hjhigh
    exfalso
    nlinarith

end Lib
