import Mathlib.Algebra.Order.Field.Rat
import Vynor.Lib.Json

/-!
# Reading and printing numbers

The numbers of the runtime as texts.  A real number becomes a number by rounding
to the nearest double, ties to even (`Number.round`).  A literal is read as the
exact value it denotes, and rounded (`Number.ofLiteral`).  A number is printed
with the fewest digits that are read back as it (`numberText`).
-/

namespace Lib

/-! ## Doubles -/

/-- The exponent of the leading bit of a positive number. -/
def binaryExponent (a : Rat) : Int :=
  let e := (a.num.natAbs.log2 : Int) - a.den.log2
  if a < (2 : Rat) ^ e then e - 1 else e

/-- The nearest integer, and the even one of two. -/
def roundHalfEven (q : Rat) : Int :=
  let n := q.floor
  if q - n < 1 / 2 then n
  else if 1 / 2 < q - n then n + 1
  else if n % 2 = 0 then n
  else n + 1

namespace Number

/-- The double nearest to a real number. -/
def round (q : Rat) : Number :=
  if q = 0 then .finite 0
  else
    let unit := (2 : Rat) ^ (max (binaryExponent |q|) (-1022) - 52)
    let value := roundHalfEven (q / unit) * unit
    if (2 : Rat) ^ 1024 ≤ |value| then .infinite (decide (q < 0)) else .finite value

def isFinite : Number → Bool
  | .finite _ => true
  | _ => false

end Number

/-! ## Reading -/

/-- The code points of the letters and digits of ASCII. -/
theorem toNat_of_isAlphanum {c : Char} (h : c.isAlphanum = true) :
    (65 ≤ c.toNat ∧ c.toNat ≤ 90 ∨ 97 ≤ c.toNat ∧ c.toNat ≤ 122) ∨
      48 ≤ c.toNat ∧ c.toNat ≤ 57 := by
  change ((decide (c.val ≥ 'A'.val ∧ c.val ≤ 'Z'.val) ||
    (decide (c.val ≥ 'a'.val) && decide (c.val ≤ 'z'.val))) ||
    (decide (c.val ≥ '0'.val) && decide (c.val ≤ '9'.val))) = true at h
  simp only [Bool.or_eq_true, Bool.and_eq_true, decide_eq_true_eq, ge_iff_le,
    UInt32.le_iff_toNat_le] at h
  exact h

/-- The value of a digit in bases up to 16. -/
def digitValue (c : Char) : Nat :=
  if '0' ≤ c ∧ c ≤ '9' then c.toNat - '0'.toNat
  else if 'a' ≤ c ∧ c ≤ 'f' then c.toNat - 'a'.toNat + 10
  else if 'A' ≤ c ∧ c ≤ 'F' then c.toNat - 'A'.toNat + 10
  else 16

/-- The value of some digits. -/
def digitsValue? (base : Nat) (cs : List Char) : Option Nat :=
  if cs.all fun c => digitValue c < base then
    some (cs.foldl (fun n c => base * n + digitValue c) 0)
  else none

/-- The digits and their values. -/
theorem digitValue_cases {c : Char} (h : digitValue c < 16) :
    48 ≤ c.toNat ∧ c.toNat ≤ 57 ∧ digitValue c = c.toNat - 48 ∨
      97 ≤ c.toNat ∧ c.toNat ≤ 102 ∧ digitValue c = c.toNat - 97 + 10 ∨
      65 ≤ c.toNat ∧ c.toNat ≤ 70 ∧ digitValue c = c.toNat - 65 + 10 := by
  unfold digitValue at h ⊢
  split at h
  · next hdigit =>
      rw [if_pos hdigit]
      exact Or.inl ⟨hdigit.1, hdigit.2, rfl⟩
  · next hdigit =>
      rw [if_neg hdigit]
      split at h
      · next hlower =>
          rw [if_pos hlower]
          exact Or.inr (Or.inl ⟨hlower.1, hlower.2, rfl⟩)
      · next hlower =>
          rw [if_neg hlower]
          split at h
          · next hupper =>
              rw [if_pos hupper]
              exact Or.inr (Or.inr ⟨hupper.1, hupper.2, rfl⟩)
          · omega

/-- A digit below ten is a decimal digit. -/
theorem digitValue_lt_ten {c : Char} (h : digitValue c < 10) : 48 ≤ c.toNat ∧ c.toNat ≤ 57 := by
  rcases digitValue_cases (Nat.lt_trans h (by decide)) with hdigit | hlower | hupper
  · exact ⟨hdigit.1, hdigit.2.1⟩
  · omega
  · omega

theorem digitValue_digitChar {n : Nat} (h : n < 16) : digitValue (Nat.digitChar n) = n := by
  have hall : ∀ n < 16, digitValue (Nat.digitChar n) = n := by decide
  exact hall n h

/-- The decimal digit of a value. -/
theorem digitChar_digitValue {c : Char} (h : digitValue c < 10) :
    Nat.digitChar (digitValue c) = c := by
  have hall : ∀ n < 10, (Nat.digitChar n).toNat = n + 48 := by decide
  rcases digitValue_cases (Nat.lt_trans h (by decide)) with hdigit | hlower | hupper
  · have hcode : (Nat.digitChar (digitValue c)).toNat = c.toNat := by
      rw [hall _ h]
      omega
    rw [← Char.ofNat_toNat (Nat.digitChar (digitValue c)), hcode, Char.ofNat_toNat]
  · omega
  · omega

theorem foldl_digits_lt {base : Nat} {cs : List Char} (h : ∀ c ∈ cs, digitValue c < base)
    (n : Nat) :
    cs.foldl (fun n c => base * n + digitValue c) n < (n + 1) * base ^ cs.length := by
  induction cs generalizing n with
  | nil => simp
  | cons c cs ih =>
      have hc := h c List.mem_cons_self
      have hstep : base * n + digitValue c + 1 ≤ (n + 1) * base := by
        rw [Nat.add_mul, Nat.one_mul, Nat.mul_comm n base, Nat.add_assoc]
        exact Nat.add_le_add_left hc _
      calc cs.foldl (fun n c => base * n + digitValue c) (base * n + digitValue c)
          < (base * n + digitValue c + 1) * base ^ cs.length :=
            ih (fun d hd => h d (List.mem_cons_of_mem c hd)) _
        _ ≤ (n + 1) * base * base ^ cs.length := Nat.mul_le_mul_right _ hstep
        _ = (n + 1) * base ^ (c :: cs).length := by
            rw [List.length_cons, Nat.pow_succ', Nat.mul_assoc]

/-- Digits, and at least one. -/
def natural? (base : Nat) : List Char → Option Nat
  | [] => none
  | c :: cs => digitsValue? base (c :: cs)

/-- A sign that may be missing, and what follows it. -/
def signed? (read : List Char → Option Rat) : List Char → Option Rat
  | '+' :: cs => read cs
  | '-' :: cs => (read cs).map fun q => -q
  | cs => read cs

/-- The mantissa of a decimal literal, as digits and how many of them follow the
point. -/
def mantissa? (cs : List Char) : Option (Nat × Nat) :=
  match cs.splitOn '.' with
  | [whole] => (natural? 10 whole).map fun n => (n, 0)
  | [whole, fraction] => (natural? 10 (whole ++ fraction)).map fun n => (n, fraction.length)
  | _ => none

/-- The exponent of a decimal literal. -/
def exponent? : List Char → Option Int
  | '+' :: cs => (natural? 10 cs).map fun n => (n : Int)
  | '-' :: cs => (natural? 10 cs).map fun n => -(n : Int)
  | cs => (natural? 10 cs).map fun n => (n : Int)

/-- A decimal literal without a sign. -/
def decimal? (cs : List Char) : Option Rat :=
  match cs.splitOnP fun c => c = 'e' || c = 'E' with
  | [digits] => (mantissa? digits).map fun m => m.1 * (10 : Rat) ^ (-(m.2 : Int))
  | [digits, exponent] =>
      (mantissa? digits).bind fun m =>
        (exponent? exponent).map fun e => m.1 * (10 : Rat) ^ (e - (m.2 : Int))
  | _ => none

/-- The number of a literal without space around it. -/
def Number.ofLiteral : List Char → Number
  | [] => .finite 0
  | '0' :: 'x' :: cs => ((natural? 16 cs).map fun n => Number.round n).getD .nan
  | '0' :: 'X' :: cs => ((natural? 16 cs).map fun n => Number.round n).getD .nan
  | '0' :: 'o' :: cs => ((natural? 8 cs).map fun n => Number.round n).getD .nan
  | '0' :: 'O' :: cs => ((natural? 8 cs).map fun n => Number.round n).getD .nan
  | '0' :: 'b' :: cs => ((natural? 2 cs).map fun n => Number.round n).getD .nan
  | '0' :: 'B' :: cs => ((natural? 2 cs).map fun n => Number.round n).getD .nan
  | cs =>
      if cs = "Infinity".toList ∨ cs = "+Infinity".toList then .infinite false
      else if cs = "-Infinity".toList then .infinite true
      else ((signed? decimal? cs).map Number.round).getD .nan

/-! ## Printing -/

/-- The number of digits before the point of a positive double: the least `n`
with a value below `10 ^ n`. -/
def decimalExponent? (x : Rat) : Option Int :=
  ((List.range 640).map fun (i : Nat) => (i : Int) - 325).find? fun n => x < (10 : Rat) ^ n

/-- The decimal `s * 10 ^ m` with `k` digits that is read back as a value below
`10 ^ n`, and the nearer one of two. -/
def decimalOf? (x : Rat) (n : Int) (k : Nat) : Option (Nat × Int) :=
  let m := n - k
  let below := (x / (10 : Rat) ^ m).floor.toNat
  let reads (s : Nat) : Bool := Number.round (s * (10 : Rat) ^ m) = .finite x
  let distance (s : Nat) : Rat := |s * (10 : Rat) ^ m - x|
  let above : Nat × Int :=
    -- ten to the k has one digit more, and zeros
    if below + 1 = 10 ^ k then (1, n) else (below + 1, m)
  if reads below && reads (below + 1) then
    if distance below < distance (below + 1) then some (below, m)
    else if distance (below + 1) < distance below then some above
    else if below % 2 = 0 then some (below, m)
    else some above
  else if reads below then some (below, m)
  else if reads (below + 1) then some above
  else none

/-- The fewest digits that are read back as a positive double.  There are never
more than 17. -/
def shortestDecimal? (x : Rat) : Option (Nat × Int) :=
  (decimalExponent? x).bind fun n => (List.range 17).findSome? fun k => decimalOf? x n (k + 1)

/-- A decimal in the notation of the language: plain up to 21 digits and down to
the sixth place, else with an exponent. -/
def decimalText (s : Nat) (m : Int) : List Char :=
  let digits := Nat.toDigits 10 s
  let n := m + digits.length
  let zeros (i : Int) : List Char := List.replicate i.toNat '0'
  if 0 ≤ m ∧ n ≤ 21 then digits ++ zeros m
  else if 0 < n ∧ n ≤ 21 then digits.take n.toNat ++ '.' :: digits.drop n.toNat
  else if -6 < n ∧ n ≤ 0 then "0.".toList ++ zeros (-n) ++ digits
  else
    let mantissa :=
      match digits with
      | d :: e :: ds => d :: '.' :: e :: ds
      | ds => ds
    mantissa ++ 'e' :: (if n - 1 < 0 then '-' else '+') :: Nat.toDigits 10 (n - 1).natAbs

/-- `String(value)` of a double. -/
def numberText (value : Rat) : String :=
  if value = 0 then "0"
  else
    let sign := if value < 0 then ['-'] else []
    match shortestDecimal? |value| with
    | some (s, m) => String.ofList (sign ++ decimalText s m)
    | none => ""

/-! ## The length of a text -/

/-- Ten to the power of a sum. -/
theorem ten_zpow_sub (n : Int) (k : Nat) :
    (10 : Rat) ^ n = ((10 ^ k : Nat) : Rat) * 10 ^ (n - k) := by
  rw [Nat.cast_pow, Nat.cast_ofNat, ← zpow_natCast, ← zpow_add₀ (by decide), add_sub_cancel]

/-- A decimal of `k` digits, or the next power of ten. -/
theorem decimalOf?_bounds {x : Rat} {n : Int} {k s : Nat} {m : Int} (hn : x < (10 : Rat) ^ n)
    (hk : 0 < k) (h : decimalOf? x n k = some (s, m)) : s < 10 ^ k ∧ n - k ≤ m ∧ m ≤ n := by
  have hscale : (0 : Rat) < 10 ^ (n - k) := zpow_pos (by decide) _
  have hquotient : x / (10 : Rat) ^ (n - k) < ((10 ^ k : Nat) : Int) := by
    rw [div_lt_iff₀ hscale, Int.cast_natCast, ← ten_zpow_sub]
    exact hn
  have hbelow : (x / (10 : Rat) ^ (n - k)).floor.toNat < 10 ^ k := by
    have hfloor := Rat.floor_lt_iff.mpr hquotient
    have hpos : 0 < 10 ^ k := Nat.pow_pos (by decide)
    omega
  have hone : 1 < 10 ^ k := Nat.one_lt_pow (by omega) (by decide)
  have habove : ∀ below, below < 10 ^ k →
      (if below + 1 = 10 ^ k then ((1 : Nat), n) else (below + 1, n - k)) = (s, m) →
        s < 10 ^ k ∧ n - k ≤ m ∧ m ≤ n := by
    intro below hlt heq
    split at heq
    · cases heq
      exact ⟨hone, by omega, Int.le_refl n⟩
    · cases heq
      exact ⟨by omega, Int.le_refl _, by omega⟩
  have hdown : some ((x / (10 : Rat) ^ (n - k)).floor.toNat, n - k) = some (s, m) →
      s < 10 ^ k ∧ n - k ≤ m ∧ m ≤ n := by
    intro heq
    cases heq
    exact ⟨hbelow, Int.le_refl _, by omega⟩
  simp only [decimalOf?] at h
  split at h
  · split at h
    · exact hdown h
    · split at h
      · exact habove _ hbelow (Option.some.inj h)
      · split at h
        · exact hdown h
        · exact habove _ hbelow (Option.some.inj h)
  · split at h
    · exact hdown h
    · split at h
      · exact habove _ hbelow (Option.some.inj h)
      · cases h

/-- The text of a decimal with at most 17 digits and three digits of exponent. -/
theorem length_decimalText_le {s : Nat} {m : Int} (hs : s < 10 ^ 17) (hm : -342 ≤ m) (hm' : m ≤ 314) :
    (decimalText s m).length ≤ 24 := by
  have hdigits : (Nat.toDigits 10 s).length ≤ 17 :=
    (Nat.length_toDigits_le_iff (by decide) (by decide)).mpr hs
  have hpos : 0 < (Nat.toDigits 10 s).length := Nat.length_toDigits_pos
  simp only [decimalText]
  generalize Nat.toDigits 10 s = digits at hdigits hpos ⊢
  have hexponent : (Nat.toDigits 10 (m + digits.length - 1).natAbs).length ≤ 3 :=
    (Nat.length_toDigits_le_iff (by decide) (by decide)).mpr (by omega)
  generalize Nat.toDigits 10 (m + digits.length - 1).natAbs = exponent at hexponent ⊢
  split
  · next hplain =>
      rw [List.length_append, List.length_replicate]
      omega
  · split
    · next hpoint =>
        rw [List.length_append, List.length_cons, List.length_take, List.length_drop]
        omega
    · split
      · next hsmall =>
          simp only [List.length_append, List.length_replicate, show "0.".toList.length = 2 from rfl]
          omega
      · rw [List.length_append, List.length_cons, List.length_cons]
        split
        · simp only [List.length_cons] at hdigits ⊢
          omega
        · omega

theorem decimalExponent?_bounds {x : Rat} {n : Int} (h : decimalExponent? x = some n) :
    x < (10 : Rat) ^ n ∧ -325 ≤ n ∧ n ≤ 314 := by
  unfold decimalExponent? at h
  have hlt := List.find?_some h
  obtain ⟨i, hi, rfl⟩ := List.mem_map.mp (List.mem_of_find?_eq_some h)
  have hrange := List.mem_range.mp hi
  exact ⟨of_decide_eq_true hlt, by omega, by omega⟩

theorem shortestDecimal?_bounds {x : Rat} {s : Nat} {m : Int}
    (h : shortestDecimal? x = some (s, m)) : s < 10 ^ 17 ∧ -342 ≤ m ∧ m ≤ 314 := by
  unfold shortestDecimal? at h
  obtain ⟨n, hn, h⟩ := Option.bind_eq_some_iff.mp h
  obtain ⟨hlt, hlow, hhigh⟩ := decimalExponent?_bounds hn
  obtain ⟨k, hk, h⟩ := List.exists_of_findSome?_eq_some h
  obtain ⟨hs, hm, hm'⟩ := decimalOf?_bounds hlt (Nat.succ_pos k) h
  have hcount := List.mem_range.mp hk
  have hpow : 10 ^ (k + 1) ≤ 10 ^ 17 := Nat.pow_le_pow_right (by decide) hcount
  exact ⟨Nat.lt_of_lt_of_le hs hpow, by omega, by omega⟩

/-- The text of a number is short. -/
theorem length_numberText_le (value : Rat) : (numberText value).length ≤ 25 := by
  unfold numberText
  split
  · decide
  · cases hdecimal : shortestDecimal? |value| with
    | none => exact Nat.zero_le _
    | some decimal =>
        obtain ⟨s, m⟩ := decimal
        obtain ⟨hs, hm, hm'⟩ := shortestDecimal?_bounds hdecimal
        have hlength := length_decimalText_le hs hm hm'
        simp only [String.length_ofList, List.length_append]
        split <;> simp only [List.length_nil, List.length_singleton] <;> omega

end Lib
