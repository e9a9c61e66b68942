import Mathlib.Data.List.Induction
import Mathlib.Data.Nat.Digits.Defs
import Vynor.Lib.Number

/-!
# Dates

A moment is its milliseconds since 1970.  Its *fields* are those of the
proleptic Gregorian calendar in UTC, and `utc_fields` says that they determine
it.  `toISOString` writes a moment that a `Date` can hold, `parse` reads the
format that `toISOString` writes, and reads back what it wrote
(`parse_toISOString`).  Other formats are not read here.
-/

namespace Lib

namespace IsoDate

/-! ## Days -/

/-- The day on which a year begins, counted from 1970. -/
def dayFromYear (y : Int) : Int :=
  365 * (y - 1970) + (y - 1969) / 4 - (y - 1901) / 100 + (y - 1601) / 400

/-- The year of a day.  The mean length of a year is 146097 / 400 days. -/
def yearFromDay (d : Int) : Int :=
  let y := 1970 + d * 400 / 146097
  if d < dayFromYear y then y - 1
  else if dayFromYear (y + 1) ≤ d then y + 1
  else y

/-- A year is at most two days away from the mean. -/
theorem dayFromYear_bounds (y : Int) :
    146097 * (y - 1970) - 800 < 400 * dayFromYear y ∧
      400 * dayFromYear y < 146097 * (y - 1970) + 800 := by
  unfold dayFromYear
  omega

/-- A day lies in its year. -/
theorem yearFromDay_spec (d : Int) :
    dayFromYear (yearFromDay d) ≤ d ∧ d < dayFromYear (yearFromDay d + 1) := by
  unfold yearFromDay
  simp only
  have hlow : 146097 * (d * 400 / 146097) ≤ d * 400 := by omega
  have hhigh : d * 400 < 146097 * (d * 400 / 146097 + 1) := by omega
  generalize hy : 1970 + d * 400 / 146097 = y at *
  have hbefore := dayFromYear_bounds (y - 1)
  have hafter := dayFromYear_bounds (y + 1 + 1)
  split
  next h =>
    rw [Int.sub_add_cancel]
    omega
  split
  · omega
  · omega

/-! ## Months -/

def isLeapYear (y : Int) : Bool := y % 4 = 0 && (y % 100 ≠ 0 || y % 400 = 0)

/-- The days of a year. -/
def daysInYear (leap : Bool) : Nat := if leap then 366 else 365

theorem dayFromYear_succ (y : Int) :
    dayFromYear (y + 1) = dayFromYear y + daysInYear (isLeapYear y) := by
  unfold dayFromYear isLeapYear daysInYear
  simp only [Bool.and_eq_true, Bool.or_eq_true, decide_eq_true_eq]
  split
  · omega
  · omega

/-- The days of a common year before each month. -/
def daysBefore : List Nat := [0, 31, 59, 90, 120, 151, 181, 212, 243, 273, 304, 334]

/-- The days of a year before a month.  The first month is 1. -/
def monthStart (leap : Bool) (month : Nat) : Nat :=
  daysBefore.getD (month - 1) 365 + if leap && 2 < month then 1 else 0

/-- The month of a day of the year.  The first day is 0. -/
def monthOf (leap : Bool) (n : Nat) : Nat :=
  ((List.range' 1 12).filter fun month => monthStart leap month ≤ n).length

/-- A day of a year lies in its month. -/
theorem monthOf_spec {leap : Bool} {n : Nat} (h : n < daysInYear leap) :
    1 ≤ monthOf leap n ∧ monthOf leap n ≤ 12 ∧ monthStart leap (monthOf leap n) ≤ n ∧
      n < monthStart leap (monthOf leap n) + 31 := by
  have hall : (List.range (daysInYear leap)).all (fun n =>
      1 ≤ monthOf leap n && monthOf leap n ≤ 12 && monthStart leap (monthOf leap n) ≤ n &&
        n < monthStart leap (monthOf leap n) + 31) = true := by
    cases leap with
    | false => decide +kernel
    | true => decide +kernel
  have hn := List.all_eq_true.mp hall n (List.mem_range.mpr h)
  simp only [Bool.and_eq_true, decide_eq_true_eq] at hn
  exact ⟨hn.1.1.1, hn.1.1.2, hn.1.2, hn.2⟩

/-! ## Fields -/

/-- A moment in the calendar.  The first month and the first day are 1. -/
structure Fields where
  year : Int
  month : Nat
  day : Nat
  hour : Nat
  minute : Nat
  second : Nat
  millisecond : Nat
deriving DecidableEq, Repr

/-- The milliseconds of a day. -/
def msPerDay : Int := 86400000

/-- `getUTCFullYear` and its siblings. -/
def fields (t : Int) : Fields :=
  let d := t / msPerDay
  let ms := (t % msPerDay).toNat
  let year := yearFromDay d
  let n := (d - dayFromYear year).toNat
  let month := monthOf (isLeapYear year) n
  { year := year
    month := month
    day := n - monthStart (isLeapYear year) month + 1
    hour := ms / 3600000
    minute := ms / 60000 % 60
    second := ms / 1000 % 60
    millisecond := ms % 1000 }

/-- `Date.UTC`. -/
def utc (f : Fields) : Int :=
  (dayFromYear f.year + monthStart (isLeapYear f.year) f.month + f.day - 1) * msPerDay +
    (f.hour * 3600000 + f.minute * 60000 + f.second * 1000 + f.millisecond)

/-- Where a moment lies in its year and its month. -/
theorem fields_spec (t : Int) :
    dayFromYear (fields t).year + monthStart (isLeapYear (fields t).year) (fields t).month +
        (fields t).day - 1 = t / msPerDay ∧
      (fields t).hour * 3600000 + (fields t).minute * 60000 + (fields t).second * 1000 +
        (fields t).millisecond = (t % msPerDay).toNat ∧
      1 ≤ (fields t).month ∧ (fields t).month ≤ 12 ∧ 1 ≤ (fields t).day ∧ (fields t).day ≤ 31 ∧
      (fields t).hour < 24 := by
  obtain ⟨hlow, hhigh⟩ := yearFromDay_spec (t / msPerDay)
  have hlength := dayFromYear_succ (yearFromDay (t / msPerDay))
  have hms : t % msPerDay < 86400000 := Int.emod_lt_of_pos t (by decide)
  simp only [fields]
  generalize yearFromDay (t / msPerDay) = year at *
  have hmonth := @monthOf_spec (isLeapYear year) (t / msPerDay - dayFromYear year).toNat (by omega)
  generalize monthOf (isLeapYear year) (t / msPerDay - dayFromYear year).toNat = month at *
  refine ⟨?_, ?_, hmonth.1, hmonth.2.1, ?_, ?_, ?_⟩
  · omega
  · omega
  · omega
  · omega
  · omega

/-- The fields of a moment determine it. -/
theorem utc_fields (t : Int) : utc (fields t) = t := by
  obtain ⟨hday, hms, -⟩ := fields_spec t
  have hpos : 0 ≤ t % msPerDay := Int.emod_nonneg t (by decide)
  have hsum : t / msPerDay * msPerDay + t % msPerDay = t := Int.ediv_mul_add_emod t msPerDay
  rw [utc, hday]
  omega

/-! ## Writing -/

/-- The last digits of a number, as many as given. -/
def pad : Nat → Nat → List Char
  | 0, _ => []
  | width + 1, n => pad width (n / 10) ++ [Nat.digitChar (n % 10)]

/-- Four digits, or a sign and six digits. -/
def yearChars (y : Int) : List Char :=
  if 0 ≤ y ∧ y ≤ 9999 then pad 4 y.toNat
  else (if 0 ≤ y then '+' else '-') :: pad 6 y.natAbs

/-- `toISOString`, as characters. -/
def isoChars (t : Int) : List Char :=
  let f := fields t
  yearChars f.year ++ '-' :: (pad 2 f.month ++ '-' :: (pad 2 f.day ++ 'T' :: (pad 2 f.hour ++
    ':' :: (pad 2 f.minute ++ ':' :: (pad 2 f.second ++ '.' :: (pad 3 f.millisecond ++ ['Z']))))))

/-- `toISOString`. -/
def toISOString (t : Int) : String := String.ofList (isoChars t)

/-- The moments that a `Date` can hold. -/
def isTimeValue (t : Int) : Bool := -8640000000000000 ≤ t && t ≤ 8640000000000000

example : toISOString 1709209845006 = "2024-02-29T12:30:45.006Z" := by decide

example : toISOString (-62198755200001) = "-000002-12-31T23:59:59.999Z" := by decide

/-! ## Reading -/

/-- A number of the given width. -/
def readDigits (width : Nat) (cs : List Char) : Option (Nat × List Char) :=
  if width ≤ cs.length then (digitsValue? 10 (cs.take width)).map fun n => (n, cs.drop width)
  else none

/-- A separator, and a number of the given width. -/
def readPart (separator : Char) (width : Nat) : List Char → Option (Nat × List Char)
  | [] => none
  | c :: cs => if c = separator then readDigits width cs else none

/-- A year.  There is no year -0. -/
def readYear : List Char → Option (Int × List Char)
  | '+' :: cs => (readDigits 6 cs).map fun (n, rest) => ((n : Int), rest)
  | '-' :: cs =>
      (readDigits 6 cs).bind fun (n, rest) => if n = 0 then none else some (-(n : Int), rest)
  | cs => (readDigits 4 cs).map fun (n, rest) => ((n : Int), rest)

/-- The fields of a text, and what follows them. -/
def readFields (cs : List Char) : Option (Fields × List Char) :=
  (readYear cs).bind fun (year, cs) =>
    (readPart '-' 2 cs).bind fun (month, cs) =>
      (readPart '-' 2 cs).bind fun (day, cs) =>
        (readPart 'T' 2 cs).bind fun (hour, cs) =>
          (readPart ':' 2 cs).bind fun (minute, cs) =>
            (readPart ':' 2 cs).bind fun (second, cs) =>
              (readPart '.' 3 cs).map fun (millisecond, cs) =>
                (⟨year, month, day, hour, minute, second, millisecond⟩, cs)

/-- Fields in their ranges.  A day after the last one of its month is one of the
next month. -/
def Fields.inRange (f : Fields) : Bool :=
  1 ≤ f.month && f.month ≤ 12 && 1 ≤ f.day && f.day ≤ 31 && f.hour < 24 && f.minute < 60 &&
    f.second < 60

/-- The moment of a text in the format of `toISOString`. -/
def parse (text : String) : Option Int :=
  (readFields text.toList).bind fun (f, rest) =>
    if rest = ['Z'] ∧ f.inRange = true ∧ isTimeValue (utc f) = true then some (utc f) else none

example : parse "2024-02-29T12:30:45.006Z" = some 1709209845006 := by decide

/-! ## Reading what was written -/

theorem length_pad (width n : Nat) : (pad width n).length = width := by
  induction width generalizing n with
  | zero => rfl
  | succ width ih => rw [pad, List.length_append, ih, List.length_singleton]

theorem digitValue_digit {n : Nat} (h : n < 10) : digitValue (Nat.digitChar n) = n :=
  digitValue_digitChar (Nat.lt_trans h (by decide))

theorem all_pad (width n : Nat) : (pad width n).all (fun c => digitValue c < 10) = true := by
  induction width generalizing n with
  | zero => rfl
  | succ width ih =>
      have hlt : n % 10 < 10 := Nat.mod_lt n (by decide)
      rw [pad, List.all_append, ih, Bool.true_and]
      simp [digitValue_digit hlt, hlt]

theorem foldl_pad (width n : Nat) (h : n < 10 ^ width) :
    (pad width n).foldl (fun n c => 10 * n + digitValue c) 0 = n := by
  induction width generalizing n with
  | zero => exact (Nat.lt_one_iff.mp h).symm
  | succ width ih =>
      have hdiv : n / 10 < 10 ^ width := Nat.div_lt_of_lt_mul (by rwa [pow_succ'] at h)
      rw [pad, List.foldl_append, ih (n / 10) hdiv, List.foldl_cons, List.foldl_nil,
        digitValue_digit (Nat.mod_lt n (by decide))]
      exact Nat.div_add_mod n 10

/-- Digits are those of their number. -/
theorem pad_foldl {text : List Char} (h : ∀ c ∈ text, digitValue c < 10) :
    pad text.length (text.foldl (fun n c => 10 * n + digitValue c) 0) = text := by
  induction text using List.reverseRecOn with
  | nil => rfl
  | append_singleton text c ih =>
      have hc : digitValue c < 10 :=
        h c (List.mem_append_right text (List.mem_singleton_self c))
      have htext : ∀ d ∈ text, digitValue d < 10 :=
        fun d hd => h d (List.mem_append_left [c] hd)
      rw [List.length_append, List.length_singleton, List.foldl_append, List.foldl_cons,
        List.foldl_nil, pad]
      have hdiv : ∀ n, (10 * n + digitValue c) / 10 = n := by omega
      have hmod : ∀ n, (10 * n + digitValue c) % 10 = digitValue c := by omega
      rw [hdiv, hmod, ih htext, digitChar_digitValue hc]

theorem pad_zero (width : Nat) : pad width 0 = List.replicate width '0' := by
  induction width with
  | zero => rfl
  | succ width ih =>
      rw [pad, Nat.zero_div, ih, List.replicate_succ']
      rfl

theorem readDigits_pad {width n : Nat} (h : n < 10 ^ width) (rest : List Char) :
    readDigits width (pad width n ++ rest) = some (n, rest) := by
  have hlength := length_pad width n
  have htake : (pad width n ++ rest).take width = pad width n := List.take_left' hlength
  have hdrop : (pad width n ++ rest).drop width = rest := List.drop_left' hlength
  rw [readDigits, if_pos (by rw [List.length_append]; omega), htake, hdrop, digitsValue?,
    if_pos (all_pad width n), foldl_pad width n h]
  rfl

theorem readPart_pad {separator : Char} {width n : Nat} (h : n < 10 ^ width) (rest : List Char) :
    readPart separator width (separator :: (pad width n ++ rest)) = some (n, rest) := by
  rw [readPart, if_pos rfl, readDigits_pad h]

/-- A number begins with a digit. -/
theorem pad_cons (width n : Nat) :
    ∃ c cs, pad (width + 1) n = c :: cs ∧ c ≠ '+' ∧ c ≠ '-' := by
  induction width generalizing n with
  | zero =>
      have hall : ∀ n < 10, Nat.digitChar n ≠ '+' ∧ Nat.digitChar n ≠ '-' := by decide
      exact ⟨Nat.digitChar (n % 10), [], rfl, hall (n % 10) (Nat.mod_lt n (by decide))⟩
  | succ width ih =>
      obtain ⟨c, cs, hpad, hne⟩ := ih (n / 10)
      refine ⟨c, cs ++ [Nat.digitChar (n % 10)], ?_, hne⟩
      rw [pad, hpad]
      rfl

theorem readYear_yearChars {y : Int} (h : y.natAbs < 1000000) (rest : List Char) :
    readYear (yearChars y ++ rest) = some (y, rest) := by
  unfold yearChars
  split
  next hfour =>
    obtain ⟨c, cs, hpad, hplus, hminus⟩ := pad_cons 3 y.toNat
    have hread : readYear (pad 4 y.toNat ++ rest) =
        (readDigits 4 (pad 4 y.toNat ++ rest)).map fun (n, rest) => ((n : Int), rest) := by
      rw [hpad, List.cons_append, readYear]
      · intro cs' heq
        exact hplus (List.cons.inj heq).1
      · intro cs' heq
        exact hminus (List.cons.inj heq).1
    have hlt : y.toNat < 10 ^ 4 := by omega
    rw [hread, readDigits_pad hlt]
    exact congrArg (fun y => some (y, rest)) (Int.toNat_of_nonneg hfour.1)
  next hsix =>
    have hlt : y.natAbs < 10 ^ 6 := by omega
    split
    next hpos =>
      rw [List.cons_append, readYear, readDigits_pad hlt]
      exact congrArg (fun y => some (y, rest)) (Int.natAbs_of_nonneg hpos)
    next hneg =>
      have hpositive : y.natAbs ≠ 0 := by omega
      have hvalue : -(y.natAbs : Int) = y := by omega
      rw [List.cons_append, readYear, readDigits_pad hlt, Option.bind_some]
      simp only [if_neg hpositive, hvalue]

/-- The year of a moment that a `Date` can hold. -/
theorem natAbs_year_lt {t : Int} (h : isTimeValue t = true) :
    (fields t).year.natAbs < 1000000 := by
  simp only [isTimeValue, Bool.and_eq_true, decide_eq_true_eq] at h
  have hspec := yearFromDay_spec (t / msPerDay)
  have hbounds := dayFromYear_bounds (yearFromDay (t / msPerDay))
  have hbounds' := dayFromYear_bounds (yearFromDay (t / msPerDay) + 1)
  simp only [fields, msPerDay] at *
  omega

theorem inRange_fields (t : Int) : (fields t).inRange = true := by
  obtain ⟨-, -, hmonth, hmonth', hday, hday', hhour⟩ := fields_spec t
  have hminute : (fields t).minute < 60 := Nat.mod_lt _ (by decide)
  have hsecond : (fields t).second < 60 := Nat.mod_lt _ (by decide)
  simp only [Fields.inRange, Bool.and_eq_true, decide_eq_true_eq]
  exact ⟨⟨⟨⟨⟨⟨hmonth, hmonth'⟩, hday⟩, hday'⟩, hhour⟩, hminute⟩, hsecond⟩

theorem readFields_isoChars {t : Int} (h : isTimeValue t = true) :
    readFields (isoChars t) = some (fields t, ['Z']) := by
  obtain ⟨-, -, hmonth, hmonth', hday, hday', hhour⟩ := fields_spec t
  have hminute : (fields t).minute < 60 := Nat.mod_lt _ (by decide)
  have hsecond : (fields t).second < 60 := Nat.mod_lt _ (by decide)
  have hmillisecond : (fields t).millisecond < 1000 := Nat.mod_lt _ (by decide)
  rw [readFields, isoChars, readYear_yearChars (natAbs_year_lt h), Option.bind_some]
  simp only
  rw [readPart_pad (by omega), Option.bind_some]
  simp only
  rw [readPart_pad (by omega), Option.bind_some]
  simp only
  rw [readPart_pad (by omega), Option.bind_some]
  simp only
  rw [readPart_pad (by omega), Option.bind_some]
  simp only
  rw [readPart_pad (by omega), Option.bind_some]
  simp only
  rw [readPart_pad (by omega), Option.map_some]

/-- What `toISOString` writes is read back. -/
theorem parse_toISOString {t : Int} (h : isTimeValue t = true) :
    parse (toISOString t) = some t := by
  rw [parse, toISOString, String.toList_ofList, readFields_isoChars h, Option.bind_some]
  simp only [utc_fields, inRange_fields, h, and_self, if_true]

end IsoDate

end Lib
