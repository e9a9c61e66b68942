import Vynor.Lib.DoubleText
import Vynor.Lib.JsText

/-!
# Doubles in JSON texts

The finite doubles as the numbers of JSON values.  They are written with the
fewest digits and are read back (`doubleFormat`).
-/

namespace Lib

/-- A finite double, without the sign of zero. -/
structure Double where
  /-- The number. -/
  value : Rat
  /-- A double is rounded to itself. -/
  isDouble : Number.round value = .finite value
deriving DecidableEq

/-- The number of a token.  A literal that is no finite double is refused. -/
def readDouble (token : Units) : Option Double :=
  match Json.readNumber (token.map fun u => Char.ofNat u.toNat) with
  | some (.finite value) =>
      if h : Number.round value = .finite value then some ⟨value, h⟩ else none
  | _ => none

theorem isNumberChar_range {c : Char} (h : Json.isNumberChar c = true) :
    c.toNat < 128 ∧ isNumberUnit (unit c) = true := by
  rw [Json.isNumberChar, Bool.or_eq_true] at h
  rcases h with hdigit | hother
  · have hlow : 48 ≤ c.toNat := of_decide_eq_true (Bool.and_eq_true _ _ ▸ hdigit : _ ∧ _).1
    have hhigh : c.toNat ≤ 57 := of_decide_eq_true (Bool.and_eq_true _ _ ▸ hdigit : _ ∧ _).2
    have hall : ∀ n < 58, 48 ≤ n → isNumberUnit (UInt16.ofNat n) = true := by decide
    exact ⟨by omega, hall c.toNat (by omega) hlow⟩
  · have hall : ['-', '+', '.', 'e', 'E'].all
        (fun d => decide (d.toNat < 128) && isNumberUnit (unit d)) = true := by decide
    have hc := List.all_eq_true.mp hall c (of_decide_eq_true hother)
    rw [Bool.and_eq_true, decide_eq_true_eq] at hc
    exact hc

theorem ofNat_unit {c : Char} (h : c.toNat < 128) : Char.ofNat (unit c).toNat = c := by
  have hsize : c.toNat < UInt16.size := Nat.lt_trans h (by decide)
  rw [unit, UInt16.toNat_ofNat_of_lt' hsize, Char.ofNat_toNat]

theorem isNumberChar_numberText (d : Double) :
    ∀ c ∈ (numberText d.value).toList, Json.isNumberChar c = true := by
  have hread := readsBack_of_round d.isDouble
  rw [Json.readsBack, Bool.and_eq_true] at hread
  exact List.all_eq_true.mp hread.1

theorem readNumber_numberText (d : Double) :
    Json.readNumber (numberText d.value).toList = some (.finite d.value) := by
  have hread := readsBack_of_round d.isDouble
  rw [Json.readsBack, Bool.and_eq_true] at hread
  exact of_decide_eq_true hread.2

/-- The units of a text of numbers are its characters. -/
theorem map_ofNat_ascii (d : Double) :
    (ascii (numberText d.value)).map (fun u => Char.ofNat u.toNat)
      = (numberText d.value).toList := by
  have hchars : ∀ c ∈ (numberText d.value).toList,
      ((fun u : UInt16 => Char.ofNat u.toNat) ∘ unit) c = id c := fun c hc =>
    ofNat_unit (isNumberChar_range (isNumberChar_numberText d c hc)).1
  rw [ascii, List.map_map, List.map_congr_left hchars, List.map_id]

/-- How the runtime writes and reads doubles in JSON texts. -/
def doubleFormat : NumberFormat Double where
  text d := ascii (numberText d.value)
  read := readDouble
  text_ne_nil d := by
    intro hnil
    have hread := readNumber_numberText d
    rw [ascii, List.map_eq_nil_iff] at hnil
    rw [hnil] at hread
    cases hread
  text_units d := by
    intro u hu
    obtain ⟨c, hc, rfl⟩ := List.mem_map.mp hu
    exact (isNumberChar_range (isNumberChar_numberText d c hc)).2
  read_text d := by
    simp only [readDouble, map_ofNat_ascii, readNumber_numberText, dif_pos d.isDouble]

end Lib
