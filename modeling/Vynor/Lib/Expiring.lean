import Mathlib.Logic.Function.Basic
import Mathlib.Order.Lattice

/-!
# Maps whose entries run out

An entry carries the last moment it can be found at.  A read takes the moment
it is made at, so an entry that has run out is not there, whether or not
anything has removed it.

Two maps *agree from* a moment on when no read from then on tells them apart.
An implementation that removes what has run out, at whatever time it likes,
agrees with one that never does.
-/

namespace Lib

/-- A value with the last moment it can be found at. -/
structure Timed (τ ν : Type*) where
  value : ν
  expiresAt : τ
deriving DecidableEq

/-- A map whose entries run out. -/
abbrev Expiring (τ κ ν : Type*) := κ → Option (Timed τ ν)

namespace Expiring

variable {τ κ ν : Type*} [LinearOrder τ]

/-- What is found under a key at a moment. -/
def get (t : τ) (m : Expiring τ κ ν) (k : κ) : Option (Timed τ ν) :=
  (m k).filter fun e => t ≤ e.expiresAt

/-- No read from `t` on tells the maps apart. -/
def AgreeFrom (t : τ) (m m' : Expiring τ κ ν) : Prop := ∀ t' k, t ≤ t' → get t' m k = get t' m' k

theorem get_eq_some {t : τ} {m : Expiring τ κ ν} {k : κ} {e : Timed τ ν} :
    get t m k = some e ↔ m k = some e ∧ t ≤ e.expiresAt := by
  rw [get, Option.filter_eq_some_iff, decide_eq_true_eq]

theorem get_expired {t : τ} {m : Expiring τ κ ν} {k : κ} {e : Timed τ ν} (h : m k = some e)
    (ht : e.expiresAt < t) : get t m k = none := by
  rw [get, h, Option.filter_some, if_neg (by simpa using ht)]

/-- What is found is found until it runs out. -/
theorem get_later {t t' : τ} {m : Expiring τ κ ν} {k : κ} {e : Timed τ ν} (h : get t m k = some e)
    (ht : t' ≤ e.expiresAt) : get t' m k = some e :=
  get_eq_some.mpr ⟨(get_eq_some.mp h).1, ht⟩

theorem get_earlier {t t' : τ} {m : Expiring τ κ ν} {k : κ} {e : Timed τ ν}
    (h : get t' m k = some e) (ht : t ≤ t') : get t m k = some e :=
  get_later h (le_trans ht (get_eq_some.mp h).2)

/-- What is not there stays away. -/
theorem get_none_later {t t' : τ} {m : Expiring τ κ ν} {k : κ} (h : get t m k = none)
    (ht : t ≤ t') : get t' m k = none := by
  cases hlate : get t' m k with
  | none => rfl
  | some e =>
      rw [get_earlier hlate ht] at h
      cases h

theorem AgreeFrom.refl (t : τ) (m : Expiring τ κ ν) : AgreeFrom t m m := fun _ _ _ => rfl

theorem AgreeFrom.trans {t : τ} {m m' m'' : Expiring τ κ ν} (h : AgreeFrom t m m')
    (h' : AgreeFrom t m' m'') : AgreeFrom t m m'' :=
  fun t' k ht => (h t' k ht).trans (h' t' k ht)

theorem AgreeFrom.later {t t' : τ} {m m' : Expiring τ κ ν} (h : AgreeFrom t m m') (ht : t ≤ t') :
    AgreeFrom t' m m' :=
  fun t'' k ht' => h t'' k (le_trans ht ht')

section Updates

variable [DecidableEq κ]

/-- Sets a key. -/
def set (m : Expiring τ κ ν) (k : κ) (v : ν) (expiresAt : τ) : Expiring τ κ ν :=
  Function.update m k (some ⟨v, expiresAt⟩)

/-- Removes a key. -/
def del (m : Expiring τ κ ν) (k : κ) : Expiring τ κ ν := Function.update m k none

theorem get_set_self {t x : τ} (m : Expiring τ κ ν) (k : κ) (v : ν) (h : t ≤ x) :
    get t (m.set k v x) k = some ⟨v, x⟩ :=
  get_eq_some.mpr ⟨Function.update_self k _ m, h⟩

@[simp] theorem get_set_other {t x : τ} {k k' : κ} (m : Expiring τ κ ν) (v : ν) (h : k' ≠ k) :
    get t (m.set k v x) k' = get t m k' := by
  rw [get, set, Function.update_of_ne h, get]

@[simp] theorem get_del_self (t : τ) (m : Expiring τ κ ν) (k : κ) : get t (m.del k) k = none := by
  rw [get, del, Function.update_self, Option.filter_none]

@[simp] theorem get_del_other {t : τ} {k k' : κ} (m : Expiring τ κ ν) (h : k' ≠ k) :
    get t (m.del k) k' = get t m k' := by
  rw [get, del, Function.update_of_ne h, get]

/-- What is found after a key was set is the new entry or was there before. -/
theorem get_set_cases {t x : τ} {k k' : κ} {m : Expiring τ κ ν} {v : ν} {e : Timed τ ν}
    (h : get t (m.set k v x) k' = some e) : k' = k ∧ e = ⟨v, x⟩ ∨ k' ≠ k ∧ get t m k' = some e := by
  by_cases hk : k' = k
  · obtain ⟨hv, _⟩ := get_eq_some.mp h
    rw [hk, set, Function.update_self, Option.some.injEq] at hv
    exact Or.inl ⟨hk, hv.symm⟩
  · rw [get_set_other m v hk] at h
    exact Or.inr ⟨hk, h⟩

/-- What is found after a key was removed was there before. -/
theorem get_of_get_del {t : τ} {k k' : κ} {m : Expiring τ κ ν} {e : Timed τ ν}
    (h : get t (m.del k) k' = some e) : get t m k' = some e := by
  by_cases hk : k' = k
  · rw [hk, get_del_self] at h
    cases h
  · rwa [get_del_other m hk] at h

/-- Removing what has run out changes nothing that can still be read. -/
theorem agreeFrom_del {t : τ} {m : Expiring τ κ ν} {k : κ} (h : get t m k = none) :
    AgreeFrom t (m.del k) m := by
  intro t' k' ht
  by_cases hk : k' = k
  · rw [hk, get_del_self, get_none_later h ht]
  · exact get_del_other m hk

theorem AgreeFrom.set {t : τ} {m m' : Expiring τ κ ν} (h : AgreeFrom t m m') (k : κ) (v : ν)
    (x : τ) : AgreeFrom t (m.set k v x) (m'.set k v x) := by
  intro t' k' ht
  by_cases hk : k' = k
  · rw [hk, get, get, Expiring.set, Expiring.set, Function.update_self, Function.update_self]
  · rw [get_set_other m v hk, get_set_other m' v hk]
    exact h t' k' ht

theorem AgreeFrom.del {t : τ} {m m' : Expiring τ κ ν} (h : AgreeFrom t m m') (k : κ) :
    AgreeFrom t (m.del k) (m'.del k) := by
  intro t' k' ht
  by_cases hk : k' = k
  · rw [hk, get_del_self, get_del_self]
  · rw [get_del_other m hk, get_del_other m' hk]
    exact h t' k' ht

end Updates

end Expiring

end Lib
