import Mathlib.Data.List.Sort
import Vynor.Lib.Table

/-!
# What a limited query may return

A query with an order and a limit may return any selection that
`Table.Selects` allows, since rows that are equal in the order come in any
order.  What it can do with one row is a matter of counting.  It cannot return a
row where the rows that must come before it reach the limit
(`Selects.before_lt`), and it cannot leave a row out where those that may come
before it do not (`Selects.mem_of_ahead_lt`).  Otherwise it can, and with two
rows it can do both at once (`exists_mem_not_mem`).

The order is a preorder that is total, as `ORDER BY` is.
-/

namespace Lib.Table

variable {ρ κ : Type*} {keys : ρ → List κ} {t : Table ρ keys} {p : ρ → Bool} {le : ρ → ρ → Bool}
  {limit : Nat}

/-- The rows of a selection that come before a row in every order. -/
def before (t : Table ρ keys) (p : ρ → Bool) (le : ρ → ρ → Bool) (r : ρ) : Nat :=
  t.count fun a => p a && !le r a

/-- The other rows of a selection that come before a row in some order. -/
def ahead [DecidableEq ρ] (t : Table ρ keys) (p : ρ → Bool) (le : ρ → ρ → Bool) (r : ρ) : Nat :=
  t.count fun a => p a && (le a r && a ≠ r)

/-! ## Every selection -/

theorem Selects.mono {le' : ρ → ρ → Bool} (hle : ∀ a b, le' a b = true → le a b = true)
    {picked : List ρ} (h : t.Selects p le' limit picked) : t.Selects p le limit picked where
  nodup := h.nodup
  length_le := h.length_le
  sorted := h.sorted.imp fun hab => hle _ _ hab
  selected := h.selected
  passedOver r hr hp hnot :=
    ⟨(h.passedOver r hr hp hnot).1, fun a ha => hle _ _ ((h.passedOver r hr hp hnot).2 a ha)⟩

/-- A row is returned where the limit is not reached by rows that may come before
it. -/
theorem Selects.mem_of_ahead_lt [DecidableEq ρ] {picked : List ρ}
    (h : t.Selects p le limit picked) {r : ρ} (hr : r ∈ t.rows) (hp : p r = true)
    (hahead : t.ahead p le r < limit) : r ∈ picked := by
  by_contra hnot
  obtain ⟨hfull, hle⟩ := h.passedOver r hr hp hnot
  have hsub : picked ⊆ t.rows.filter fun a => p a && (le a r && a ≠ r) := by
    intro a ha
    obtain ⟨hmem, hpa⟩ := h.selected a ha
    have hne : a ≠ r := fun heq => hnot (heq ▸ ha)
    exact List.mem_filter.mpr ⟨hmem, by simp [hpa, hle a ha, hne]⟩
  have hlen := (List.subperm_of_subset h.nodup hsub).length_le
  rw [← List.countP_eq_length_filter, hfull] at hlen
  exact Nat.not_lt_of_le hlen hahead

/-- Fewer rows than the limit come before a row that is returned. -/
theorem Selects.before_lt (hkeys : ∀ r, keys r ≠ []) {picked : List ρ}
    (h : t.Selects p le limit picked) {r : ρ} (hrefl : le r r = true) (hr : r ∈ picked) :
    t.before p le r < limit := by
  have hnodup : (r :: t.rows.filter fun a => p a && !le r a).Nodup := by
    refine List.nodup_cons.mpr ⟨?_, (t.nodup_rows hkeys).filter _⟩
    intro hmem
    have hself := (List.mem_filter.mp hmem).2
    simp [hrefl] at hself
  have hsub : (r :: t.rows.filter fun a => p a && !le r a) ⊆ picked := by
    intro a ha
    rcases List.mem_cons.mp ha with rfl | ha
    · exact hr
    · obtain ⟨hmem, hcond⟩ := List.mem_filter.mp ha
      rw [Bool.and_eq_true, Bool.not_eq_true'] at hcond
      -- A row that is passed over comes after all that are returned.
      by_contra hnot
      have hafter := (h.passedOver a hmem hcond.1 hnot).2 r hr
      rw [hcond.2] at hafter
      cases hafter
  have hlen := (List.subperm_of_subset hnodup hsub).length_le
  rw [List.length_cons, ← List.countP_eq_length_filter] at hlen
  exact Nat.lt_of_lt_of_le hlen h.length_le

/-! ## Some selection -/

section Order

variable (htrans : ∀ a b c, le a b = true → le b c = true → le a c = true)
  (htotal : ∀ a b, (le a b || le b a) = true)
include htrans htotal

/-- Every query has an answer. -/
theorem exists_selects (hkeys : ∀ r, keys r ≠ []) : ∃ picked, t.Selects p le limit picked := by
  have hsorted := List.pairwise_mergeSort htrans htotal (t.rows.filter p)
  generalize hl : (t.rows.filter p).mergeSort le = l at hsorted
  have hmem : ∀ r, r ∈ l ↔ r ∈ t.rows ∧ p r = true := by
    intro r
    rw [← hl, List.mem_mergeSort, List.mem_filter]
  have hnodup : l.Nodup := by
    rw [← hl, (List.mergeSort_perm _ _).nodup_iff]
    exact (t.nodup_rows hkeys).filter p
  refine ⟨l.take limit, hnodup.sublist (List.take_sublist _ _), List.length_take_le _ _,
    hsorted.sublist (List.take_sublist _ _), fun r hr => (hmem r).mp (List.mem_of_mem_take hr), ?_⟩
  intro r hr hp hnot
  have hrest : r ∈ l.drop limit := by
    have hmem := (hmem r).mpr ⟨hr, hp⟩
    rw [← List.take_append_drop limit l, List.mem_append] at hmem
    exact hmem.resolve_left hnot
  constructor
  · have hlt := List.length_pos_of_mem hrest
    rw [List.length_drop] at hlt
    rw [List.length_take]
    omega
  · intro a ha
    rw [← List.take_append_drop limit l, List.pairwise_append] at hsorted
    exact hsorted.2.2 a ha r hrest

end Order

/-- An order whose ties are broken by a rank. -/
def ranked (le : ρ → ρ → Bool) (rank : ρ → Nat) (a b : ρ) : Bool :=
  le a b && (!le b a || rank a ≤ rank b)

theorem ranked_trans (htrans : ∀ a b c, le a b = true → le b c = true → le a c = true)
    (rank : ρ → Nat) {a b c : ρ} (hab : ranked le rank a b = true)
    (hbc : ranked le rank b c = true) : ranked le rank a c = true := by
  simp only [ranked, Bool.and_eq_true, Bool.or_eq_true, Bool.not_eq_true', decide_eq_true_eq]
    at hab hbc ⊢
  refine ⟨htrans a b c hab.1 hbc.1, ?_⟩
  cases hca : le c a with
  | false => exact Or.inl rfl
  | true =>
      -- The three rows are equal in the order, so their ranks decide.
      have hba := htrans b c a hbc.1 hca
      have hcb := htrans c a b hca hab.1
      rw [hba] at hab
      rw [hcb] at hbc
      exact Or.inr (Nat.le_trans (hab.2.resolve_left nofun) (hbc.2.resolve_left nofun))

theorem ranked_total (htotal : ∀ a b, (le a b || le b a) = true) (rank : ρ → Nat) (a b : ρ) :
    (ranked le rank a b || ranked le rank b a) = true := by
  have hab := htotal a b
  have hrank := Nat.le_total (rank a) (rank b)
  simp only [ranked]
  cases hle : le a b <;> cases hge : le b a <;> simp_all

section Ranked

variable [DecidableEq ρ] (htrans : ∀ a b c, le a b = true → le b c = true → le a c = true)
  (htotal : ∀ a b, (le a b || le b a) = true) (hkeys : ∀ r, keys r ≠ [])
include htrans htotal hkeys

/-- A row that can be returned is so together with any that can be left out. -/
theorem exists_mem_not_mem {r o : ρ} (hr : r ∈ t.rows) (hp : p r = true) (hne : r ≠ o)
    (hbefore : t.before p le r < limit) (hahead : limit ≤ t.ahead p le o) :
    ∃ picked, t.Selects p le limit picked ∧ r ∈ picked ∧ o ∉ picked := by
  -- Among equals `r` comes first and `o` last.
  obtain ⟨rank, hfirst, hlast⟩ : ∃ rank : ρ → Nat,
      (∀ a, a ≠ r → rank r < rank a) ∧ ∀ a, a ≠ o → rank a < rank o := by
    refine ⟨fun a => if a = r then 0 else if a = o then 2 else 1, fun a ha => ?_, fun a ha => ?_⟩
    · simp only [if_pos, if_neg ha]
      split <;> omega
    · simp only [if_neg (Ne.symm hne), if_pos, if_neg ha]
      split <;> omega
  have htrans' : ∀ a b c, ranked le rank a b = true → ranked le rank b c = true →
      ranked le rank a c = true := fun _ _ _ => ranked_trans htrans rank
  have htotal' := ranked_total htotal rank
  obtain ⟨picked, hpicked⟩ : ∃ picked, t.Selects p (ranked le rank) limit picked :=
    exists_selects htrans' htotal' hkeys
  refine ⟨picked, hpicked.mono fun a b hab => (Bool.and_eq_true_iff.mp hab).1, ?_, ?_⟩
  · refine hpicked.mem_of_ahead_lt hr hp (Nat.lt_of_le_of_lt ?_ hbefore)
    refine List.countP_mono_left fun a _ ha => ?_
    simp only [ranked, Bool.and_eq_true, Bool.or_eq_true, Bool.not_eq_true', decide_eq_true_eq]
      at ha ⊢
    obtain ⟨hpa, ⟨_, hbreak⟩, har⟩ := ha
    exact ⟨hpa, hbreak.resolve_right (Nat.not_le_of_lt (hfirst a har))⟩
  · intro ho
    have hself : ranked le rank o o = true := by simpa using htotal' o o
    have hlt := hpicked.before_lt hkeys hself ho
    refine Nat.not_lt_of_le (Nat.le_trans hahead ?_) hlt
    refine List.countP_mono_left fun a _ ha => ?_
    simp only [ranked, Bool.and_eq_true, Bool.not_eq_true', Bool.and_eq_false_iff,
      Bool.or_eq_false_iff, Bool.not_eq_false', decide_eq_true_eq, decide_eq_false_iff_not] at ha ⊢
    obtain ⟨hpa, hao, hne'⟩ := ha
    exact ⟨hpa, Or.inr ⟨hao, Nat.not_le_of_lt (hlast a hne')⟩⟩

end Ranked

end Lib.Table
