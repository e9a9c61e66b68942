import Mathlib.Order.Bounds.Basic

/-!
# A register for the greatest element of a growing set

The register holds nothing while the set is empty, and the greatest element
afterwards.  When an element comes in, the register is either overwritten with
it or left alone; `tracks_insert_some` and `tracks_insert_iff` say when each of
the two is right.
-/

namespace Lib

variable {α : Type*} [Preorder α] {S : Set α} {o : Option α} {b : α}

/-- The register holds the greatest element, or nothing where there is none. -/
def Tracks (S : Set α) : Option α → Prop
  | none => S = ∅
  | some a => IsGreatest S a

/-- The element is not below what the register holds. -/
def NotBelow (o : Option α) (b : α) : Prop := ∀ a ∈ o, a ≤ b

theorem notBelow_none (b : α) : NotBelow none b := by
  intro a ha
  cases ha

theorem Tracks.mem {a : α} (h : Tracks S o) (ha : a ∈ o) : a ∈ S := by
  cases ha
  exact h.1

/-- Overwriting is right for an element that is not below the register. -/
theorem tracks_insert_some (h : Tracks S o) : Tracks (insert b S) (some b) ↔ NotBelow o b := by
  constructor
  · intro hg a ha
    exact hg.2 (Set.mem_insert_of_mem b (h.mem ha))
  · intro hle
    refine ⟨Set.mem_insert b S, ?_⟩
    rintro x (rfl | hx)
    · exact le_refl x
    · cases o with
      | none =>
          rw [h] at hx
          cases hx
      | some a => exact le_trans (h.2 hx) (hle a rfl)

/-- Leaving the register alone is right for an element it is not below. -/
theorem tracks_insert_iff (h : Tracks S o) : Tracks (insert b S) o ↔ ∃ a ∈ o, b ≤ a := by
  cases o with
  | none =>
      constructor
      · intro hempty
        exact absurd (hempty ▸ Set.mem_insert b S) (Set.notMem_empty b)
      · rintro ⟨a, ha, _⟩
        cases ha
  | some a =>
      constructor
      · intro hg
        exact ⟨a, rfl, hg.2 (Set.mem_insert b S)⟩
      · rintro ⟨_, ⟨⟩, hle⟩
        refine ⟨Set.mem_insert_of_mem b h.1, ?_⟩
        rintro x (rfl | hx)
        · exact hle
        · exact h.2 hx

end Lib
