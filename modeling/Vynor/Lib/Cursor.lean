import Mathlib.Data.List.Basic
import Mathlib.Order.Bounds.Basic

/-!
# Reading a sequence through a cursor

A reader of a sequence with increasing numbers keeps a *cursor*.  One read
takes the first elements after the cursor and moves the cursor to the last of
them.  `mem_take_of_le` and `isGreatest_foldl_max` say that such a read passes
over nothing.

`Covers R lo hi` says that the reads `R`, given by where each starts and ends,
leave no number between `lo` and `hi` out.  It holds of the reads of a cursor
because each of them starts where an earlier one ended.
-/

namespace Lib

variable {α β : Type*} [LinearOrder α]

/-! ## One read -/

/-- A prefix of a sorted list holds everything that is not above one of its
elements. -/
theorem mem_take_of_le {l : List β} {f : β → α} (hsorted : l.Pairwise fun a b => f a ≤ f b)
    {n : Nat} {x y : β} (hx : x ∈ l) (hy : y ∈ l.take n) (hxy : f x ≤ f y) :
    x ∈ l.take n ∨ f x = f y := by
  rw [← List.take_append_drop n l, List.mem_append] at hx
  rcases hx with htake | hdrop
  · exact Or.inl htake
  · rw [← List.take_append_drop n l, List.pairwise_append] at hsorted
    exact Or.inr (le_antisymm hxy (hsorted.2.2 y hy x hdrop))

/-- The running maximum of a list is the greatest of its values and the one it
started from. -/
theorem isGreatest_foldl_max (f : β → α) (l : List β) (s : α) :
    IsGreatest (insert s {a | ∃ x ∈ l, f x = a}) (l.foldl (fun a x => max a (f x)) s) := by
  induction l generalizing s with
  | nil =>
      refine ⟨Set.mem_insert _ _, ?_⟩
      rintro a (rfl | ⟨x, hx, _⟩)
      · exact le_refl a
      · cases hx
  | cons y l ih =>
      obtain ⟨hmem, hub⟩ := ih (max s (f y))
      constructor
      · rcases hmem with heq | ⟨x, hx, hfx⟩
        · rw [List.foldl_cons, heq]
          rcases le_total s (f y) with hle | hle
          · rw [max_eq_right hle]
            exact Or.inr ⟨y, List.mem_cons_self, rfl⟩
          · rw [max_eq_left hle]
            exact Set.mem_insert _ _
        · exact Or.inr ⟨x, List.mem_cons_of_mem y hx, hfx⟩
      · have hstart := hub (Set.mem_insert _ _)
        rintro a (rfl | ⟨x, hx, rfl⟩)
        · exact le_trans (le_max_left a (f y)) hstart
        · rcases List.mem_cons.mp hx with rfl | hx
          · exact le_trans (le_max_right s (f x)) hstart
          · exact hub (Or.inr ⟨x, hx, rfl⟩)

/-! ## Many reads -/

/-- Every number after `lo` and up to `hi` lies in one of the reads. -/
def Covers (R : α → α → Prop) (lo hi : α) : Prop :=
  ∀ u, lo < u → u ≤ hi → ∃ a b, R a b ∧ a < u ∧ u ≤ b

variable {R R' : α → α → Prop} {lo a b : α}

theorem covers_refl : Covers R lo lo := by
  intro u hlo hhi
  exact absurd hlo (not_lt_of_ge hhi)

theorem Covers.mono (hR : ∀ a b, R a b → R' a b) (h : Covers R lo a) : Covers R' lo a := by
  intro u hlo hhi
  obtain ⟨c, d, hread, hc, hd⟩ := h u hlo hhi
  exact ⟨c, d, hR c d hread, hc, hd⟩

/-- A read that starts where the reads so far end covers what it ends at. -/
theorem Covers.extend (h : Covers R lo a) (hread : R a b) : Covers R lo b := by
  intro u hlo hhi
  rcases le_or_gt u a with hle | hgt
  · exact h u hlo hle
  · exact ⟨a, b, hread, hgt, hhi⟩

end Lib
