import Mathlib.Logic.Relation
import Mathlib.Order.Basic

/-!
# Forests

A *forest* gives some of its nodes a parent, and no chain of parents goes on
forever.  No node is then below two roots (`rootOf_unique`), by induction from
the roots down, and two nodes are in the same tree when they are below the same
root.  A child is below the root of its parent (`rootOf_child`), and an ancestor
that has no parent is the root (`rootOf_ancestor`).
-/

namespace Lib

/-- A parent for some of the nodes, and no endless chain of parents. -/
structure Forest (ι : Type*) where
  parent : ι → Option ι
  wellFounded : WellFounded fun a b => parent b = some a

namespace Forest

variable {ι : Type*} {F : Forest ι} {a b r s : ι}

/-- `a` is a proper ancestor of `b`. -/
def Ancestor (F : Forest ι) : ι → ι → Prop :=
  Relation.TransGen fun a b => F.parent b = some a

/-- `r` has no parent, and `a` is below it. -/
structure RootOf (F : Forest ι) (r a : ι) : Prop where
  root : F.parent r = none
  below : Relation.ReflTransGen (fun a b => F.parent b = some a) r a

/-- The nodes are below one root. -/
def SameTree (F : Forest ι) (a b : ι) : Prop := ∃ r, F.RootOf r a ∧ F.RootOf r b

theorem rootOf_self (h : F.parent r = none) : F.RootOf r r := ⟨h, .refl⟩

/-- A node is below the roots its parent is below. -/
theorem rootOf_child (h : F.parent b = some a) : F.RootOf r b ↔ F.RootOf r a := by
  constructor
  · rintro ⟨hroot, hbelow⟩
    cases hbelow with
    | refl =>
        rw [hroot] at h
        cases h
    | tail hr hc =>
        rw [hc] at h
        cases h
        exact ⟨hroot, hr⟩
  · rintro ⟨hroot, hbelow⟩
    exact ⟨hroot, hbelow.tail h⟩

/-- A root is below itself only. -/
theorem rootOf_of_root (h : F.parent a = none) (hr : F.RootOf r a) : r = a := by
  cases hr.below with
  | refl => rfl
  | tail _ hc =>
      rw [h] at hc
      cases hc

theorem not_ancestor_of_root (h : F.parent b = none) : ¬ F.Ancestor a b := by
  intro hab
  cases hab with
  | single hb | tail _ hb =>
      rw [h] at hb
      cases hb

theorem rootOf_unique (F : Forest ι) (a : ι) : F.RootOf r a → F.RootOf s a → r = s := by
  induction a using F.wellFounded.induction with
  | h a ih =>
      intro hr hs
      cases hparent : F.parent a with
      | none => rw [rootOf_of_root hparent hr, rootOf_of_root hparent hs]
      | some p => exact ih p hparent ((rootOf_child hparent).mp hr) ((rootOf_child hparent).mp hs)

/-- An ancestor without a parent is the root. -/
theorem rootOf_ancestor (h : F.Ancestor r a) (hroot : F.parent r = none) : F.RootOf r a :=
  ⟨hroot, h.to_reflTransGen⟩

theorem sameTree_iff (hr : F.RootOf r a) (hs : F.RootOf s b) : F.SameTree a b ↔ r = s := by
  constructor
  · rintro ⟨q, ha, hb⟩
    rw [F.rootOf_unique a hr ha, F.rootOf_unique b hs hb]
  · rintro rfl
    exact ⟨r, hr, hs⟩

end Forest

end Lib
