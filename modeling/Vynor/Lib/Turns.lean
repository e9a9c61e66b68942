import Mathlib.Data.List.Induction
import Mathlib.Data.List.Nodup
import Mathlib.Data.List.Perm.Subperm
import Mathlib.Order.Lattice

/-!
# Turns of a pool

The members of a pool take turns.  A list of turns *rotates* when between two
turns of one member, the first of the two included, every member has one
(`Rotates`).  Then as many turns in a row as the pool has members are one of
each (`Rotates.perm_of_infix`).  Turns rotate where each goes to a member whose
last turn lies furthest back (`Rotates.concat`, `subset_of_oldest`).

Loads of a pool are *even* when no two differ by more than one.  They stay even
where the next unit goes to a member with the least load (`Even.add`).
-/

namespace Lib.Turns

variable {α : Type*} {pool turns block : List α} {a : α}

/-! ## Rotations -/

/-- From a turn of a member to its next, every member has a turn. -/
def Rotates (pool turns : List α) : Prop :=
  ∀ earlier a between later, turns = earlier ++ a :: (between ++ a :: later) → pool ⊆ a :: between

theorem rotates_nil (pool : List α) : Rotates pool [] := by
  intro earlier a between later h
  exact absurd h.symm (List.append_ne_nil_of_right_ne_nil earlier (List.cons_ne_nil a _))

/-- Since its last turn every other member of the pool had one. -/
def Due (pool turns : List α) (a : α) : Prop :=
  ∀ earlier between, turns = earlier ++ a :: between → pool ⊆ a :: between

/-- The next turn goes to a member that is due. -/
theorem Rotates.concat (h : Rotates pool turns) (hdue : Due pool turns a) :
    Rotates pool (turns ++ [a]) := by
  intro earlier b between later heq
  cases later using List.reverseRecOn with
  | nil =>
      rw [← List.cons_append, ← List.append_assoc] at heq
      obtain ⟨hturns, hlast⟩ := List.append_inj' heq rfl
      cases hlast
      exact hdue earlier between hturns
  | append_singleton later c =>
      rw [← List.cons_append, ← List.append_assoc, ← List.cons_append, ← List.append_assoc] at heq
      obtain ⟨hturns, _⟩ := List.append_inj' heq rfl
      exact h earlier b between later (hturns.trans (List.append_assoc _ _ _))

/-- No member has two of so few turns in a row. -/
theorem Rotates.nodup_of_infix (h : Rotates pool turns) (hpool : pool.Nodup)
    (hblock : block <:+: turns) (hlength : block.length ≤ pool.length) : block.Nodup := by
  induction block with
  | nil => exact List.nodup_nil
  | cons b rest ih =>
      have hrest : rest <:+: turns := (List.suffix_cons b rest).isInfix.trans hblock
      refine List.nodup_cons.mpr ⟨fun hb => ?_, ih hrest (Nat.le_of_succ_le hlength)⟩
      obtain ⟨between, later, rfl⟩ := List.append_of_mem hb
      obtain ⟨earlier, after, rfl⟩ := hblock
      have hall : pool ⊆ b :: between := by
        refine h earlier b between (later ++ after) ?_
        simp only [List.append_assoc, List.cons_append]
      have hshort := (List.subperm_of_subset hpool hall).length_le
      simp only [List.length_cons, List.length_append] at hlength hshort
      omega

/-- As many turns in a row as there are members are one of each. -/
theorem Rotates.perm_of_infix (h : Rotates pool turns) (hpool : pool.Nodup)
    (hmem : ∀ a ∈ turns, a ∈ pool) (hblock : block <:+: turns)
    (hlength : block.length = pool.length) : block.Perm pool := by
  have hnodup := h.nodup_of_infix hpool hblock (Nat.le_of_eq hlength)
  have hsubset : block ⊆ pool := fun a ha => hmem a (hblock.subset ha)
  exact (List.subperm_of_subset hnodup hsubset).perm_of_length_le (Nat.le_of_eq hlength.symm)

/-- In a history of turns with their times, a member is due when no member has
had its last turn before it. -/
theorem due_of_oldest {τ : Type*} [LinearOrder τ] {history : List (α × τ)}
    (hsorted : history.Pairwise fun p q => p.2 < q.2)
    (holdest : ∀ t, (a, t) ∈ history → ∀ b ∈ pool, ∃ t', (b, t') ∈ history ∧ t ≤ t') :
    Due pool (history.map Prod.fst) a := by
  intro earlier between heq b hb
  obtain ⟨before, since, rfl, rfl, hsince⟩ := List.map_eq_append_iff.mp heq
  obtain ⟨⟨a', t⟩, after, rfl, rfl, rfl⟩ := List.map_eq_cons_iff.mp hsince
  obtain ⟨t', hturn, hle⟩ := holdest t (List.mem_append_right _ List.mem_cons_self) b hb
  cases List.mem_append.mp hturn with
  | inl hbefore =>
      have hlt := (List.pairwise_append.mp hsorted).2.2 _ hbefore _ List.mem_cons_self
      exact absurd hlt (not_lt_of_ge hle)
  | inr hsince => exact List.mem_map_of_mem (f := Prod.fst) hsince

/-! ## Even loads -/

/-- No two loads differ by more than one. -/
def Even (pool : List α) (load : α → Nat) : Prop := ∀ a ∈ pool, ∀ b ∈ pool, load a ≤ load b + 1

/-- Loads stay even where a member with the least load gets one more. -/
theorem Even.add {load load' : α → Nat} (h : Even pool load) (ha : load' a = load a + 1)
    (hleast : ∀ b ∈ pool, load a ≤ load b) (hother : ∀ b ∈ pool, b ≠ a → load' b = load b) :
    Even pool load' := by
  have hgrows : ∀ b ∈ pool, load b ≤ load' b := by
    intro b hb
    by_cases hba : b = a
    · rw [hba, ha]
      exact Nat.le_succ _
    · rw [hother b hb hba]
  intro b hb c hc
  by_cases hba : b = a
  · rw [hba, ha]
    exact Nat.succ_le_succ ((hleast c hc).trans (hgrows c hc))
  · rw [hother b hb hba]
    exact (h b hb c hc).trans (Nat.succ_le_succ (hgrows c hc))

end Lib.Turns
