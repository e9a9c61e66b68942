import Mathlib.Data.List.Basic
import Mathlib.Data.List.Nodup

/-!
# A bounded number of slots

Jobs run under keys: never two under one key, and no more than there are slots.
Free slots are filled with the jobs that wait, in their order.  Then every job
that waits runs, or no slot is free.
-/

namespace Lib.Slots

variable {β κ : Type*} [DecidableEq κ] {key : β → κ} {slots : Nat} {running : List κ}
  {waiting : List β}

/-- The keys under which jobs run. -/
structure Fits (slots : Nat) (running : List κ) : Prop where
  distinct : running.Nodup
  bounded : running.length ≤ slots

/-- The jobs that start: the first of those whose key is free. -/
def fill (key : β → κ) (slots : Nat) (running : List κ) (waiting : List β) : List β :=
  (waiting.filter fun job => key job ∉ running).take (slots - running.length)

theorem not_mem_of_mem_fill {job : β} (h : job ∈ fill key slots running waiting) :
    key job ∉ running :=
  of_decide_eq_true (List.mem_filter.mp (List.mem_of_mem_take h)).2

/-- Filled slots fit where the jobs that wait have keys of their own. -/
theorem Fits.fill (h : Fits slots running) (hwaiting : (waiting.map key).Nodup) :
    Fits slots (running ++ (fill key slots running waiting).map key) where
  distinct := by
    rw [List.nodup_append']
    refine ⟨h.distinct, ?_, ?_⟩
    · exact hwaiting.sublist (((List.take_sublist _ _).trans List.filter_sublist).map key)
    · intro k hk hstarted
      obtain ⟨job, hjob, rfl⟩ := List.mem_map.mp hstarted
      exact not_mem_of_mem_fill hjob hk
  bounded := by
    have hbound := h.bounded
    rw [List.length_append, List.length_map, Slots.fill, List.length_take]
    omega

/-- A job that waits runs, or all slots are taken. -/
theorem mem_or_full_of_waiting (h : Fits slots running) {job : β} (hjob : job ∈ waiting) :
    key job ∈ running ++ (fill key slots running waiting).map key ∨
      (running ++ (fill key slots running waiting).map key).length = slots := by
  by_cases hrunning : key job ∈ running
  · exact Or.inl (List.mem_append_left _ hrunning)
  have hfree : job ∈ waiting.filter fun job => key job ∉ running :=
    List.mem_filter.mpr ⟨hjob, decide_eq_true hrunning⟩
  rcases Nat.le_total (waiting.filter fun job => key job ∉ running).length
    (slots - running.length) with hall | hfull
  · left
    refine List.mem_append_right _ (List.mem_map_of_mem ?_)
    rw [fill, List.take_of_length_le hall]
    exact hfree
  · right
    have hbound := h.bounded
    rw [List.length_append, List.length_map, fill, List.length_take, Nat.min_eq_left hfull]
    omega

/-- A job ends. -/
theorem Fits.erase (h : Fits slots running) (k : κ) : Fits slots (running.erase k) where
  distinct := h.distinct.erase k
  bounded := Nat.le_trans List.erase_sublist.length_le h.bounded

end Lib.Slots
