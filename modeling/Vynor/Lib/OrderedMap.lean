import Mathlib.Algebra.GroupWithZero.Nat
import Mathlib.Data.List.Basic
import Mathlib.Data.List.Induction
import Mathlib.Data.List.Nodup

/-!
# Maps that keep insertion order

An association list in which a key that is set again keeps its place and takes
the new value.  `groupBy` collects the items of a list under their keys.
-/

namespace Lib.OrderedMap

variable {κ ν : Type*} [DecidableEq κ]

/-- Sets a key: in place where it is there, at the end otherwise. -/
def set : List (κ × ν) → κ → ν → List (κ × ν)
  | [], k, v => [(k, v)]
  | p :: m, k, v => if p.1 = k then (k, v) :: m else p :: set m k v

/-- The map of a list of pairs, set from left to right. -/
def ofPairs (ps : List (κ × ν)) : List (κ × ν) := ps.foldl (fun m p => set m p.1 p.2) []

theorem mem_set {m : List (κ × ν)} {k : κ} {v : ν} {p : κ × ν} (h : p ∈ set m k v) :
    p = (k, v) ∨ p ∈ m := by
  induction m with
  | nil => exact Or.inl (List.mem_singleton.mp h)
  | cons q m ih =>
      rw [set] at h
      split at h
      · rcases List.mem_cons.mp h with heq | hold
        · exact Or.inl heq
        · exact Or.inr (List.mem_cons_of_mem q hold)
      · rcases List.mem_cons.mp h with heq | hrest
        · exact Or.inr (heq ▸ List.mem_cons_self)
        · exact (ih hrest).imp_right (List.mem_cons_of_mem q)

/-- Setting a key adds it and takes no key away. -/
theorem mem_keys_set {m : List (κ × ν)} {k k' : κ} {v : ν} :
    k' ∈ (set m k v).map Prod.fst ↔ k' = k ∨ k' ∈ m.map Prod.fst := by
  induction m with
  | nil => simp [set]
  | cons q m ih =>
      rw [set]
      split
      next hq =>
        rw [List.map_cons, List.map_cons, List.mem_cons, List.mem_cons, hq]
        tauto
      · rw [List.map_cons, List.map_cons, List.mem_cons, List.mem_cons, ih]
        tauto

/-- A key that is new goes to the end. -/
theorem set_of_not_mem {m : List (κ × ν)} {k : κ} (h : k ∉ m.map Prod.fst) (v : ν) :
    set m k v = m ++ [(k, v)] := by
  induction m with
  | nil => rfl
  | cons q m ih =>
      rw [List.map_cons, List.mem_cons, not_or] at h
      rw [set, if_neg fun heq => h.1 heq.symm, ih h.2, List.cons_append]

theorem mem_foldl_set {ps : List (κ × ν)} {p : κ × ν} :
    ∀ {m : List (κ × ν)}, p ∈ ps.foldl (fun m p => set m p.1 p.2) m → p ∈ m ∨ p ∈ ps := by
  induction ps with
  | nil =>
      intro m h
      exact Or.inl h
  | cons q ps ih =>
      intro m h
      rcases ih h with hset | hps
      · rcases mem_set hset with rfl | hm
        · exact Or.inr List.mem_cons_self
        · exact Or.inl hm
      · exact Or.inr (List.mem_cons_of_mem q hps)

/-- Every entry is one of the pairs. -/
theorem mem_of_mem_ofPairs {ps : List (κ × ν)} {p : κ × ν} (h : p ∈ ofPairs ps) : p ∈ ps := by
  rcases mem_foldl_set h with hnil | hps
  · cases hnil
  · exact hps

theorem mem_keys_foldl_set {ps : List (κ × ν)} {k : κ} :
    ∀ {m : List (κ × ν)}, k ∈ (ps.foldl (fun m p => set m p.1 p.2) m).map Prod.fst ↔
      k ∈ m.map Prod.fst ∨ k ∈ ps.map Prod.fst := by
  induction ps with
  | nil => simp
  | cons q ps ih =>
      intro m
      rw [List.foldl_cons, ih, mem_keys_set, List.map_cons, List.mem_cons]
      tauto

/-- The keys are those of the pairs. -/
theorem mem_keys_ofPairs {ps : List (κ × ν)} {k : κ} :
    k ∈ (ofPairs ps).map Prod.fst ↔ k ∈ ps.map Prod.fst := by
  rw [ofPairs, mem_keys_foldl_set]
  simp

/-- A map of pairs has no more entries than there are pairs. -/
theorem length_set_le (m : List (κ × ν)) (k : κ) (v : ν) : (set m k v).length ≤ m.length + 1 := by
  induction m with
  | nil => exact Nat.le_refl _
  | cons q m ih =>
      rw [set]
      split
      · exact Nat.le_succ _
      · exact Nat.succ_le_succ ih

theorem length_ofPairs_le (ps : List (κ × ν)) : (ofPairs ps).length ≤ ps.length := by
  have hfold : ∀ (ps : List (κ × ν)) (m : List (κ × ν)),
      (ps.foldl (fun m p => set m p.1 p.2) m).length ≤ m.length + ps.length := by
    intro ps
    induction ps with
    | nil => intro m; exact Nat.le_refl _
    | cons p ps ih =>
        intro m
        have hrest := ih (set m p.1 p.2)
        have hset := length_set_le m p.1 p.2
        rw [List.foldl_cons, List.length_cons]
        omega
  have htotal := hfold ps []
  rwa [List.length_nil, Nat.zero_add] at htotal

/-! ## Lookups -/

/-- The value of a key. -/
def get? (m : List (κ × ν)) (k : κ) : Option ν := (m.find? fun p => p.1 = k).map Prod.snd

theorem get?_set (m : List (κ × ν)) (k k' : κ) (v : ν) :
    get? (set m k v) k' = if k' = k then some v else get? m k' := by
  induction m with
  | nil =>
      by_cases hk : k' = k
      · simp [get?, set, hk]
      · have hk' : k ≠ k' := fun h => hk h.symm
        simp [get?, set, hk, hk']
  | cons q m ih =>
      rw [set]
      by_cases hq : q.1 = k
      · rw [if_pos hq]
        by_cases hk : k' = k
        · simp [get?, hk]
        · have hk' : k ≠ k' := fun h => hk h.symm
          simp [get?, hq, hk, hk']
      · rw [if_neg hq]
        by_cases hqk : q.1 = k'
        · have hk : k' ≠ k := fun h => hq (hqk.trans h)
          simp [get?, hqk, hk]
        · have hskip : ∀ t : List (κ × ν), get? (q :: t) k' = get? t k' := fun t => by
            simp [get?, hqk]
          rw [hskip, hskip, ih]

/-- Setting a key keeps the keys apart. -/
theorem nodup_keys_set {m : List (κ × ν)} (h : (m.map Prod.fst).Nodup) (k : κ) (v : ν) :
    ((set m k v).map Prod.fst).Nodup := by
  induction m with
  | nil => exact List.nodup_singleton k
  | cons q m ih =>
      obtain ⟨hq, hm⟩ := List.nodup_cons.mp h
      rw [set]
      split
      · next heq => exact List.nodup_cons.mpr ⟨heq ▸ hq, hm⟩
      · next hne =>
          refine List.nodup_cons.mpr ⟨?_, ih hm⟩
          intro hmem
          rcases mem_keys_set.mp hmem with heq | hold
          · exact hne heq
          · exact hq hold

theorem get?_of_mem {m : List (κ × ν)} (h : (m.map Prod.fst).Nodup) {p : κ × ν} (hp : p ∈ m) :
    get? m p.1 = some p.2 := by
  induction m with
  | nil => cases hp
  | cons q m ih =>
      obtain ⟨hq, hm⟩ := List.nodup_cons.mp h
      rcases List.mem_cons.mp hp with rfl | hrest
      · simp [get?]
      · have hne : q.1 ≠ p.1 := fun heq => hq (heq ▸ List.mem_map_of_mem hrest)
        have hih := ih hm hrest
        rw [get?, List.find?_cons_of_neg (by simpa using hne)]
        exact hih

theorem mem_of_get? {m : List (κ × ν)} {k : κ} {v : ν} (h : get? m k = some v) : (k, v) ∈ m := by
  obtain ⟨p, hp, rfl⟩ := Option.map_eq_some_iff.mp h
  have hk : p.1 = k := by simpa using List.find?_some hp
  exact hk ▸ List.mem_of_find?_eq_some hp

theorem get?_of_not_mem {m : List (κ × ν)} {k : κ} (h : k ∉ m.map Prod.fst) : get? m k = none := by
  cases hget : get? m k with
  | none => rfl
  | some v => exact absurd (List.mem_map_of_mem (mem_of_get? hget)) h

/-! ## Groups -/

section Groups

variable {α : Type*}

/-- Adds an item to the group of a key. -/
def push (m : List (κ × List α)) (k : κ) (x : α) : List (κ × List α) :=
  set m k ((get? m k).getD [] ++ [x])

/-- The items of a list under their keys, each group in the order of the list.
Items without a key are left out. -/
def groupBy (key : α → Option κ) (xs : List α) : List (κ × List α) :=
  xs.foldl (fun m x => match key x with | none => m | some k => push m k x) []

theorem groupBy_append (key : α → Option κ) (xs : List α) (x : α) :
    groupBy key (xs ++ [x]) =
      match key x with
      | none => groupBy key xs
      | some k => push (groupBy key xs) k x := by
  rw [groupBy, List.foldl_append]
  rfl

theorem get?_push (m : List (κ × List α)) (k k' : κ) (x : α) :
    (get? (push m k x) k').getD [] =
      if k' = k then (get? m k').getD [] ++ [x] else (get? m k').getD [] := by
  rw [push, get?_set]
  by_cases hk : k' = k
  · rw [if_pos hk, if_pos hk, hk, Option.getD_some]
  · rw [if_neg hk, if_neg hk]

/-- The group of a key holds the items of that key, in their order. -/
theorem get?_groupBy (key : α → Option κ) (xs : List α) (k : κ) :
    (get? (groupBy key xs) k).getD [] = xs.filter fun x => key x = some k := by
  induction xs using List.reverseRecOn with
  | nil => rfl
  | append_singleton xs x ih =>
      rw [groupBy_append, List.filter_append]
      cases hx : key x with
      | none => simp [hx, ih]
      | some j =>
          simp only [get?_push, ih]
          by_cases hk : k = j
          · simp [hx, hk]
          · have hk' : j ≠ k := fun h => hk h.symm
            simp [hx, hk, hk']

theorem nodup_keys_groupBy (key : α → Option κ) (xs : List α) :
    ((groupBy key xs).map Prod.fst).Nodup := by
  induction xs using List.reverseRecOn with
  | nil => exact List.nodup_nil
  | append_singleton xs x ih =>
      rw [groupBy_append]
      cases key x with
      | none => exact ih
      | some k => exact nodup_keys_set ih k _

theorem mem_keys_groupBy {key : α → Option κ} {xs : List α} {k : κ}
    (h : k ∈ (groupBy key xs).map Prod.fst) : ∃ x ∈ xs, key x = some k := by
  induction xs using List.reverseRecOn with
  | nil => cases h
  | append_singleton xs x ih =>
      rw [groupBy_append] at h
      have hrest : k ∈ (groupBy key xs).map Prod.fst → ∃ y ∈ xs ++ [x], key y = some k := by
        intro hold
        obtain ⟨y, hy, hkey⟩ := ih hold
        exact ⟨y, List.mem_append_left _ hy, hkey⟩
      cases hx : key x with
      | none =>
          rw [hx] at h
          exact hrest h
      | some j =>
          rw [hx] at h
          rcases mem_keys_set.mp h with rfl | hold
          · exact ⟨x, List.mem_append_right _ List.mem_cons_self, hx⟩
          · exact hrest hold

/-- Every group is that of its key. -/
theorem eq_of_mem_groupBy {key : α → Option κ} {xs : List α} {p : κ × List α}
    (hp : p ∈ groupBy key xs) : p.2 = xs.filter fun x => key x = some p.1 := by
  rw [← get?_groupBy key xs p.1, get?_of_mem (nodup_keys_groupBy key xs) hp, Option.getD_some]

/-- Every item with a key is in the group of its key. -/
theorem exists_mem_groupBy {key : α → Option κ} {xs : List α} {x : α} {k : κ} (hx : x ∈ xs)
    (hk : key x = some k) : ∃ group, (k, group) ∈ groupBy key xs ∧ x ∈ group := by
  have hgroup := get?_groupBy key xs k
  have hmem : x ∈ xs.filter fun x => key x = some k :=
    List.mem_filter.mpr ⟨hx, decide_eq_true hk⟩
  cases hget : get? (groupBy key xs) k with
  | none =>
      rw [hget, Option.getD_none] at hgroup
      rw [← hgroup] at hmem
      cases hmem
  | some group =>
      rw [hget, Option.getD_some] at hgroup
      exact ⟨group, mem_of_get? hget, hgroup ▸ hmem⟩

theorem sum_length_push (m : List (κ × List α)) (k : κ) (x : α) :
    ((push m k x).map fun p => p.2.length).sum = (m.map fun p => p.2.length).sum + 1 := by
  induction m with
  | nil => rfl
  | cons q m ih =>
      by_cases hq : q.1 = k
      · have hget : get? (q :: m) k = some q.2 := by simp [get?, hq]
        rw [push, set, if_pos hq, hget]
        simp only [Option.getD_some, List.map_cons, List.sum_cons, List.length_append,
          List.length_singleton]
        omega
      · have hget : get? (q :: m) k = get? m k := by simp [get?, hq]
        rw [push, set, if_neg hq, hget, List.map_cons, List.map_cons, List.sum_cons, List.sum_cons]
        rw [push] at ih
        omega

/-- The groups hold as many items as have a key. -/
theorem sum_length_groupBy (key : α → Option κ) (xs : List α) :
    ((groupBy key xs).map fun p => p.2.length).sum = xs.countP fun x => (key x).isSome := by
  induction xs using List.reverseRecOn with
  | nil => rfl
  | append_singleton xs x ih =>
      rw [groupBy_append, List.countP_append, List.countP_singleton]
      cases hx : key x with
      | none => simpa [hx] using ih
      | some k => simp [sum_length_push, ih]

end Groups

end Lib.OrderedMap
