import Mathlib.Data.List.Basic
import Mathlib.Data.List.Nodup
import Mathlib.Data.List.Pairwise
import Mathlib.Data.List.Perm.Subperm

/-!
# Tables with unique indexes

A *table* is a list of rows in insertion order in which no two rows share a
key.  A row may occupy several keys, one for each unique index it appears in,
so one list of keys stands for a primary key together with every further
unique index.  A nullable column that is null occupies no key.

The statements are `find?` (look a row up by a key), `insert?` (which fails
where a key of the new row is taken), `updateMany` (which rewrites the rows a
condition selects and keeps the keys of every row), `updateMany?` (which may
change keys and fails where one is taken), and `Selects`, which says what a
limited and ordered `SELECT` may return.  A table carries the uniqueness of its
keys, so no statement can break an index.
-/

namespace Lib

/-- Rows no two of which share a key. -/
structure Table (ρ : Type*) {κ : Type*} (keys : ρ → List κ) where
  /-- The rows, oldest first. -/
  rows : List ρ
  /-- No two rows share a key. -/
  unique : rows.Pairwise fun a b => (keys a).Disjoint (keys b)

namespace Table

variable {ρ κ : Type*} {keys : ρ → List κ}

/-- The table with no rows. -/
def empty : Table ρ keys := ⟨[], .nil⟩

/-- The table with one row. -/
def singleton (r : ρ) : Table ρ keys := ⟨[r], List.pairwise_singleton _ r⟩

instance : Inhabited (Table ρ keys) := ⟨empty⟩

/-- Tables with the same rows are equal. -/
theorem ext_rows {t t' : Table ρ keys} (h : t.rows = t'.rows) : t = t' := by
  cases t
  cases t'
  cases h
  rfl

/-! ## Looking a row up -/

/-- Two rows with one key are the same row. -/
theorem eq_of_shared_key {t : Table ρ keys} {a b : ρ} {k : κ} (ha : a ∈ t.rows) (hb : b ∈ t.rows)
    (hka : k ∈ keys a) (hkb : k ∈ keys b) : a = b := by
  by_contra hne
  have hsymm : Std.Symm (fun a b : ρ => (keys a).Disjoint (keys b)) := ⟨fun _ _ h _ h1 h2 => h h2 h1⟩
  exact t.unique.forall ha hb hne hka hkb

section Find

variable [DecidableEq κ]

/-- The row with a key. -/
def find? (t : Table ρ keys) (k : κ) : Option ρ := t.rows.find? fun r => k ∈ keys r

/-- A lookup returns the row of the table that has the key. -/
theorem find?_eq_some {t : Table ρ keys} {k : κ} {r : ρ} :
    t.find? k = some r ↔ r ∈ t.rows ∧ k ∈ keys r := by
  constructor
  · intro h
    exact ⟨List.mem_of_find?_eq_some h, by simpa using List.find?_some h⟩
  · rintro ⟨hr, hk⟩
    cases hf : t.find? k with
    | none =>
        have hnone := List.find?_eq_none.mp hf r hr
        simp [hk] at hnone
    | some a =>
        have ha : a ∈ t.rows ∧ k ∈ keys a :=
          ⟨List.mem_of_find?_eq_some hf, by simpa using List.find?_some hf⟩
        rw [eq_of_shared_key ha.1 hr ha.2 hk]

theorem find?_eq_none {t : Table ρ keys} {k : κ} :
    t.find? k = none ↔ ∀ r ∈ t.rows, k ∉ keys r := by
  simp [find?]

end Find

/-! ## Updating rows -/

/-- The keys of an updated row are those it had. -/
theorem keys_updated {p : ρ → Bool} {f : ρ → ρ} (hf : ∀ r, keys (f r) = keys r) (r : ρ) :
    keys (if p r then f r else r) = keys r := by
  by_cases hp : p r
  · rw [if_pos hp, hf]
  · rw [if_neg hp]

/-- `UPDATE … SET f WHERE p`, for an update that keeps the keys of a row. -/
def updateMany (t : Table ρ keys) (p : ρ → Bool) (f : ρ → ρ)
    (hf : ∀ r, keys (f r) = keys r) : Table ρ keys where
  rows := t.rows.map fun r => if p r then f r else r
  unique := by
    rw [List.pairwise_map]
    refine t.unique.imp fun {a b} h => ?_
    rw [keys_updated hf, keys_updated hf]
    exact h

theorem mem_updateMany {t : Table ρ keys} {p : ρ → Bool} {f : ρ → ρ}
    {hf : ∀ r, keys (f r) = keys r} {r' : ρ} :
    r' ∈ (t.updateMany p f hf).rows ↔ ∃ r ∈ t.rows, (if p r then f r else r) = r' :=
  List.mem_map

/-- Rows that are rewritten and keep their keys are found under them. -/
theorem find?_of_map [DecidableEq κ] {t t' : Table ρ keys} {f : ρ → ρ}
    (hrows : t'.rows = t.rows.map f) (hf : ∀ r, keys (f r) = keys r) (k : κ) :
    t'.find? k = (t.find? k).map f := by
  rw [find?, hrows, List.find?_map]
  have hcomp : ((fun r => decide (k ∈ keys r)) ∘ f) = fun r => decide (k ∈ keys r) := by
    funext r
    rw [Function.comp_apply, hf]
  rw [hcomp]
  rfl

/-- An update changes the row of a key by the update, if the condition selects
it, and leaves it alone otherwise. -/
theorem find?_updateMany [DecidableEq κ] (t : Table ρ keys) (p : ρ → Bool) (f : ρ → ρ)
    (hf : ∀ r, keys (f r) = keys r) (k : κ) :
    (t.updateMany p f hf).find? k = (t.find? k).map fun r => if p r then f r else r :=
  find?_of_map rfl (keys_updated hf) k

/-- The same for a row that is there. -/
theorem find?_updateMany_of_some [DecidableEq κ] {t : Table ρ keys} {p : ρ → Bool} {f : ρ → ρ}
    {hf : ∀ r, keys (f r) = keys r} {k : κ} {r : ρ} (h : t.find? k = some r) :
    (t.updateMany p f hf).find? k = some (if p r then f r else r) := by
  rw [find?_updateMany, h, Option.map_some]

/-- The number of rows the condition of an update selects. -/
def count (t : Table ρ keys) (p : ρ → Bool) : Nat := t.rows.countP p

/-- Rows with keys are distinct. -/
theorem nodup_rows (t : Table ρ keys) (hkeys : ∀ r, keys r ≠ []) : t.rows.Nodup := by
  refine t.unique.imp fun {a b} hdisjoint heq => ?_
  obtain ⟨k, hk⟩ := List.exists_mem_of_ne_nil _ (hkeys a)
  exact hdisjoint hk (heq ▸ hk)

/-- A condition selects at most one row when any two rows it selects are one. -/
theorem count_le_one_iff {t : Table ρ keys} (hkeys : ∀ r, keys r ≠ []) {p : ρ → Bool} :
    t.count p ≤ 1 ↔ ∀ a ∈ t.rows, ∀ b ∈ t.rows, p a = true → p b = true → a = b := by
  rw [count, List.countP_eq_length_filter]
  constructor
  · intro h a ha b hb hpa hpb
    have hma := List.mem_filter.mpr ⟨ha, hpa⟩
    have hmb := List.mem_filter.mpr ⟨hb, hpb⟩
    match hrows : t.rows.filter p, h with
    | [], _ =>
        rw [hrows] at hma
        cases hma
    | [c], _ =>
        rw [hrows, List.mem_singleton] at hma hmb
        exact hma.trans hmb.symm
  · intro h
    have hnodup : (t.rows.filter p).Nodup := (t.nodup_rows hkeys).filter p
    have hsame : ∀ a ∈ t.rows.filter p, ∀ b ∈ t.rows.filter p, a = b := by
      intro a ha b hb
      obtain ⟨ha, hpa⟩ := List.mem_filter.mp ha
      obtain ⟨hb, hpb⟩ := List.mem_filter.mp hb
      exact h a ha b hb hpa hpb
    match hrows : t.rows.filter p with
    | [] => exact Nat.zero_le _
    | [c] => exact Nat.le_refl _
    | c :: d :: rest =>
        rw [hrows] at hnodup hsame
        have hcd := hsame c List.mem_cons_self d (List.mem_cons_of_mem _ List.mem_cons_self)
        exact absurd (hcd ▸ List.mem_cons_self) (List.nodup_cons.mp hnodup).1

/-! ## Updating keys -/

section UpdateKeys

variable [DecidableEq κ]

/-- No two of these rows share a key. -/
def Distinct (keys : ρ → List κ) (rows : List ρ) : Prop :=
  rows.Pairwise fun a b => (keys a).Disjoint (keys b)

instance (rows : List ρ) : Decidable (Distinct keys rows) :=
  inferInstanceAs (Decidable (rows.Pairwise fun a b => ∀ k ∈ keys a, k ∉ keys b))

/-- `UPDATE … SET f WHERE p`, for an update that may change the keys of a row.
It fails where two rows would then share one. -/
def updateMany? (t : Table ρ keys) (p : ρ → Bool) (f : ρ → ρ) : Option (Table ρ keys) :=
  if h : Distinct keys (t.rows.map fun r => if p r then f r else r) then some ⟨_, h⟩ else none

theorem rows_of_updateMany? {t t' : Table ρ keys} {p : ρ → Bool} {f : ρ → ρ}
    (h : t.updateMany? p f = some t') : t'.rows = t.rows.map fun r => if p r then f r else r := by
  unfold updateMany? at h
  split at h
  · cases h
    rfl
  · cases h

/-- An update succeeds where it leaves rows without a shared key. -/
theorem exists_updateMany? {t : Table ρ keys} {p : ρ → Bool} {f : ρ → ρ}
    (h : ∀ a ∈ t.rows, ∀ b ∈ t.rows, (keys a).Disjoint (keys b) →
      (keys (if p a then f a else a)).Disjoint (keys (if p b then f b else b))) :
    ∃ t', t.updateMany? p f = some t' := by
  refine ⟨_, dif_pos ?_⟩
  rw [Distinct, List.pairwise_map]
  refine t.unique.imp_of_mem fun {a b} ha hb hab => ?_
  exact h a ha b hb hab

/-- An update that succeeds changes the row of a key it keeps like any other
update. -/
theorem find?_of_updateMany? {t t' : Table ρ keys} {p : ρ → Bool} {f : ρ → ρ}
    (h : t.updateMany? p f = some t') {k : κ} (hk : ∀ r, k ∈ keys (f r) ↔ k ∈ keys r) {r : ρ}
    (hr : t.find? k = some r) : t'.find? k = some (if p r then f r else r) := by
  obtain ⟨hmem, hkey⟩ := find?_eq_some.mp hr
  rw [find?_eq_some, rows_of_updateMany? h]
  refine ⟨List.mem_map_of_mem hmem, ?_⟩
  split
  · exact (hk r).mpr hkey
  · exact hkey

end UpdateKeys

/-! ## Deleting rows -/

/-- `DELETE … WHERE ¬ p`. -/
def retain (t : Table ρ keys) (p : ρ → Bool) : Table ρ keys where
  rows := t.rows.filter p
  unique := t.unique.filter p

theorem mem_retain {t : Table ρ keys} {p : ρ → Bool} {r : ρ} :
    r ∈ (t.retain p).rows ↔ r ∈ t.rows ∧ p r = true :=
  List.mem_filter

/-! ## Selecting rows -/

/-- `SELECT … WHERE p ORDER BY le LIMIT limit` can return these rows, in this
order. -/
structure Selects (t : Table ρ keys) (p : ρ → Bool) (le : ρ → ρ → Bool) (limit : Nat)
    (picked : List ρ) : Prop where
  nodup : picked.Nodup
  length_le : picked.length ≤ limit
  sorted : picked.Pairwise fun a b => le a b = true
  selected : ∀ r ∈ picked, r ∈ t.rows ∧ p r = true
  passedOver : ∀ r ∈ t.rows, p r = true → r ∉ picked →
    picked.length = limit ∧ ∀ a ∈ picked, le a r = true

instance [DecidableEq ρ] (t : Table ρ keys) (p : ρ → Bool) (le : ρ → ρ → Bool) (limit : Nat)
    (picked : List ρ) : Decidable (t.Selects p le limit picked) :=
  decidable_of_iff
    ((picked.Nodup ∧ picked.length ≤ limit) ∧ picked.Pairwise (fun a b => le a b = true) ∧
      (∀ r ∈ picked, r ∈ t.rows ∧ p r = true) ∧
      ∀ r ∈ t.rows, p r = true → r ∉ picked → picked.length = limit ∧ ∀ a ∈ picked, le a r = true)
    ⟨fun h => ⟨h.1.1, h.1.2, h.2.1, h.2.2.1, h.2.2.2⟩,
      fun h => ⟨⟨h.nodup, h.length_le⟩, h.sorted, h.selected, h.passedOver⟩⟩

/-- A limit that is not exceeded passes no row over. -/
theorem Selects.mem_of_count_le {t : Table ρ keys} {p : ρ → Bool} {le : ρ → ρ → Bool} {limit : Nat}
    {picked : List ρ} (h : t.Selects p le limit picked) (hcount : t.count p ≤ limit) {r : ρ}
    (hr : r ∈ t.rows) (hp : p r = true) : r ∈ picked := by
  by_contra hnot
  have hfull := (h.passedOver r hr hp hnot).1
  have hsub : r :: picked ⊆ t.rows.filter p := by
    intro a ha
    rw [List.mem_filter]
    rcases List.mem_cons.mp ha with rfl | ha
    · exact ⟨hr, hp⟩
    · exact h.selected a ha
  have hnodup : (r :: picked).Nodup := List.nodup_cons.mpr ⟨hnot, h.nodup⟩
  have hlen := (List.subperm_of_subset hnodup hsub).length_le
  rw [← List.countP_eq_length_filter, List.length_cons, hfull] at hlen
  exact absurd (Nat.le_trans hlen hcount) (Nat.not_succ_le_self limit)

/-! ## Inserting rows -/

/-- Added rows share no key with those that were there. -/
theorem disjoint_of_append {t t' : Table ρ keys} {added : List ρ} (h : t'.rows = t.rows ++ added)
    {a b : ρ} (ha : a ∈ t.rows) (hb : b ∈ added) : (keys a).Disjoint (keys b) := by
  have hunique := t'.unique
  rw [h, List.pairwise_append] at hunique
  exact hunique.2.2 a ha b hb

section Insert

variable [DecidableEq κ]

/-- No row of the table has a key of `r`. -/
def Free (t : Table ρ keys) (r : ρ) : Prop := ∀ a ∈ t.rows, (keys a).Disjoint (keys r)

instance (t : Table ρ keys) (r : ρ) : Decidable (t.Free r) :=
  inferInstanceAs (Decidable (∀ a ∈ t.rows, ∀ k ∈ keys a, k ∉ keys r))

/-- `INSERT`.  It fails where a key of the row is taken. -/
def insert? (t : Table ρ keys) (r : ρ) : Option (Table ρ keys) :=
  if h : t.Free r then
    some ⟨t.rows ++ [r], by
      rw [List.pairwise_append]
      refine ⟨t.unique, List.pairwise_singleton _ _, fun a ha b hb => ?_⟩
      rw [List.mem_singleton.mp hb]
      exact h a ha⟩
  else none

theorem insert?_eq_some {t t' : Table ρ keys} {r : ρ} :
    t.insert? r = some t' ↔ t.Free r ∧ t'.rows = t.rows ++ [r] := by
  unfold insert?
  constructor
  · intro h
    split at h
    next hfree =>
      cases h
      exact ⟨hfree, rfl⟩
    · cases h
  · rintro ⟨hfree, hrows⟩
    rw [dif_pos hfree]
    exact congrArg some (ext_rows hrows.symm)

/-- A free row has none of the keys in the table. -/
theorem free_iff_find?_eq_none {t : Table ρ keys} {r : ρ} :
    t.Free r ↔ ∀ k ∈ keys r, t.find? k = none := by
  constructor
  · intro h k hk
    rw [find?_eq_none]
    intro a ha hka
    exact h a ha hka hk
  · intro h a ha k hka hk
    exact find?_eq_none.mp (h k hk) a ha hka

/-- An insert adds the row under its keys and changes no other lookup. -/
theorem find?_of_insert? {t t' : Table ρ keys} {r : ρ} (h : t.insert? r = some t') (k : κ) :
    t'.find? k = if k ∈ keys r then some r else t.find? k := by
  obtain ⟨hfree, hrows⟩ := insert?_eq_some.mp h
  rw [find?, hrows, List.find?_append]
  by_cases hk : k ∈ keys r
  · have hnone : t.find? k = none := free_iff_find?_eq_none.mp hfree k hk
    rw [find?] at hnone
    rw [hnone, if_pos hk]
    simp [hk]
  · rw [if_neg hk]
    have hlast : [r].find? (fun a => decide (k ∈ keys a)) = none := by simp [hk]
    rw [hlast, Option.or_none]
    rfl

/-- A row that was there is still there when rows are added. -/
theorem find?_of_append_of_some {t t' : Table ρ keys} {added : List ρ}
    (h : t'.rows = t.rows ++ added) {k : κ} {a : ρ} (ha : t.find? k = some a) :
    t'.find? k = some a := by
  obtain ⟨hmem, hk⟩ := find?_eq_some.mp ha
  rw [find?_eq_some, h]
  exact ⟨List.mem_append_left _ hmem, hk⟩

/-- A row found after rows were added was there, or is one of them. -/
theorem find?_of_append {t t' : Table ρ keys} {added : List ρ} (h : t'.rows = t.rows ++ added)
    {k : κ} {a : ρ} (ha : t'.find? k = some a) :
    t.find? k = some a ∨ a ∈ added ∧ k ∈ keys a := by
  obtain ⟨hmem, hk⟩ := find?_eq_some.mp ha
  rw [h, List.mem_append] at hmem
  rcases hmem with hold | hnew
  · exact Or.inl (find?_eq_some.mpr ⟨hold, hk⟩)
  · exact Or.inr ⟨hnew, hk⟩

/-- At most one row has a key. -/
theorem countP_key_le_one (t : Table ρ keys) (k : κ) : t.rows.countP (fun r => k ∈ keys r) ≤ 1 := by
  obtain ⟨rows, unique⟩ := t
  show rows.countP (fun r => k ∈ keys r) ≤ 1
  induction rows with
  | nil => simp
  | cons a rows ih =>
      obtain ⟨hhead, htail⟩ := List.pairwise_cons.mp unique
      by_cases hk : k ∈ keys a
      · have hrest : rows.countP (fun r => k ∈ keys r) = 0 := by
          rw [List.countP_eq_zero]
          intro b hb hkb
          exact hhead b hb hk (of_decide_eq_true hkb)
        rw [List.countP_cons, hrest]
        split <;> omega
      · rw [List.countP_cons]
        have hrest := ih htail
        simp [hk, hrest]

/-- A row that was there is still there after an insert. -/
theorem find?_of_insert?_of_some {t t' : Table ρ keys} {r a : ρ} (h : t.insert? r = some t')
    {k : κ} (ha : t.find? k = some a) : t'.find? k = some a := by
  rw [find?_of_insert? h, if_neg, ha]
  intro hk
  have hnone := free_iff_find?_eq_none.mp (insert?_eq_some.mp h).1 k hk
  rw [hnone] at ha
  cases ha

end Insert

end Table

end Lib
