import Mathlib.Data.List.Perm.Basic
import Mathlib.Data.List.Nodup
import Mathlib.Data.List.Pairwise

/-!
# The properties of an object

The own properties of an object of the runtime, listed the way they are
enumerated: the names that are array indices by their value, then the others in
the order they were first set.  `put` sets one property and `fromEntries` sets
many.  Entries with distinct names lose nothing (`fromEntries_perm`), and a list
that could have been enumerated is rebuilt as it was (`fromEntries_own`).
-/

namespace Lib

/-- A string of the runtime as its UTF-16 code units. -/
abbrev Units := List UInt16

/-- The array index that a name spells: a canonical numeral below `2 ^ 32 - 1`. -/
def index? (name : Units) : Option Nat :=
  let value := name.foldl (fun n (u : UInt16) => 10 * n + (u.toNat - 48)) 0
  if name ≠ [] ∧ (name.all fun u => 48 ≤ u && u ≤ 57) ∧ (name.head? = some 48 → name = [48]) ∧
      value < 4294967295 then
    some value
  else none

/-- A name is enumerated before another whenever each of them was set. -/
def before (name other : Units) : Bool :=
  match index? name, index? other with
  | some m, some n => m < n
  | some _, none => true
  | none, _ => false

namespace Properties

variable {β γ : Type*}

/-- The place of a new property. -/
def insert (name : Units) (value : β) : List (Units × β) → List (Units × β)
  | [] => [(name, value)]
  | p :: rest =>
      if before name p.1 then (name, value) :: p :: rest else p :: insert name value rest

/-- `object[name] = value`, as an own property. -/
def put (properties : List (Units × β)) (name : Units) (value : β) : List (Units × β) :=
  if name ∈ properties.map Prod.fst then
    properties.map fun p => if p.1 = name then (name, value) else p
  else insert name value properties

/-- `Object.fromEntries`. -/
def fromEntries (entries : List (Units × β)) : List (Units × β) :=
  entries.foldl (fun properties p => put properties p.1 p.2) []

/-- The properties could be those of an object: no name is there twice, and none
is enumerated too late. -/
structure Own (properties : List (Units × β)) : Prop where
  /-- No name is there twice. -/
  distinct : (properties.map Prod.fst).Nodup
  /-- No later name comes before an earlier one. -/
  ordered : properties.Pairwise fun p q => before q.1 p.1 = false

/-- Whether they could is a matter of the names. -/
theorem Own.congr {properties : List (Units × β)} {others : List (Units × γ)}
    (h : Own properties) (hnames : others.map Prod.fst = properties.map Prod.fst) : Own others := by
  refine ⟨hnames ▸ h.distinct, ?_⟩
  have hordered : (properties.map Prod.fst).Pairwise fun name other => before other name = false :=
    List.pairwise_map.mpr h.ordered
  rw [← hnames] at hordered
  exact List.pairwise_map.mp hordered

/-! ## Setting one property -/

theorem insert_perm (name : Units) (value : β) (properties : List (Units × β)) :
    (insert name value properties).Perm ((name, value) :: properties) := by
  induction properties with
  | nil => exact List.Perm.refl _
  | cons p rest ih =>
      rw [insert]
      split
      next => exact List.Perm.refl _
      next => exact (ih.cons p).trans (List.Perm.swap _ _ _)

/-- A property that is new is one more. -/
theorem put_perm {properties : List (Units × β)} {name : Units}
    (h : name ∉ properties.map Prod.fst) (value : β) :
    (put properties name value).Perm ((name, value) :: properties) := by
  rw [put, if_neg h]
  exact insert_perm name value properties

theorem insert_last {properties : List (Units × β)} {name : Units}
    (h : ∀ p ∈ properties, before name p.1 = false) (value : β) :
    insert name value properties = properties ++ [(name, value)] := by
  induction properties with
  | nil => rfl
  | cons p rest ih =>
      obtain ⟨hp, hrest⟩ := List.forall_mem_cons.mp h
      rw [insert, hp, if_neg Bool.false_ne_true, ih hrest, List.cons_append]

/-- A property that is new and comes before none goes to the end. -/
theorem put_last {properties : List (Units × β)} {name : Units}
    (hnew : name ∉ properties.map Prod.fst) (h : ∀ p ∈ properties, before name p.1 = false)
    (value : β) : put properties name value = properties ++ [(name, value)] := by
  rw [put, if_neg hnew, insert_last h]

/-! ## Setting many -/

theorem foldl_put_perm {entries properties : List (Units × β)}
    (h : ((entries ++ properties).map Prod.fst).Nodup) :
    (entries.foldl (fun properties p => put properties p.1 p.2) properties).Perm
      (entries ++ properties) := by
  induction entries generalizing properties with
  | nil => exact List.Perm.refl _
  | cons p entries ih =>
      rw [List.cons_append, List.map_cons, List.nodup_cons, List.map_append, List.mem_append,
        not_or] at h
      obtain ⟨⟨_, hnew⟩, hrest⟩ := h
      have hput := put_perm hnew p.2
      have hmiddle : (entries ++ put properties p.1 p.2).Perm (p :: (entries ++ properties)) :=
        (hput.append_left entries).trans List.perm_middle
      refine (ih ?_).trans hmiddle
      rw [(hmiddle.map Prod.fst).nodup_iff, List.map_cons, List.nodup_cons, List.map_append,
        List.mem_append, not_or]
      exact ⟨⟨‹_›, hnew⟩, hrest⟩

/-- Entries with distinct names are all there, and nothing else. -/
theorem fromEntries_perm {entries : List (Units × β)} (h : (entries.map Prod.fst).Nodup) :
    (fromEntries entries).Perm entries := by
  have hall : (fromEntries entries).Perm (entries ++ []) :=
    foldl_put_perm (by rwa [List.append_nil])
  rwa [List.append_nil] at hall

theorem foldl_put_own {entries properties : List (Units × β)} (h : Own (properties ++ entries)) :
    entries.foldl (fun properties p => put properties p.1 p.2) properties
      = properties ++ entries := by
  induction entries generalizing properties with
  | nil => exact (List.append_nil _).symm
  | cons p entries ih =>
      have hnew : p.1 ∉ properties.map Prod.fst := by
        intro hmem
        have hnodup := h.distinct
        rw [List.map_append, List.nodup_append] at hnodup
        exact hnodup.2.2 _ hmem _ List.mem_cons_self rfl
      have hlast : ∀ q ∈ properties, before p.1 q.1 = false := fun q hq =>
        (List.pairwise_append.mp h.ordered).2.2 q hq p List.mem_cons_self
      rw [List.foldl_cons, put_last hnew hlast]
      have hsplit : properties ++ p :: entries = properties ++ [(p.1, p.2)] ++ entries := by simp
      rw [ih (hsplit ▸ h), ← hsplit]

/-- Properties in their own order are rebuilt as they were. -/
theorem fromEntries_own {properties : List (Units × β)} (h : Own properties) :
    fromEntries properties = properties := by
  have hempty : Own ([] ++ properties) := h
  exact foldl_put_own hempty

/-! ## Changing values -/

theorem insert_map (f : β → γ) (name : Units) (value : β) (properties : List (Units × β)) :
    insert name (f value) (properties.map fun p => (p.1, f p.2))
      = (insert name value properties).map fun p => (p.1, f p.2) := by
  induction properties with
  | nil => rfl
  | cons p rest ih =>
      rw [List.map_cons, insert, insert, ih]
      split <;> rfl

theorem put_map (f : β → γ) (properties : List (Units × β)) (name : Units) (value : β) :
    put (properties.map fun p => (p.1, f p.2)) name (f value)
      = (put properties name value).map fun p => (p.1, f p.2) := by
  have hnames : (properties.map fun p => (p.1, f p.2)).map Prod.fst = properties.map Prod.fst := by
    rw [List.map_map]
    rfl
  rw [put, put, hnames]
  split
  · rw [List.map_map, List.map_map]
    refine List.map_congr_left fun p _ => ?_
    simp only [Function.comp]
    split <;> rfl
  · exact insert_map f name value properties

/-- Values can be changed before or after the object is made. -/
theorem fromEntries_map (f : β → γ) (entries : List (Units × β)) :
    fromEntries (entries.map fun p => (p.1, f p.2))
      = (fromEntries entries).map fun p => (p.1, f p.2) := by
  have hfold : ∀ entries properties : List (Units × β),
      (entries.map fun p => (p.1, f p.2)).foldl (fun properties p => put properties p.1 p.2)
        (properties.map fun p => (p.1, f p.2))
      = (entries.foldl (fun properties p => put properties p.1 p.2) properties).map
          fun p => (p.1, f p.2) := by
    intro entries
    induction entries with
    | nil => exact fun _ => rfl
    | cons p entries ih =>
        intro properties
        rw [List.map_cons, List.foldl_cons, List.foldl_cons, put_map, ih]
  exact hfold entries []

end Properties

end Lib
