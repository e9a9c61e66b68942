import Mathlib.Data.List.Infix
import Vynor.Lib.Properties

/-!
# Objects in memory

Values of the runtime that may be shared: a value is an atom or a reference, and
the objects lie in a heap.  What a value holds is read path by path (`fieldAt`),
so that two values in two heaps can be compared, whether or not a path leads back
to where it came from.  Where a heap only grows, what was there before is read as
before (`agreeOn_of_prefix`), and what no reference leads to can be changed
unseen (`agreeOn_modify`).
-/

namespace Lib

variable {α κ : Type*}

/-- What a variable or a property holds. -/
inductive Value (α : Type*) where
  | atom (value : α)
  | ref (address : Nat)
deriving DecidableEq

/-- An object.  Its properties are in the order in which they are enumerated. -/
structure Object (α κ : Type*) where
  kind : κ
  properties : List (Units × Value α)
  /-- No name is there twice. -/
  distinct : (properties.map Prod.fst).Nodup

/-- The objects, by their addresses. -/
abbrev Heap (α κ : Type*) := List (Object α κ)

/-! ## One object -/

namespace Object

def names (o : Object α κ) : List Units := o.properties.map Prod.fst

def get? (o : Object α κ) (name : Units) : Option (Value α) :=
  (o.properties.find? fun p => p.1 = name).map Prod.snd

/-- `delete object[name]`. -/
def delete (o : Object α κ) (name : Units) : Object α κ where
  kind := o.kind
  properties := o.properties.filter fun p => p.1 ≠ name
  distinct := o.distinct.sublist (List.filter_sublist.map _)

theorem names_put (properties : List (Units × Value α)) (name : Units) (v : Value α) :
    (Properties.put properties name v).map Prod.fst = properties.map Prod.fst ∨
      name ∉ properties.map Prod.fst := by
  by_cases hname : name ∈ properties.map Prod.fst
  · rw [Properties.put, if_pos hname, List.map_map]
    refine Or.inl (List.map_congr_left fun p _ => ?_)
    rw [Function.comp_apply]
    split
    next heq =>
      exact heq.symm
    · rfl
  · exact Or.inr hname

/-- `object[name] = value`. -/
def set (o : Object α κ) (name : Units) (v : Value α) : Object α κ where
  kind := o.kind
  properties := Properties.put o.properties name v
  distinct := by
    rcases names_put o.properties name v with hsame | hnew
    · rw [hsame]
      exact o.distinct
    · rw [((Properties.put_perm hnew v).map Prod.fst).nodup_iff, List.map_cons, List.nodup_cons]
      exact ⟨hnew, o.distinct⟩

variable {o : Object α κ} {name name' : Units} {v : Value α}

theorem mem_of_get?_eq_some (h : o.get? name = some v) : (name, v) ∈ o.properties := by
  obtain ⟨p, hp, rfl⟩ := Option.map_eq_some_iff.mp h
  have hname : p.1 = name := by simpa using List.find?_some hp
  rw [← hname]
  exact List.mem_of_find?_eq_some hp

theorem get?_eq_none : o.get? name = none ↔ name ∉ o.names := by
  rw [get?, Option.map_eq_none_iff, List.find?_eq_none, names, List.mem_map]
  constructor
  · rintro hnone ⟨p, hp, hname⟩
    exact hnone p hp (decide_eq_true hname)
  · intro hname p hp heq
    exact hname ⟨p, hp, of_decide_eq_true heq⟩

theorem get?_delete : (o.delete name).get? name' = if name' = name then none else o.get? name' := by
  split
  next heq =>
    rw [get?_eq_none, heq]
    intro hmem
    obtain ⟨p, hp, hname⟩ := List.mem_map.mp hmem
    exact of_decide_eq_true (List.mem_filter.mp hp).2 hname
  next hne =>
    rw [get?, get?, delete, List.find?_filter]
    refine congrArg _ (congrArg (fun f => List.find? f o.properties) (funext fun p => ?_))
    rw [decide_eq_decide, decide_eq_true_eq, decide_eq_true_eq]
    exact ⟨And.right, fun hname => ⟨fun heq => hne (hname.symm.trans heq), hname⟩⟩

/-- A property that there is takes another value. -/
theorem get?_set (h : name ∈ o.names) :
    (o.set name v).get? name' = if name' = name then some v else o.get? name' := by
  have hchange : ∀ p : Units × Value α, (if p.1 = name then (name, v) else p).1 = p.1 := by
    intro p
    split
    next heq =>
      exact heq.symm
    · rfl
  have hput : (o.set name v).properties =
      o.properties.map fun p => if p.1 = name then (name, v) else p := if_pos h
  rw [get?, hput, List.find?_map, Function.comp_def]
  simp only [hchange]
  split
  next heq =>
    subst heq
    cases hfind : o.properties.find? fun p => p.1 = name' with
    | none =>
        exact absurd h (get?_eq_none.mp (by rw [get?, hfind]; rfl))
    | some p =>
        have hname : p.1 = name' := by simpa using List.find?_some hfind
        simp only [Option.map_some, if_pos hname]
  next hne =>
    rw [get?]
    cases hfind : o.properties.find? fun p => p.1 = name' with
    | none => rfl
    | some p =>
        have hname : p.1 = name' := by simpa using List.find?_some hfind
        have hother : ¬p.1 = name := fun heq => hne (hname.symm.trans heq)
        simp only [Option.map_some, if_neg hother]

theorem names_delete : (o.delete name).names = o.names.filter fun n => n ≠ name := by
  rw [names, delete, names, List.filter_map]
  rfl

theorem mem_properties_set {p : Units × Value α} (h : p ∈ (o.set name v).properties) :
    p.2 = v ∨ p ∈ o.properties := by
  by_cases hname : name ∈ o.names
  · have hput : (o.set name v).properties =
        o.properties.map fun p => if p.1 = name then (name, v) else p := if_pos hname
    rw [hput, List.mem_map] at h
    obtain ⟨q, hq, heq⟩ := h
    split at heq
    · exact Or.inl (heq ▸ rfl)
    · exact Or.inr (heq ▸ hq)
  · rcases List.mem_cons.mp ((Properties.put_perm hname v).mem_iff.mp h) with rfl | hold
    · exact Or.inl rfl
    · exact Or.inr hold

theorem names_set (h : name ∈ o.names) : (o.set name v).names = o.names :=
  (names_put o.properties name v).resolve_right fun hnew => hnew h

end Object

/-! ## Heaps -/

/-- The value is an atom, or an address below a bound. -/
def Value.Below (n : Nat) (v : Value α) : Prop := ∀ a, v = .ref a → a < n

namespace Heap

/-- `value[name]`, or `none` where there is no such property. -/
def get? (h : Heap α κ) (v : Value α) (name : Units) : Option (Value α) :=
  match v with
  | .atom _ => none
  | .ref a => h[a]?.bind fun o => o.get? name

/-- `name in value`, for own properties. -/
def has (h : Heap α κ) (v : Value α) (name : Units) : Bool := (h.get? v name).isSome

/-- `{ ...object }`: a new object of the given kind with the same properties. -/
def spread (h : Heap α κ) (kind : κ) (a : Nat) : Heap α κ × Nat :=
  match h[a]? with
  | none => (h ++ [{ kind := kind, properties := [], distinct := List.nodup_nil }], h.length)
  | some o =>
      (h ++ [{ kind := kind, properties := o.properties, distinct := o.distinct }], h.length)

/-- `delete object[name]`, for the object at an address. -/
def delete (h : Heap α κ) (a : Nat) (name : Units) : Heap α κ :=
  h.modify a fun o => o.delete name

/-- `object[name] = value`, for the object at an address. -/
def set (h : Heap α κ) (a : Nat) (name : Units) (v : Value α) : Heap α κ :=
  h.modify a fun o => o.set name v

/-- All properties of all objects hold values of some kind. -/
def All (P : Value α → Prop) (h : Heap α κ) : Prop := ∀ o ∈ h, ∀ p ∈ o.properties, P p.2

/-- Every reference leads to an object. -/
def Closed (h : Heap α κ) : Prop := h.All (Value.Below h.length)

/-- No reference leads to an address. -/
def Avoids (h : Heap α κ) (a : Nat) : Prop := h.All fun v => v ≠ .ref a

/-! ## What is read -/

/-- The value at a path. -/
def valueAt (h : Heap α κ) (v : Value α) : List Units → Option (Value α)
  | [] => some v
  | name :: path => (h.get? v name).bind fun v => valueAt h v path

end Heap

/-- What there is at a path: an atom, or an object of some kind. -/
inductive Field (α κ : Type*) where
  | atom (value : α)
  | object (kind : κ)
deriving DecidableEq

namespace Heap

def describe (h : Heap α κ) : Value α → Option (Field α κ)
  | .atom value => some (.atom value)
  | .ref a => h[a]?.map fun o => .object o.kind

def fieldAt (h : Heap α κ) (v : Value α) (path : List Units) : Option (Field α κ) :=
  (h.valueAt v path).bind h.describe

def names (h : Heap α κ) : Value α → List Units
  | .atom _ => []
  | .ref a => (h[a]?.map Object.names).getD []

/-- The names of the properties of what there is at a path. -/
def namesAt (h : Heap α κ) (v : Value α) (path : List Units) : List Units :=
  ((h.valueAt v path).map h.names).getD []

end Heap

/-- A heap in which every reference leads to an object. -/
structure Memory (α κ : Type*) where
  heap : Heap α κ
  closed : heap.Closed

/-! ## Paths -/

namespace Heap

variable {h : Heap α κ} {v : Value α} {name : Units} {path : List Units}

theorem has_eq_false : h.has v name = false ↔ name ∉ h.names v := by
  rw [has, Option.isSome_eq_false_iff, Option.isNone_iff_eq_none]
  cases v with
  | atom value => exact ⟨fun _ => List.not_mem_nil, fun _ => rfl⟩
  | ref a =>
      cases ho : h[a]? with
      | none =>
          rw [get?, names, ho]
          exact ⟨fun _ => List.not_mem_nil, fun _ => rfl⟩
      | some o =>
          rw [get?, names, ho]
          exact Object.get?_eq_none

theorem lt_of_describe {a : Nat} {field : Field α κ} (hfield : h.describe (.ref a) = some field) :
    a < h.length := by
  obtain ⟨o, ho, _⟩ := Option.map_eq_some_iff.mp hfield
  exact (List.getElem?_eq_some_iff.mp ho).1

theorem fieldAt_nil : h.fieldAt v [] = h.describe v := rfl

theorem fieldAt_cons :
    h.fieldAt v (name :: path) = (h.get? v name).bind fun w => h.fieldAt w path :=
  Option.bind_assoc _ _ _

theorem namesAt_nil : h.namesAt v [] = h.names v := rfl

theorem namesAt_cons :
    h.namesAt v (name :: path) = ((h.get? v name).map fun w => h.namesAt w path).getD [] := by
  rw [namesAt, valueAt]
  cases h.get? v name <;> rfl

end Heap

/-! ## What holds of all values -/

theorem Value.Below.mono {m n : Nat} {v : Value α} (h : v.Below m) (hle : m ≤ n) : v.Below n :=
  fun a ha => Nat.lt_of_lt_of_le (h a ha) hle

namespace Heap

variable {P Q : Value α → Prop} {h h' : Heap α κ} {v w : Value α} {a c : Nat} {name : Units}
  {kind : κ}

theorem All.imp (hall : h.All P) (himp : ∀ v, P v → Q v) : h.All Q :=
  fun o ho p hp => himp p.2 (hall o ho p hp)

theorem All.get? (hall : h.All P) (hget : h.get? v name = some w) : P w := by
  cases v with
  | atom value => cases hget
  | ref a =>
      obtain ⟨o, ho, hname⟩ := Option.bind_eq_some_iff.mp hget
      exact hall o (List.mem_of_getElem? ho) _ (Object.mem_of_get?_eq_some hname)

theorem All.spread (hall : h.All P) : (h.spread kind a).1.All P := by
  rw [Heap.spread]
  cases ho : h[a]? with
  | none =>
      refine List.forall_mem_append.mpr ⟨hall, List.forall_mem_singleton.mpr fun p hp => ?_⟩
      cases hp
  | some o =>
      exact List.forall_mem_append.mpr ⟨hall,
        List.forall_mem_singleton.mpr (hall o (List.mem_of_getElem? ho))⟩

theorem All.modify {f : Object α κ → Object α κ} (hall : h.All P)
    (hf : ∀ o, ∀ p ∈ (f o).properties, P p.2 ∨ p ∈ o.properties) : Heap.All P (h.modify a f) := by
  intro o ho p hp
  obtain ⟨i, hi⟩ := List.mem_iff_getElem?.mp ho
  rw [List.getElem?_modify] at hi
  obtain ⟨o', ho', rfl⟩ := Option.map_eq_some_iff.mp hi
  have hold := hall o' (List.mem_of_getElem? ho')
  split at hp
  · exact (hf o' p hp).elim id (hold p)
  · exact hold p hp

theorem All.delete (hall : h.All P) : (h.delete a name).All P :=
  hall.modify fun _ _ hp => Or.inr (List.mem_of_mem_filter hp)

theorem All.set (hall : h.All P) (hv : P v) : (h.set a name v).All P := by
  refine hall.modify fun o p hp => ?_
  rcases Object.mem_properties_set hp with heq | hold
  · exact Or.inl (heq ▸ hv)
  · exact Or.inr hold

theorem length_spread : (h.spread kind a).1.length = h.length + 1 := by
  rw [Heap.spread]
  split <;> rw [List.length_append, List.length_singleton]

theorem address_spread : (h.spread kind a).2 = h.length := by
  rw [Heap.spread]
  split <;> rfl

theorem length_delete : (h.delete a name).length = h.length := List.length_modify _ _ _

theorem length_set : (h.set a name v).length = h.length := List.length_modify _ _ _

theorem Closed.spread (hclosed : h.Closed) : (h.spread kind a).1.Closed := by
  rw [Closed, length_spread]
  exact All.imp (All.spread hclosed) fun v hv => hv.mono (Nat.le_succ _)

theorem Closed.delete (hclosed : h.Closed) : (h.delete a name).Closed := by
  rw [Closed, length_delete]
  exact All.delete hclosed

theorem Closed.set (hclosed : h.Closed) (hv : v.Below h.length) : (h.set a name v).Closed := by
  rw [Closed, length_set]
  exact All.set hclosed hv

theorem Closed.below_get? (hclosed : h.Closed) (hget : h.get? v name = some w) :
    w.Below h.length :=
  All.get? hclosed hget

/-! ## A heap that grows -/

theorem prefix_spread : h <+: (h.spread kind a).1 := by
  rw [Heap.spread]
  split <;> exact List.prefix_append _ _

/-- A change beyond the end of a heap leaves it as it is. -/
theorem prefix_modify {f : Object α κ → Object α κ} (hp : h <+: h') (hc : h.length ≤ c) :
    h <+: h'.modify c f := by
  rw [List.prefix_iff_getElem?] at hp ⊢
  intro i hi
  rw [List.getElem?_modify_ne f h' (by omega), hp i hi]

theorem getElem?_of_prefix (hp : h <+: h') (ha : a < h.length) : h'[a]? = h[a]? := by
  rw [List.prefix_iff_getElem?.mp hp a ha, List.getElem?_eq_getElem ha]

/-! ## What is read alike -/

/-- Two heaps have the same objects wherever a property of values leads, and it
leads on to values with that property. -/
structure AgreeOn (P : Value α → Prop) (h h' : Heap α κ) : Prop where
  same : ∀ a, P (.ref a) → h'[a]? = h[a]?
  leads : ∀ v name w, P v → h.get? v name = some w → P w

variable {path : List Units}

theorem AgreeOn.get? (hagree : AgreeOn P h h') (hv : P v) : h'.get? v name = h.get? v name := by
  cases v with
  | atom value => rfl
  | ref a => rw [Heap.get?, Heap.get?, hagree.same a hv]

theorem AgreeOn.valueAt (hagree : AgreeOn P h h') (hv : P v) (path : List Units) :
    h'.valueAt v path = h.valueAt v path ∧ ∀ w, h.valueAt v path = some w → P w := by
  induction path generalizing v with
  | nil => exact ⟨rfl, fun w hw => Option.some.inj hw ▸ hv⟩
  | cons name path ih =>
      rw [Heap.valueAt, Heap.valueAt, hagree.get? hv]
      cases hget : h.get? v name with
      | none => exact ⟨rfl, fun w hw => by cases hw⟩
      | some u => exact ih (hagree.leads v name u hv hget)

/-- What is read at a path is the same. -/
theorem AgreeOn.fieldAt (hagree : AgreeOn P h h') (hv : P v) :
    h'.fieldAt v path = h.fieldAt v path := by
  obtain ⟨hvalue, hleads⟩ := hagree.valueAt hv path
  rw [Heap.fieldAt, Heap.fieldAt, hvalue]
  refine Option.bind_congr fun w hw => ?_
  cases w with
  | atom value => rfl
  | ref a => rw [describe, describe, hagree.same a (hleads _ hw)]

theorem AgreeOn.namesAt (hagree : AgreeOn P h h') (hv : P v) :
    h'.namesAt v path = h.namesAt v path := by
  obtain ⟨hvalue, hleads⟩ := hagree.valueAt hv path
  rw [Heap.namesAt, Heap.namesAt, hvalue]
  cases hw : h.valueAt v path with
  | none => rfl
  | some w =>
      cases w with
      | atom value => rfl
      | ref a => rw [Option.map_some, Option.map_some, names, names, hagree.same a (hleads _ hw)]

/-- What was there before a heap grew is read as before. -/
theorem agreeOn_of_prefix (hclosed : h.Closed) (hp : h <+: h') :
    AgreeOn (Value.Below h.length) h h' where
  same := fun a ha => getElem?_of_prefix hp (ha a rfl)
  leads := fun _ _ _ _ hget => hclosed.below_get? hget

/-- An object that no reference leads to can be changed unseen. -/
theorem agreeOn_modify {f : Object α κ → Object α κ} (havoids : h.Avoids c) :
    AgreeOn (fun v => v ≠ .ref c) h (h.modify c f) where
  same := fun _ ha => List.getElem?_modify_ne f h fun heq => ha (heq ▸ rfl)
  leads := fun _ _ _ _ hget => All.get? (P := fun v => v ≠ .ref c) havoids hget

end Heap

/-! ## Removing paths -/

/-- One of the paths leads to or past a path. -/
def Under (paths : List (List Units)) (path : List Units) : Prop := ∃ p ∈ paths, p <+: path

/-- A value in one heap is one in another without what is at some paths.  The
other names are enumerated in the same order. -/
structure Without (paths : List (List Units)) (h : Heap α κ) (v : Value α) (h' : Heap α κ)
    (v' : Value α) : Prop where
  removed : ∀ path, Under paths path → h'.fieldAt v' path = none
  kept : ∀ path, ¬Under paths path → h'.fieldAt v' path = h.fieldAt v path
  names : ∀ path, ¬Under paths path →
    h'.namesAt v' path = (h.namesAt v path).filter fun name => path ++ [name] ∉ paths

section Without

variable {h h' h'' : Heap α κ} {v v' v'' : Value α} {paths : List (List Units)} {p : List Units}

theorem under_singleton {path : List Units} : Under [p] path ↔ p <+: path := by
  simp only [Under, List.mem_singleton, exists_eq_left]

theorem under_concat {path : List Units} :
    Under (paths ++ [p]) path ↔ Under paths path ∨ p <+: path := by
  simp only [Under, List.mem_append, List.mem_singleton, or_and_right, exists_or, exists_eq_left]

theorem without_nil (h : Heap α κ) (v : Value α) : Without [] h v h v where
  removed := fun _ ⟨_, hp, _⟩ => absurd hp List.not_mem_nil
  kept := fun _ _ => rfl
  names := fun path _ => by simp

/-- Paths can be removed one after another. -/
theorem Without.concat (hfirst : Without paths h v h' v') (hlast : Without [p] h' v' h'' v'') :
    Without (paths ++ [p]) h v h'' v'' where
  removed := by
    intro path hunder
    by_cases hp : p <+: path
    · exact hlast.removed path (under_singleton.mpr hp)
    · rw [hlast.kept path fun hsingle => hp (under_singleton.mp hsingle)]
      exact hfirst.removed path ((under_concat.mp hunder).resolve_right hp)
  kept := by
    intro path hunder
    rw [under_concat, not_or] at hunder
    rw [hlast.kept path fun hsingle => hunder.2 (under_singleton.mp hsingle),
      hfirst.kept path hunder.1]
  names := by
    intro path hunder
    rw [under_concat, not_or] at hunder
    rw [hlast.names path fun hsingle => hunder.2 (under_singleton.mp hsingle),
      hfirst.names path hunder.1, List.filter_filter]
    refine List.filter_congr fun name _ => ?_
    rw [← Bool.decide_and, decide_eq_decide, List.mem_append, not_or, and_comm]

/-- Both values can be read in other heaps in which they are read alike. -/
theorem Without.of_agreeOn {P Q : Value α → Prop} {k k' : Heap α κ}
    (hwithout : Without paths h v h' v') (hagree : Heap.AgreeOn P k h) (hv : P v)
    (hagree' : Heap.AgreeOn Q h' k') (hv' : Q v') : Without paths k v k' v' where
  removed := by
    intro path hunder
    rw [hagree'.fieldAt hv', hwithout.removed path hunder]
  kept := by
    intro path hunder
    rw [hagree'.fieldAt hv', hwithout.kept path hunder, hagree.fieldAt hv]
  names := by
    intro path hunder
    rw [hagree'.namesAt hv', hwithout.names path hunder, hagree.namesAt hv]

theorem Heap.get?_ref {a : Nat} {o : Object α κ} (ho : h[a]? = some o) (name : Units) :
    h.get? (.ref a) name = o.get? name := by
  rw [Heap.get?, ho, Option.bind_some]

theorem without_atom (hne : p ≠ []) (value : α) : Without [p] h (.atom value) h' (.atom value) where
  removed := by
    rintro path hunder
    cases path with
    | nil => exact absurd (List.prefix_nil.mp (under_singleton.mp hunder)) hne
    | cons name path => rfl
  kept := by
    intro path _
    cases path <;> rfl
  names := by
    intro path _
    cases path <;> rfl

/-- An object that differs from another at one name lacks a path, if that name is
gone and was the whole path or not there before, or if it leads to what lacks the
rest. -/
theorem without_of_object {a a' : Nat} {o o' : Object α κ} {head : Units} {rest : List Units}
    (hclosed : h.Closed) (hgrown : h <+: h') (ho : h[a]? = some o) (ho' : h'[a']? = some o')
    (hkind : o'.kind = o.kind) (hother : ∀ name, name ≠ head → o'.get? name = o.get? name)
    (hnames : o'.names = o.names.filter fun name => [name] ≠ head :: rest)
    (hhead : (o'.get? head = none ∧ (rest = [] ∨ o.get? head = none)) ∨
      (∃ w w', o.get? head = some w ∧ o'.get? head = some w' ∧ rest ≠ [] ∧
        Without [rest] h w h' w')) :
    Without [head :: rest] h (.ref a) h' (.ref a') := by
  have hsame : ∀ name, name ≠ head → ∀ path,
      h'.fieldAt (.ref a') (name :: path) = h.fieldAt (.ref a) (name :: path) ∧
        h'.namesAt (.ref a') (name :: path) = h.namesAt (.ref a) (name :: path) := by
    intro name hname path
    rw [Heap.fieldAt_cons, Heap.fieldAt_cons, Heap.namesAt_cons, Heap.namesAt_cons,
      Heap.get?_ref ho', Heap.get?_ref ho, hother name hname]
    cases hget : o.get? name with
    | none => exact ⟨rfl, rfl⟩
    | some w =>
        have hbelow : w.Below h.length := hclosed.below_get? ((Heap.get?_ref ho name).trans hget)
        have hagree := Heap.agreeOn_of_prefix hclosed hgrown
        exact ⟨hagree.fieldAt hbelow, hagree.namesAt hbelow⟩
  refine ⟨fun path hunder => ?_, fun path hunder => ?_, fun path hunder => ?_⟩
  · obtain ⟨tail, rfl⟩ := under_singleton.mp hunder
    rw [List.cons_append, Heap.fieldAt_cons, Heap.get?_ref ho']
    rcases hhead with ⟨hnone, _⟩ | ⟨w, w', _, hw', _, hrest⟩
    · rw [hnone]
      rfl
    · rw [hw']
      exact hrest.removed _ (under_singleton.mpr (List.prefix_append rest tail))
  · cases path with
    | nil => rw [Heap.fieldAt_nil, Heap.fieldAt_nil, Heap.describe, Heap.describe, ho, ho',
        Option.map_some, Option.map_some, hkind]
    | cons name path =>
        by_cases hname : name = head
        · subst hname
          rw [under_singleton, List.cons_prefix_cons, not_and] at hunder
          rcases hhead with ⟨hnone', hnil | hnone⟩ | ⟨w, w', hw, hw', _, hrest⟩
          · exact absurd (hnil ▸ List.nil_prefix) (hunder rfl)
          · rw [Heap.fieldAt_cons, Heap.fieldAt_cons, Heap.get?_ref ho', Heap.get?_ref ho, hnone,
              hnone', Option.bind_none, Option.bind_none]
          · rw [Heap.fieldAt_cons, Heap.fieldAt_cons, Heap.get?_ref ho', Heap.get?_ref ho, hw, hw']
            exact hrest.kept path fun hsingle => hunder rfl (under_singleton.mp hsingle)
        · exact (hsame name hname path).1
  · cases path with
    | nil =>
        rw [Heap.namesAt_nil, Heap.namesAt_nil, Heap.names, Heap.names, ho, ho', Option.map_some,
          Option.map_some, Option.getD_some, Option.getD_some, hnames]
        refine List.filter_congr fun name _ => ?_
        rw [decide_eq_decide, List.nil_append, List.mem_singleton]
    | cons name path =>
        by_cases hname : name = head
        · subst hname
          rw [under_singleton, List.cons_prefix_cons, not_and] at hunder
          rcases hhead with ⟨hnone', hnil | hnone⟩ | ⟨w, w', hw, hw', _, hrest⟩
          · exact absurd (hnil ▸ List.nil_prefix) (hunder rfl)
          · rw [Heap.namesAt_cons, Heap.namesAt_cons, Heap.get?_ref ho', Heap.get?_ref ho, hnone,
              hnone']
            rfl
          · rw [Heap.namesAt_cons, Heap.namesAt_cons, Heap.get?_ref ho', Heap.get?_ref ho, hw, hw',
              Option.map_some, Option.map_some, Option.getD_some, Option.getD_some,
              hrest.names path fun hsingle => hunder rfl (under_singleton.mp hsingle)]
            refine List.filter_congr fun n _ => ?_
            rw [decide_eq_decide, List.cons_append, List.mem_singleton, List.mem_singleton,
              List.cons_inj_right]
        · rw [(hsame name hname path).2, List.filter_eq_self.mpr]
          intro n _
          rw [decide_eq_true_eq, List.mem_singleton, List.cons_append, List.cons.injEq]
          exact fun heq => hname heq.1

end Without

end Lib
