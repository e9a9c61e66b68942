import Vynor.Lib.JsValue

/-!
# JSON values up to the order of members

`SameJson` is equality of JSON values up to the order of the members of objects,
at every depth.  Arranging the members of a value gives a value that is the same
(`sameJson_arranged`).  Where the arrangement depends on the members alone and
not on their order, as sorting by names does, two values are the same exactly
when they are arranged to one value (`arranged_eq_iff`).
-/

namespace Lib

/-! ## Sorting by names -/

section

variable {β γ : Type*}

/-- Entries sorted by the code units of their names. -/
def sortByName (entries : List (Units × β)) : List (Units × β) :=
  entries.mergeSort fun p q => decide (p.1 ≤ q.1)

theorem sortByName_perm (entries : List (Units × β)) : (sortByName entries).Perm entries :=
  List.mergeSort_perm _ _

theorem sortByName_pairwise (entries : List (Units × β)) :
    (sortByName entries).Pairwise fun p q => p.1 ≤ q.1 := by
  have hsorted : (sortByName entries).Pairwise fun p q => decide (p.1 ≤ q.1) = true := by
    refine List.pairwise_mergeSort (fun p q r hpq hqr => ?_) (fun p q => ?_) entries
    · exact decide_eq_true (List.le_trans (of_decide_eq_true hpq) (of_decide_eq_true hqr))
    · rcases List.le_total p.1 q.1 with h | h
      · rw [decide_eq_true h, Bool.true_or]
      · rw [decide_eq_true h, Bool.or_true]
  exact hsorted.imp of_decide_eq_true

theorem eq_of_name_eq {entries : List (Units × β)} (h : (entries.map Prod.fst).Nodup)
    {p q : Units × β} (hp : p ∈ entries) (hq : q ∈ entries) (hname : p.1 = q.1) : p = q :=
  List.inj_on_of_nodup_map h hp hq hname

/-- Sorted entries with distinct names are determined by what they are. -/
theorem eq_sortByName {entries sorted : List (Units × β)} (h : (entries.map Prod.fst).Nodup)
    (hperm : sorted.Perm entries) (hsorted : sorted.Pairwise fun p q => p.1 ≤ q.1) :
    sorted = sortByName entries := by
  refine List.Perm.eq_of_pairwise (fun p q hp hq hpq hqp => ?_) hsorted
    (sortByName_pairwise entries) (hperm.trans (sortByName_perm entries).symm)
  exact eq_of_name_eq h (hperm.subset hp) ((sortByName_perm entries).subset hq)
    (List.le_antisymm hpq hqp)

theorem sortByName_congr {entries others : List (Units × β)} (h : (entries.map Prod.fst).Nodup)
    (hperm : entries.Perm others) : sortByName entries = sortByName others := by
  refine eq_sortByName ((hperm.map Prod.fst).nodup_iff.mp h) ?_ (sortByName_pairwise entries)
  exact (sortByName_perm entries).trans hperm

/-- Values can be changed before or after sorting. -/
theorem sortByName_map (f : Units × β → γ) (entries : List (Units × β)) :
    sortByName (entries.map fun p => (p.1, f p))
      = (sortByName entries).map fun p => (p.1, f p) := by
  have hmap := List.map_mergeSort (r := fun p q : Units × β => decide (p.1 ≤ q.1))
    (s := fun p q : Units × γ => decide (p.1 ≤ q.1)) (f := fun p => (p.1, f p)) (l := entries)
    fun _ _ _ _ => rfl
  exact hmap.symm

/-- Entries can be left out before or after sorting. -/
theorem sortByName_filterMap (f : β → Option γ) {entries : List (Units × β)}
    (h : (entries.map Prod.fst).Nodup) :
    (sortByName entries).filterMap (fun p => (f p.2).map fun value => (p.1, value))
      = sortByName (entries.filterMap fun p => (f p.2).map fun value => (p.1, value)) := by
  refine eq_sortByName ?_ ((sortByName_perm entries).filterMap _) ?_
  · have hsub : ((entries.filterMap fun p => (f p.2).map fun value => (p.1, value)).map
        Prod.fst).Sublist (entries.map Prod.fst) := by
      clear h
      induction entries with
      | nil => exact List.Sublist.slnil
      | cons p entries ih =>
          cases hp : f p.2 with
          | none =>
              rw [List.filterMap_cons_none (by rw [hp]; rfl), List.map_cons]
              exact ih.cons p.1
          | some value =>
              rw [List.filterMap_cons_some (b := (p.1, value)) (by rw [hp]; rfl), List.map_cons,
                List.map_cons]
              exact ih.cons_cons p.1
    exact h.sublist hsub
  · refine List.Pairwise.filterMap _ (fun p q hpq p' hp' q' hq' => ?_) (sortByName_pairwise entries)
    obtain ⟨_, _, rfl⟩ := Option.map_eq_some_iff.mp hp'
    obtain ⟨_, _, rfl⟩ := Option.map_eq_some_iff.mp hq'
    exact hpq

/-- A list that is a permutation of images is the images of a permutation. -/
theorem exists_perm_of_perm_map {f : β → γ} {l : List γ} {l' : List β} (h : l.Perm (l'.map f)) :
    ∃ middle : List β, l = middle.map f ∧ middle.Perm l' := by
  have heq := congrFun (congrFun (List.eq_map_comp_perm f) l) l'
  exact heq.mpr h

end

namespace JsValue

variable {ν : Type}

/-! ## The same JSON -/

/-- No object in the value has a name twice. -/
inductive Distinct : JsValue ν → Prop
  | null : Distinct .null
  | bool (value : Bool) : Distinct (.bool value)
  | number (value : ν) : Distinct (.number value)
  | string (value : Units) : Distinct (.string value)
  | array {items : List (JsValue ν)} (h : ∀ item ∈ items, Distinct item) : Distinct (.array items)
  | object {members : List (Units × JsValue ν)} (names : (members.map Prod.fst).Nodup)
      (h : ∀ m ∈ members, Distinct m.2) : Distinct (.object members)

mutual

/-- Equality of JSON values up to the order of members. -/
inductive SameJson : JsValue ν → JsValue ν → Prop
  | null : SameJson .null .null
  | bool (value : Bool) : SameJson (.bool value) (.bool value)
  | number (value : ν) : SameJson (.number value) (.number value)
  | string (value : Units) : SameJson (.string value) (.string value)
  | array {items items' : List (JsValue ν)} (h : SameItems items items') :
      SameJson (.array items) (.array items')
  | object {members middle members' : List (Units × JsValue ν)} (h : SameMembers members middle)
      (perm : middle.Perm members') : SameJson (.object members) (.object members')

/-- The items are the same, one by one. -/
inductive SameItems : List (JsValue ν) → List (JsValue ν) → Prop
  | nil : SameItems [] []
  | cons {item item' : JsValue ν} {rest rest' : List (JsValue ν)} (head : SameJson item item')
      (tail : SameItems rest rest') : SameItems (item :: rest) (item' :: rest')

/-- The members are the same, one by one. -/
inductive SameMembers : List (Units × JsValue ν) → List (Units × JsValue ν) → Prop
  | nil : SameMembers [] []
  | cons {name : Units} {value value' : JsValue ν} {rest rest' : List (Units × JsValue ν)}
      (head : SameJson value value') (tail : SameMembers rest rest') :
      SameMembers ((name, value) :: rest) ((name, value') :: rest')

end

/-! ## Arranging members -/

/-- The members stay what they are. -/
def Permutes (arrange : Members ν → Members ν) : Prop :=
  ∀ members : Members ν, (members.map Prod.fst).Nodup → (arrange members).Perm members

/-- The order the members had does not matter. -/
def IgnoresOrder (arrange : Members ν → Members ν) : Prop :=
  ∀ members members' : Members ν, (members.map Prod.fst).Nodup → members.Perm members' →
    arrange members = arrange members'

variable {arrange : Members ν → Members ν}

theorem names_arrangedMembers (members : Members ν) :
    (arrangedMembers arrange members).map Prod.fst = members.map Prod.fst := by
  rw [arrangedMembers_eq_map, List.map_map]
  rfl

theorem Distinct.arranged (hperm : Permutes arrange) {value : JsValue ν} (h : Distinct value) :
    Distinct (value.arranged arrange) := by
  induction value using JsValue.induct with
  | null => exact h
  | bool value => exact h
  | number value => exact h
  | string value => exact h
  | array items ih =>
      cases h with
      | array h =>
          rw [JsValue.arranged, arrangedItems_eq_map]
          refine .array fun item hitem => ?_
          obtain ⟨old, hold, rfl⟩ := List.mem_map.mp hitem
          exact ih old hold (h old hold)
  | object members ih =>
      cases h with
      | object names h =>
          have hnames : ((arrangedMembers arrange members).map Prod.fst).Nodup := by
            rwa [names_arrangedMembers]
          have hall := hperm _ hnames
          rw [JsValue.arranged]
          refine .object ((hall.map Prod.fst).nodup_iff.mpr hnames) fun m hm => ?_
          have hmem := hall.subset hm
          rw [arrangedMembers_eq_map] at hmem
          obtain ⟨old, hold, rfl⟩ := List.mem_map.mp hmem
          exact ih old hold (h old hold)

theorem sameItems_map {f : JsValue ν → JsValue ν} {items : List (JsValue ν)}
    (h : ∀ item ∈ items, SameJson item (f item)) : SameItems items (items.map f) := by
  induction items with
  | nil => exact .nil
  | cons item items ih =>
      obtain ⟨hitem, hrest⟩ := List.forall_mem_cons.mp h
      exact .cons hitem (ih hrest)

theorem sameMembers_map {f : JsValue ν → JsValue ν} {members : Members ν}
    (h : ∀ m ∈ members, SameJson m.2 (f m.2)) :
    SameMembers members (members.map fun m => (m.1, f m.2)) := by
  induction members with
  | nil => exact .nil
  | cons m members ih =>
      obtain ⟨hm, hrest⟩ := List.forall_mem_cons.mp h
      exact .cons hm (ih hrest)

/-- Arranging the members does not change a value up to their order. -/
theorem sameJson_arranged (hperm : Permutes arrange) {value : JsValue ν} (h : Distinct value) :
    SameJson value (value.arranged arrange) := by
  induction value using JsValue.induct with
  | null => exact .null
  | bool value => exact .bool value
  | number value => exact .number value
  | string value => exact .string value
  | array items ih =>
      cases h with
      | array h =>
          rw [JsValue.arranged, arrangedItems_eq_map]
          exact .array (sameItems_map fun item hitem => ih item hitem (h item hitem))
  | object members ih =>
      cases h with
      | object names h =>
          rw [JsValue.arranged]
          refine .object ?_ (hperm _ ?_).symm
          · rw [arrangedMembers_eq_map]
            exact sameMembers_map fun m hm => ih m hm (h m hm)
          · rwa [names_arrangedMembers]

mutual

/-- Values that are the same are arranged to one value. -/
theorem arranged_congr (horder : IgnoresOrder arrange) {value value' : JsValue ν}
    (hsame : SameJson value value') (h : Distinct value) :
    value.arranged arrange = value'.arranged arrange := by
  cases hsame with
  | null => rfl
  | bool value => rfl
  | number value => rfl
  | string value => rfl
  | array hitems =>
      cases h with
      | array h => rw [JsValue.arranged, JsValue.arranged, arrangedItems_congr horder hitems h]
  | object hmembers perm =>
      cases h with
      | object names h =>
          have hmiddle := arrangedMembers_congr horder hmembers h
          rw [JsValue.arranged, JsValue.arranged]
          refine congrArg _ (horder _ _ (by rwa [names_arrangedMembers]) ?_)
          rw [hmiddle, arrangedMembers_eq_map, arrangedMembers_eq_map]
          exact perm.map _

theorem arrangedItems_congr (horder : IgnoresOrder arrange) {items items' : List (JsValue ν)}
    (hsame : SameItems items items') (h : ∀ item ∈ items, Distinct item) :
    arrangedItems arrange items = arrangedItems arrange items' := by
  cases hsame with
  | nil => rfl
  | cons head tail =>
      obtain ⟨hitem, hrest⟩ := List.forall_mem_cons.mp h
      rw [arrangedItems, arrangedItems, arranged_congr horder head hitem,
        arrangedItems_congr horder tail hrest]

theorem arrangedMembers_congr (horder : IgnoresOrder arrange)
    {members members' : List (Units × JsValue ν)} (hsame : SameMembers members members')
    (h : ∀ m ∈ members, Distinct m.2) :
    arrangedMembers arrange members = arrangedMembers arrange members' := by
  cases hsame with
  | nil => rfl
  | cons head tail =>
      obtain ⟨hvalue, hrest⟩ := List.forall_mem_cons.mp h
      rw [arrangedMembers, arrangedMembers, arranged_congr horder head hvalue,
        arrangedMembers_congr horder tail hrest]

end

theorem sameItems_of_map_eq {f : JsValue ν → JsValue ν} {items items' : List (JsValue ν)}
    (heq : items.map f = items'.map f)
    (h : ∀ item ∈ items, ∀ item' ∈ items', f item = f item' → SameJson item item') :
    SameItems items items' := by
  induction items generalizing items' with
  | nil =>
      rw [List.map_nil, eq_comm, List.map_eq_nil_iff] at heq
      rw [heq]
      exact .nil
  | cons item items ih =>
      cases items' with
      | nil => cases heq
      | cons item' items' =>
          rw [List.map_cons, List.map_cons, List.cons.injEq] at heq
          refine .cons (h _ List.mem_cons_self _ List.mem_cons_self heq.1) (ih heq.2 ?_)
          exact fun old hold new hnew =>
            h old (List.mem_cons_of_mem item hold) new (List.mem_cons_of_mem item' hnew)

theorem sameMembers_of_map_eq {f : JsValue ν → JsValue ν} {members members' : Members ν}
    (heq : (members.map fun m => (m.1, f m.2)) = members'.map fun m => (m.1, f m.2))
    (h : ∀ m ∈ members, ∀ m' ∈ members', f m.2 = f m'.2 → SameJson m.2 m'.2) :
    SameMembers members members' := by
  induction members generalizing members' with
  | nil =>
      rw [List.map_nil, eq_comm, List.map_eq_nil_iff] at heq
      rw [heq]
      exact .nil
  | cons m members ih =>
      cases members' with
      | nil => cases heq
      | cons m' members' =>
          rw [List.map_cons, List.map_cons, List.cons.injEq, Prod.mk.injEq] at heq
          obtain ⟨⟨hname, hvalue⟩, hrest⟩ := heq
          have hhead := h _ List.mem_cons_self _ List.mem_cons_self hvalue
          have htail := ih hrest fun old hold new hnew =>
            h old (List.mem_cons_of_mem m hold) new (List.mem_cons_of_mem m' hnew)
          obtain ⟨name, value⟩ := m
          obtain ⟨name', value'⟩ := m'
          cases hname
          exact .cons hhead htail

/-- Values that are arranged to one value are the same. -/
theorem sameJson_of_arranged_eq (hperm : Permutes arrange) {value value' : JsValue ν}
    (h : Distinct value) (h' : Distinct value')
    (heq : value.arranged arrange = value'.arranged arrange) : SameJson value value' := by
  induction value using JsValue.induct generalizing value' with
  | null => cases value' <;> cases heq; exact .null
  | bool value => cases value' <;> cases heq; exact .bool value
  | number value => cases value' <;> cases heq; exact .number value
  | string value => cases value' <;> cases heq; exact .string value
  | array items ih =>
      cases h with
      | array h =>
          cases h' with
          | array h' =>
              rw [JsValue.arranged, JsValue.arranged, JsValue.array.injEq, arrangedItems_eq_map,
                arrangedItems_eq_map] at heq
              exact .array (sameItems_of_map_eq heq fun item hitem item' hitem' =>
                ih item hitem (h item hitem) (h' item' hitem'))
          | _ => cases heq
  | object members ih =>
      cases h with
      | object names h =>
          cases h' with
          | object names' h' =>
              rw [JsValue.arranged, JsValue.arranged, JsValue.object.injEq] at heq
              have hleft := hperm (arrangedMembers arrange members)
                (by rwa [names_arrangedMembers])
              have hright := hperm (arrangedMembers arrange _)
                (by rwa [names_arrangedMembers])
              rw [← heq] at hright
              have hboth := hleft.symm.trans hright
              rw [arrangedMembers_eq_map, arrangedMembers_eq_map] at hboth
              obtain ⟨middle, hmiddle, perm⟩ := exists_perm_of_perm_map hboth
              refine .object (sameMembers_of_map_eq hmiddle fun m hm m' hm' => ?_) perm
              exact ih m hm (h m hm) (h' m' (perm.subset hm'))
          | _ => cases heq

/-- Two values are the same exactly when they are arranged to one value. -/
theorem arranged_eq_iff (hperm : Permutes arrange) (horder : IgnoresOrder arrange)
    {value value' : JsValue ν} (h : Distinct value) (h' : Distinct value') :
    value.arranged arrange = value'.arranged arrange ↔ SameJson value value' :=
  ⟨sameJson_of_arranged_eq hperm h h', fun hsame => arranged_congr horder hsame h⟩

theorem permutes_sortByName : Permutes (ν := ν) sortByName := fun members _ =>
  sortByName_perm members

theorem ignoresOrder_sortByName : IgnoresOrder (ν := ν) sortByName := fun _ _ hnames hperm =>
  sortByName_congr hnames hperm

/-- Sorted values compare the members of all objects. -/
theorem sorted_eq_iff {value value' : JsValue ν} (h : Distinct value) (h' : Distinct value') :
    value.arranged sortByName = value'.arranged sortByName ↔ SameJson value value' :=
  arranged_eq_iff permutes_sortByName ignoresOrder_sortByName h h'

theorem SameJson.symm {value value' : JsValue ν} (h : Distinct value) (h' : Distinct value')
    (hsame : SameJson value value') : SameJson value' value :=
  (sorted_eq_iff h' h).mp ((sorted_eq_iff h h').mpr hsame).symm

theorem SameJson.trans {first second third : JsValue ν} (h₁ : Distinct first)
    (h₂ : Distinct second) (h₃ : Distinct third) (hfirst : SameJson first second)
    (hsecond : SameJson second third) : SameJson first third :=
  (sorted_eq_iff h₁ h₃).mp
    (((sorted_eq_iff h₁ h₂).mpr hfirst).trans ((sorted_eq_iff h₂ h₃).mpr hsecond))

end JsValue

end Lib
