import Vynor.Contracts.Connection

/-!
# Presented credentials

`presentCredentials` splits the credentials of a channel into the fields that are
no secrets and hints of the secrets.  The secret paths are removed one after
another, and every object on the way is copied.  So the result is the credentials
without these paths, and no object that was there before is changed
(`presented`).
-/

namespace Vynor.Credentials

open Lib (Heap Memory Units Value Field Under Without unit)
open Connection (Primitive Kind PROVIDER_SECRET_FIELDS)

variable {ν : Type}

/-! ## Texts -/

/-- `text.split(separator)`. -/
def split (separator : Char) (text : Units) : List Units := text.splitOn (unit separator)

/-- `segments.join('.')`. -/
def joinPath (segments : List Units) : Units := [unit '.'].intercalate segments

/-- `maskSecret`. -/
def maskSecret (value : Units) : Units :=
  if value.length ≤ 8 then codeUnits "••••"
  else codeUnits "••••" ++ value.drop (value.length - 4)

/-! ## Paths -/

/-- `getPath`. -/
def getPath (heap : Heap (Primitive ν) Kind) (source : Value (Primitive ν)) (path : Units) :
    Value (Primitive ν) :=
  (split '.' path).foldl
    (fun node key =>
      match node with
      | .ref a => (heap.get? (.ref a) key).getD (.atom .undefined)
      | .atom _ => .atom .undefined)
    source

/-- `withoutPath` for the segments of a path. -/
def withoutSegments (heap : Heap (Primitive ν) Kind) (source : Nat) :
    List Units → Heap (Primitive ν) Kind × Nat
  | [] => (heap, source)
  | head :: rest =>
      if head = [] ∨ heap.has (.ref source) head = false then (heap, source)
      else
        let (heap, copy) := heap.spread .record source
        match rest with
        | [] => (heap.delete copy head, copy)
        | _ :: _ =>
            match heap.get? (.ref copy) head with
            | some (.ref child) =>
                let (heap, value) := withoutSegments heap child rest
                (heap.set copy head (.ref value), copy)
            | _ => (heap, copy)

/-- `withoutPath`. -/
def withoutPath (heap : Heap (Primitive ν) Kind) (source : Nat) (path : Units) :
    Heap (Primitive ν) Kind × Nat :=
  withoutSegments heap source (split '.' path)

/-- The recursive call is one of `withoutPath`, whose path is the other segments
joined again. -/
theorem withoutPath_joinPath {segments : List Units} (hne : segments ≠ [])
    (hdot : ∀ segment ∈ segments, unit '.' ∉ segment) (heap : Heap (Primitive ν) Kind)
    (source : Nat) :
    withoutPath heap source (joinPath segments) = withoutSegments heap source segments := by
  rw [withoutPath, split, joinPath, List.splitOn_intercalate _ hdot hne]

/-! ## The presentation -/

/-- What `presentCredentials` returns.  `hints` is a record, given by its
entries. -/
structure Presentation where
  details : Nat
  hints : List (Units × Units)

/-- The hint of a secret at a path. -/
def hintOf (provider : ChannelProviderType) (path value : Units) : Units :=
  if codeUnits "password" <:+ path then codeUnits "••••••••"
  else if provider = .telegramBot ∧ path = codeUnits "botToken" then
    ((split ':' value)[0]?).getD [] ++ [unit ':'] ++ maskSecret (((split ':' value)[1]?).getD [])
  else maskSecret value

/-- The hint of what there is at a path, if there is one. -/
def hint? (provider : ChannelProviderType) (path : Units) : Value (Primitive ν) → Option Units
  | .atom (.string value) => if 0 < value.length then some (hintOf provider path value) else none
  | _ => none

/-- `if (…) hints[path] = …`. -/
def addHint (provider : ChannelProviderType) (value : Value (Primitive ν)) (path : Units)
    (hints : List (Units × Units)) : List (Units × Units) :=
  match hint? provider path value with
  | some hint => Lib.Properties.put hints path hint
  | none => hints

/-- The body of the loop of `presentCredentials`. -/
def presentField (provider : ChannelProviderType) (credentials : Nat)
    (state : Heap (Primitive ν) Kind × Presentation) (path : String) :
    Heap (Primitive ν) Kind × Presentation :=
  let value := getPath state.1 (.ref credentials) (codeUnits path)
  let hints := addHint provider value (codeUnits path) state.2.hints
  let (heap, details) := withoutPath state.1 state.2.details (codeUnits path)
  (heap, { details := details, hints := hints })

/-- `presentCredentials`. -/
def presentCredentials (heap : Heap (Primitive ν) Kind) (provider : ChannelProviderType)
    (credentials : Nat) : Heap (Primitive ν) Kind × Presentation :=
  (PROVIDER_SECRET_FIELDS provider).foldl (presentField provider credentials)
    (heap, { details := credentials, hints := [] })

/-! ## One path -/

/-- What `withoutPath` makes of an object: no object there was is changed, and
the result lacks the path and is otherwise the same.  An address that no
reference led to stays so. -/
structure Copied (heap : Heap (Primitive ν) Kind) (source : Nat) (segments : List Units)
    (result : Heap (Primitive ν) Kind × Nat) : Prop where
  unchanged : heap <+: result.1
  closed : result.1.Closed
  address : result.2 < result.1.length
  avoids : ∀ c < heap.length, c ≠ source → heap.Avoids c → result.1.Avoids c ∧ result.2 ≠ c
  without : Without [segments] heap (.ref source) result.1 (.ref result.2)

/-- The objects on the way to a path are no arrays. -/
def ThroughRecords (heap : Heap (Primitive ν) Kind) (source : Value (Primitive ν))
    (segments : List Units) : Prop :=
  ∀ path kind, path <+: segments → path ≠ segments →
    heap.fieldAt source path = some (.object kind) → kind = .record

section

variable {heap : Heap (Primitive ν) Kind} {source : Nat} {head : Units} {rest : List Units}

theorem mem_names_iff {o : Lib.Object (Primitive ν) Kind} (ho : heap[source]? = some o) :
    head ∈ heap.names (.ref source) ↔ head ∈ o.names := by
  rw [Heap.names, ho]
  rfl

/-- A path whose first name is not there. -/
theorem copied_absent (hclosed : heap.Closed) (haddress : source < heap.length)
    (habsent : head ∉ heap.names (.ref source)) :
    Copied heap source (head :: rest) (heap, source) where
  unchanged := List.prefix_rfl
  closed := hclosed
  address := haddress
  avoids := fun _ _ hne havoids => ⟨havoids, hne.symm⟩
  without := by
    have ho : heap[source]? = some heap[source] := List.getElem?_eq_getElem haddress
    have hnone : heap[source].get? head = none :=
      Lib.Object.get?_eq_none.mpr fun hmem => habsent ((mem_names_iff ho).mpr hmem)
    refine Lib.without_of_object hclosed List.prefix_rfl ho ho rfl (fun _ _ => rfl) ?_
      (Or.inl ⟨hnone, Or.inr hnone⟩)
    rw [eq_comm, List.filter_eq_self]
    intro name hname
    refine decide_eq_true fun heq => ?_
    rw [(List.cons.inj heq).1] at hname
    exact Lib.Object.get?_eq_none.mp hnone hname

/-- The copy of an object that is a record. -/
theorem getElem?_copy {o : Lib.Object (Primitive ν) Kind} (ho : heap[source]? = some o)
    (hkind : o.kind = .record) : (heap.spread .record source).1[heap.length]? = some o := by
  rw [Heap.spread, ho, ← hkind]
  exact List.getElem?_concat_length

/-- A property of the copy is deleted. -/
theorem copied_delete {o : Lib.Object (Primitive ν) Kind} (hclosed : heap.Closed)
    (ho : heap[source]? = some o) (hkind : o.kind = .record) :
    Copied heap source [head]
      ((heap.spread .record source).1.delete heap.length head, heap.length) where
  unchanged := Heap.prefix_modify Heap.prefix_spread (Nat.le_refl _)
  closed := hclosed.spread.delete
  address := by
    rw [Heap.length_delete, Heap.length_spread]
    exact Nat.lt_succ_self _
  avoids := fun _ hc _ havoids => ⟨havoids.spread.delete, (Nat.ne_of_lt hc).symm⟩
  without := by
    have hcopy : ((heap.spread .record source).1.delete heap.length head)[heap.length]? =
        some (o.delete head) := by
      rw [Heap.delete, List.getElem?_modify_eq, getElem?_copy ho hkind]
      rfl
    refine Lib.without_of_object hclosed (Heap.prefix_modify Heap.prefix_spread (Nat.le_refl _))
      ho hcopy rfl (fun name hname => ?_) ?_ (Or.inl ⟨?_, Or.inl rfl⟩)
    · rw [Lib.Object.get?_delete, if_neg hname]
    · rw [Lib.Object.names_delete]
      refine List.filter_congr fun name _ => ?_
      rw [decide_eq_decide, Ne, Ne, List.cons.injEq, and_iff_left rfl]
    · rw [Lib.Object.get?_delete, if_pos rfl]

/-- The copy has no object at the first name. -/
theorem copied_atom {o : Lib.Object (Primitive ν) Kind} (hclosed : heap.Closed)
    (ho : heap[source]? = some o) (hkind : o.kind = .record) (hrest : rest ≠ [])
    {value : Primitive ν} (hatom : o.get? head = some (.atom value)) :
    Copied heap source (head :: rest) ((heap.spread .record source).1, heap.length) where
  unchanged := Heap.prefix_spread
  closed := hclosed.spread
  address := by
    rw [Heap.length_spread]
    exact Nat.lt_succ_self _
  avoids := fun _ hc _ havoids => ⟨havoids.spread, (Nat.ne_of_lt hc).symm⟩
  without := by
    refine Lib.without_of_object hclosed Heap.prefix_spread ho (getElem?_copy ho hkind) rfl
      (fun _ _ => rfl) ?_
      (Or.inr ⟨_, _, hatom, hatom, hrest, Lib.without_atom hrest value⟩)
    rw [eq_comm, List.filter_eq_self]
    exact fun name _ => decide_eq_true fun heq => hrest (List.cons.inj heq).2.symm

/-- The copy gets a copy of the object at the first name. -/
theorem copied_child {o : Lib.Object (Primitive ν) Kind} (hclosed : heap.Closed)
    (ho : heap[source]? = some o) (hkind : o.kind = .record) (hrest : rest ≠ []) {child : Nat}
    (hchild : o.get? head = some (.ref child)) {result : Heap (Primitive ν) Kind × Nat}
    (hcopied : Copied (heap.spread .record source).1 child rest result) :
    Copied heap source (head :: rest)
      (result.1.set heap.length head (.ref result.2), heap.length) := by
  have hmem : head ∈ o.names := by
    by_contra hnot
    rw [Lib.Object.get?_eq_none.mpr hnot] at hchild
    cases hchild
  have hbelow : (Value.ref child : Value (Primitive ν)).Below heap.length :=
    hclosed.below_get? ((Heap.get?_ref ho head).trans hchild)
  have hlength : heap.length < (heap.spread .record source).1.length := by
    rw [Heap.length_spread]
    exact Nat.lt_succ_self _
  -- no reference leads to the copy, so that it is changed unseen by its child
  obtain ⟨havoids, hother⟩ := hcopied.avoids heap.length hlength (Nat.ne_of_gt (hbelow child rfl))
    (Heap.All.spread (hclosed.imp fun v hv heq => Nat.lt_irrefl _ (hv _ heq)))
  have hgrown : heap <+: result.1 := Heap.prefix_spread.trans hcopied.unchanged
  have hcopy : (result.1.set heap.length head (.ref result.2))[heap.length]? =
      some (o.set head (.ref result.2)) := by
    rw [Heap.set, List.getElem?_modify_eq, Heap.getElem?_of_prefix hcopied.unchanged hlength,
      getElem?_copy ho hkind]
    rfl
  refine ⟨Heap.prefix_modify hgrown (Nat.le_refl _), hcopied.closed.set ?_, ?_, ?_, ?_⟩
  · rintro a ⟨⟩
    exact hcopied.address
  · rw [Heap.length_set]
    exact Nat.lt_of_lt_of_le hlength hcopied.unchanged.length_le
  · intro c hc _ hunreferenced
    have hne : c ≠ child := by
      rintro rfl
      exact Heap.All.get? hunreferenced ((Heap.get?_ref ho head).trans hchild) rfl
    have hresult := hcopied.avoids c (Nat.lt_trans hc hlength) hne hunreferenced.spread
    refine ⟨hresult.1.set fun heq => hresult.2 ?_, (Nat.ne_of_lt hc).symm⟩
    injection heq
  · refine Lib.without_of_object hclosed (Heap.prefix_modify hgrown (Nat.le_refl _)) ho hcopy rfl
      (fun name hname => ?_) ?_ (Or.inr ⟨_, .ref result.2, hchild, ?_, hrest, ?_⟩)
    · rw [Lib.Object.get?_set hmem, if_neg hname]
    · rw [Lib.Object.names_set hmem, eq_comm, List.filter_eq_self]
      exact fun name _ => decide_eq_true fun heq => hrest (List.cons.inj heq).2.symm
    · rw [Lib.Object.get?_set hmem, if_pos rfl]
    · refine hcopied.without.of_agreeOn
        (Heap.agreeOn_of_prefix hclosed Heap.prefix_spread) hbelow
        (Heap.agreeOn_modify havoids) fun heq => hother ?_
      injection heq

/-! The cases of `withoutSegments`, for a name that is there. -/

theorem withoutSegments_last (hhead : head ≠ []) (hmem : head ∈ heap.names (.ref source)) :
    withoutSegments heap source [head] =
      ((heap.spread .record source).1.delete heap.length head, heap.length) := by
  have hthere : ¬(head = [] ∨ heap.has (.ref source) head = false) :=
    not_or.mpr ⟨hhead, fun habsent => Heap.has_eq_false.mp habsent hmem⟩
  rw [withoutSegments, if_neg hthere]
  exact congrArg (fun copy => ((heap.spread .record source).1.delete copy head, copy))
    Heap.address_spread

theorem withoutSegments_child (hhead : head ≠ []) (hmem : head ∈ heap.names (.ref source))
    {next : Units} {child : Nat}
    (hchild : (heap.spread .record source).1.get? (.ref heap.length) head = some (.ref child)) :
    withoutSegments heap source (head :: next :: rest) =
      ((withoutSegments (heap.spread .record source).1 child (next :: rest)).1.set heap.length head
        (.ref (withoutSegments (heap.spread .record source).1 child (next :: rest)).2),
      heap.length) := by
  have hthere : ¬(head = [] ∨ heap.has (.ref source) head = false) :=
    not_or.mpr ⟨hhead, fun habsent => Heap.has_eq_false.mp habsent hmem⟩
  have hcopy : heap.length = (heap.spread .record source).2 := Heap.address_spread.symm
  rw [hcopy] at hchild ⊢
  rw [withoutSegments, if_neg hthere]
  simp only [hchild]

theorem withoutSegments_atom (hhead : head ≠ []) (hmem : head ∈ heap.names (.ref source))
    {next : Units} {value : Primitive ν}
    (hatom : (heap.spread .record source).1.get? (.ref heap.length) head = some (.atom value)) :
    withoutSegments heap source (head :: next :: rest) =
      ((heap.spread .record source).1, heap.length) := by
  have hthere : ¬(head = [] ∨ heap.has (.ref source) head = false) :=
    not_or.mpr ⟨hhead, fun habsent => Heap.has_eq_false.mp habsent hmem⟩
  have hcopy : heap.length = (heap.spread .record source).2 := Heap.address_spread.symm
  rw [hcopy] at hatom ⊢
  rw [withoutSegments, if_neg hthere]
  simp only [hatom]

end

/-- A path is removed from copies of the objects on the way. -/
theorem copied_withoutSegments {segments : List Units} (hne : segments ≠ [])
    (hnames : ∀ segment ∈ segments, segment ≠ []) {heap : Heap (Primitive ν) Kind} {source : Nat}
    (hclosed : heap.Closed) (haddress : source < heap.length)
    (hrecords : ThroughRecords heap (.ref source) segments) :
    Copied heap source segments (withoutSegments heap source segments) := by
  induction segments generalizing heap source with
  | nil => exact absurd rfl hne
  | cons head rest ih =>
      have hhead := hnames head List.mem_cons_self
      by_cases hmem : head ∈ heap.names (.ref source)
      · have ho : heap[source]? = some heap[source] := List.getElem?_eq_getElem haddress
        have hkind : heap[source].kind = .record := by
          refine hrecords [] _ List.nil_prefix (List.cons_ne_nil _ _).symm ?_
          rw [Heap.fieldAt_nil, Heap.describe, ho]
          rfl
        have hget : (heap.spread .record source).1.get? (.ref heap.length) head =
            heap[source].get? head := Heap.get?_ref (getElem?_copy ho hkind) head
        cases rest with
        | nil =>
            rw [withoutSegments_last hhead hmem]
            exact copied_delete hclosed ho hkind
        | cons next rest =>
            cases hvalue : heap[source].get? head with
            | none =>
                exact absurd ((mem_names_iff ho).mp hmem) (Lib.Object.get?_eq_none.mp hvalue)
            | some value =>
                rw [hvalue] at hget
                cases value with
                | atom value =>
                    rw [withoutSegments_atom hhead hmem hget]
                    exact copied_atom hclosed ho hkind (List.cons_ne_nil _ _) hvalue
                | ref child =>
                    rw [withoutSegments_child hhead hmem hget]
                    have hbelow : (Value.ref child : Value (Primitive ν)).Below heap.length :=
                      hclosed.below_get? ((Heap.get?_ref ho head).trans hvalue)
                    refine copied_child hclosed ho hkind (List.cons_ne_nil _ _) hvalue
                      (ih (List.cons_ne_nil _ _)
                        (fun segment hsegment => hnames segment (List.mem_cons_of_mem _ hsegment))
                        hclosed.spread ?_ fun path kind hpath hproper hfield => ?_)
                    · rw [Heap.length_spread]
                      exact Nat.lt_succ_of_lt (hbelow child rfl)
                    · rw [(Heap.agreeOn_of_prefix hclosed Heap.prefix_spread).fieldAt hbelow]
                        at hfield
                      refine hrecords (head :: path) kind (List.cons_prefix_cons.mpr ⟨rfl, hpath⟩)
                        (fun heq => hproper (List.cons.inj heq).2) ?_
                      rw [Heap.fieldAt_cons, Heap.get?_ref ho, hvalue]
                      exact hfield
      · rw [withoutSegments, if_pos (Or.inr (Heap.has_eq_false.mpr hmem))]
        exact copied_absent hclosed haddress hmem

end Vynor.Credentials
