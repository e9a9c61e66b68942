import Mathlib.Data.List.Sort
import Mathlib.Order.Lattice

/-!
# Pages by keys

A list of rows is read in pages, the greatest keys first.  A request names the
least key of the page before, the *cursor*, and gets the rows below it.  One row
more than fits on a page is read, and where it is there, the page has a next
cursor.  Each page is in ascending order.

`follow` asks for pages until there is no next cursor.  Where the keys of the
rows are distinct, this ends, and the pages cover the rows: each row is on one
page, and a later page lies below an earlier one (`exists_follow`).
-/

namespace Lib.Keyset

variable {α β σ τ : Type*}

/-! ## Following cursors -/

/-- A page, and the cursor of the next one. -/
structure Page (α σ : Type*) where
  rows : List α
  next : Option σ

/-- A page whose rows and cursor are written in another way. -/
def Page.map (f : α → β) (g : σ → τ) (p : Page α σ) : Page β τ where
  rows := p.rows.map f
  next := p.next.map g

/-- The pages from a cursor up to one that has no next cursor.  A request may
fail, and the fuel is the number of requests. -/
def follow (fetch : Option σ → Option (Page α σ)) : Nat → Option σ → Option (List (Page α σ))
  | 0, _ => none
  | fuel + 1, cursor =>
      (fetch cursor).bind fun page =>
        match page.next with
        | none => some [page]
        | some next => (follow fetch fuel (some next)).map (page :: ·)

/-- Requests that take and give other cursors lead through the same pages. -/
theorem follow_map {fetch : Option σ → Option (Page α σ)} {fetch' : Option τ → Option (Page β τ)}
    {f : α → β} {g : σ → τ} {p : Option σ → Prop}
    (hnext : ∀ cursor page next, p cursor → fetch cursor = some page → page.next = some next →
      p (some next))
    (hfetch : ∀ cursor, p cursor → fetch' (cursor.map g) = (fetch cursor).map (Page.map f g))
    {cursor : Option σ} (hcursor : p cursor) (fuel : Nat) :
    follow fetch' fuel (cursor.map g) =
      (follow fetch fuel cursor).map (List.map (Page.map f g)) := by
  induction fuel generalizing cursor with
  | zero => rfl
  | succ fuel ih =>
      rw [follow, follow, hfetch cursor hcursor]
      cases hpage : fetch cursor with
      | none => rfl
      | some page =>
          rw [Option.map_some, Option.bind_some, Option.bind_some]
          cases hlast : page.next with
          | none => simp only [Page.map, hlast, Option.map_none, Option.map_some, List.map_cons,
              List.map_nil]
          | some next =>
              have hrest := ih (hnext cursor page next hcursor hpage hlast)
              rw [Option.map_some] at hrest
              have hmapped : (Page.map f g page).next = some (g next) := by
                rw [Page.map, hlast, Option.map_some]
              simp only [hmapped, hrest, Option.map_map]
              rfl

/-! ## Covering rows by pages -/

/-- Pages, the last rows first, that hold each row once and are in ascending
order. -/
structure Covers (lt : α → α → Prop) (rows : List α) (pages : List (List α)) : Prop where
  once : pages.flatten.Perm rows
  ascending : ∀ page ∈ pages, page.Pairwise lt
  backwards : pages.Pairwise fun page later => ∀ a ∈ later, ∀ b ∈ page, lt a b

/-- Rows that fit on one page. -/
theorem covers_singleton {lt : α → α → Prop} {rows : List α}
    (h : rows.Pairwise fun a b => lt b a) : Covers lt rows [rows.reverse] where
  once := by
    rw [List.flatten_cons, List.flatten_nil, List.append_nil]
    exact List.reverse_perm rows
  ascending := by
    intro page hpage
    rw [List.mem_singleton.mp hpage, List.pairwise_reverse]
    exact h
  backwards := List.pairwise_singleton _ _

/-- A page in front of those that cover the rest. -/
theorem Covers.cons {lt : α → α → Prop} {page rest : List α} {pages : List (List α)}
    (h : Covers lt rest pages) (hrows : (page ++ rest).Pairwise fun a b => lt b a) :
    Covers lt (page ++ rest) (page.reverse :: pages) where
  once := by
    rw [List.flatten_cons]
    exact (List.reverse_perm page).append h.once
  ascending := by
    intro other hother
    rcases List.mem_cons.mp hother with rfl | hother
    · rw [List.pairwise_reverse]
      exact (List.pairwise_append.mp hrows).1
    · exact h.ascending other hother
  backwards := by
    rw [List.pairwise_cons]
    refine ⟨fun later hlater a ha b hb => ?_, h.backwards⟩
    have hrest : a ∈ rest := h.once.subset (List.mem_flatten.mpr ⟨later, hlater, ha⟩)
    exact (List.pairwise_append.mp hrows).2.2 b (List.mem_reverse.mp hb) a hrest

/-- Covering rows in another order. -/
theorem Covers.perm {lt : α → α → Prop} {rows rows' : List α} {pages : List (List α)}
    (h : Covers lt rows pages) (hperm : rows.Perm rows') : Covers lt rows' pages where
  once := h.once.trans hperm
  ascending := h.ascending
  backwards := h.backwards

/-! ## One page -/

/-- A page of selected rows.  The cursor is taken from the last one of them that
fits. -/
def pageOf (cursorOf : α → σ) (limit : Nat) (selected : List α) : Page α σ where
  rows := (selected.take limit).reverse
  next :=
    if limit < selected.length then (selected.take limit).getLast?.map cursorOf else none

/-- A page with all the rows that are left has no next cursor. -/
theorem pageOf_last {cursorOf : α → σ} {rest : List α} {limit : Nat} (h : rest.length ≤ limit) :
    pageOf cursorOf limit (rest.take (limit + 1)) = ⟨rest.reverse, none⟩ := by
  rw [List.take_of_length_le (Nat.le_succ_of_le h), pageOf, if_neg (Nat.not_lt.mpr h),
    List.take_of_length_le h]

/-- A full page has the cursor of its last row. -/
theorem pageOf_full (cursorOf : α → σ) {rest : List α} {limit : Nat} (hpos : 0 < limit)
    (h : limit < rest.length) :
    ∃ earlier x, rest.take limit = earlier ++ [x] ∧
      pageOf cursorOf limit (rest.take (limit + 1)) =
        ⟨(rest.take limit).reverse, some (cursorOf x)⟩ := by
  have hlength : (rest.take limit).length = limit := List.length_take_of_le (Nat.le_of_lt h)
  have hnonempty : rest.take limit ≠ [] := by
    rw [← List.length_pos_iff, hlength]
    exact hpos
  refine ⟨(rest.take limit).dropLast, (rest.take limit).getLast hnonempty,
    (List.dropLast_append_getLast hnonempty).symm, ?_⟩
  have hmore : limit < (rest.take (limit + 1)).length := by
    rw [List.length_take_of_le h]
    exact Nat.lt_succ_self limit
  rw [pageOf, if_pos hmore, List.take_take, Nat.min_eq_left (Nat.le_succ limit),
    List.getLast?_eq_some_getLast hnonempty, Option.map_some]

/-! ## Pages of rows with keys -/

section Rows

variable {κ : Type*} [LinearOrder κ] (key : α → κ)

/-- Rows, the greatest key first. -/
def newestFirst (rows : List α) : List α := rows.mergeSort fun a b => key b ≤ key a

variable {key}

theorem newestFirst_perm (rows : List α) : (newestFirst key rows).Perm rows :=
  List.mergeSort_perm _ _

/-- Rows with distinct keys, strictly descending. -/
theorem newestFirst_pairwise {rows : List α} (h : rows.Pairwise fun a b => key a ≠ key b) :
    (newestFirst key rows).Pairwise fun a b => key b < key a := by
  have hsorted : (newestFirst key rows).Pairwise fun a b => decide (key b ≤ key a) = true := by
    refine List.pairwise_mergeSort (fun a b c hab hbc => ?_) (fun a b => ?_) rows
    · exact decide_eq_true (le_trans (of_decide_eq_true hbc) (of_decide_eq_true hab))
    · rw [Bool.or_eq_true, decide_eq_true_eq, decide_eq_true_eq]
      exact le_total (key b) (key a)
  have hdistinct : (newestFirst key rows).Pairwise fun a b => key a ≠ key b :=
    ((newestFirst_perm rows).pairwise_iff fun hne => Ne.symm hne).mpr h
  exact hsorted.imp₂ (fun a b hle hne => lt_of_le_of_ne (of_decide_eq_true hle) (Ne.symm hne))
    hdistinct

/-- Rows can be filtered before or after sorting. -/
theorem newestFirst_filter {rows : List α} (h : rows.Pairwise fun a b => key a ≠ key b)
    (p : α → Bool) : newestFirst key (rows.filter p) = (newestFirst key rows).filter p := by
  refine List.Perm.eq_of_pairwise (fun a b _ _ hab hba => absurd hab (lt_asymm hba))
    (newestFirst_pairwise (h.filter p)) ((newestFirst_pairwise h).filter p) ?_
  exact (newestFirst_perm _).trans ((newestFirst_perm rows).symm.filter p)

/-- The rows below one of them are those after it. -/
theorem filter_below {l earlier later : List α} {x : α}
    (hsorted : l.Pairwise fun a b => key b < key a) (hl : l = earlier ++ x :: later) :
    l.filter (fun a => key a < key x) = later := by
  subst hl
  obtain ⟨-, hlater, hacross⟩ := List.pairwise_append.mp hsorted
  have hnone : earlier.filter (fun a => key a < key x) = [] := by
    rw [List.filter_eq_nil_iff]
    intro a ha hlt
    exact lt_asymm (hacross a ha x List.mem_cons_self) (of_decide_eq_true hlt)
  have hall : later.filter (fun a => key a < key x) = later := by
    rw [List.filter_eq_self]
    intro a ha
    exact decide_eq_true ((List.pairwise_cons.mp hlater).1 a ha)
  have hself : (x :: later).filter (fun a => key a < key x) =
      later.filter fun a => key a < key x :=
    List.filter_cons_of_neg fun hlt => lt_irrefl _ (of_decide_eq_true hlt)
  rw [List.filter_append, hnone, hself, hall, List.nil_append]

/-- A row and those below it, without the first one. -/
theorem drop_filter_le {l : List α} {x : α} (hsorted : l.Pairwise fun a b => key b < key a)
    (hx : x ∈ l) : (l.filter fun a => key a ≤ key x).drop 1 = l.filter fun a => key a < key x := by
  obtain ⟨earlier, later, rfl⟩ := List.append_of_mem hx
  rw [filter_below hsorted rfl]
  obtain ⟨-, hlater, hacross⟩ := List.pairwise_append.mp hsorted
  have hnone : earlier.filter (fun a => key a ≤ key x) = [] := by
    rw [List.filter_eq_nil_iff]
    intro a ha hle
    exact absurd (hacross a ha x List.mem_cons_self) (not_lt_of_ge (of_decide_eq_true hle))
  have hall : later.filter (fun a => key a ≤ key x) = later := by
    rw [List.filter_eq_self]
    intro a ha
    exact decide_eq_true (le_of_lt ((List.pairwise_cons.mp hlater).1 a ha))
  have hself : (x :: later).filter (fun a => key a ≤ key x) =
      x :: later.filter fun a => key a ≤ key x :=
    List.filter_cons_of_pos (decide_eq_true (le_refl (key x)))
  rw [List.filter_append, hnone, List.nil_append, hself, hall, List.drop_one, List.tail_cons]

/-- Of rows in order, the first ones are at or above the last of them, and the
others are below it. -/
theorem take_splits {l : List α} (hsorted : l.Pairwise fun a b => key b < key a) {limit : Nat}
    {z : α} (hz : (l.take limit).getLast? = some z) :
    (∀ a ∈ l.take limit, key z ≤ key a) ∧ ∀ a ∈ l.drop limit, key a < key z := by
  have hsplit : (l.take limit ++ l.drop limit).Pairwise fun a b => key b < key a := by
    rwa [List.take_append_drop]
  obtain ⟨htake, -, hacross⟩ := List.pairwise_append.mp hsplit
  constructor
  · intro a ha
    obtain ⟨init, hinit⟩ := List.getLast?_eq_some_iff.mp hz
    rw [hinit] at ha htake
    rcases List.mem_append.mp ha with ha | ha
    · exact le_of_lt ((List.pairwise_append.mp htake).2.2 a ha z List.mem_cons_self)
    · rw [List.mem_singleton.mp ha]
  · intro a ha
    exact hacross z (List.mem_of_getLast? hz) a ha

/-! ## Requests with cursors -/

variable (key) (place : σ → κ) (cursorOf : α → σ)

/-- The first rows below a cursor. -/
def select (rows : List α) (limit : Nat) (cursor : Option σ) : List α :=
  (newestFirst key (rows.filter fun a => cursor.all fun c => key a < place c)).take limit

/-- The page below a cursor. -/
def pageBelow (rows : List α) (limit : Nat) (cursor : Option σ) : Page α σ :=
  pageOf cursorOf limit (select key place rows (limit + 1) cursor)

variable {key place cursorOf}

/-- The rows that a request with a cursor returns. -/
theorem select_eq_take {rows rest : List α} (h : rows.Pairwise fun a b => key a ≠ key b)
    {cursor : Option σ}
    (hrest : ((newestFirst key rows).filter fun a => cursor.all fun c => key a < place c) = rest)
    (limit : Nat) : select key place rows limit cursor = rest.take limit := by
  rw [select, newestFirst_filter h, hrest]

/-- From a cursor with enough fuel, the pages cover the rows below it. -/
theorem exists_follow_from {rows : List α} (h : rows.Pairwise fun a b => key a ≠ key b)
    (hplace : ∀ a, place (cursorOf a) = key a) {limit : Nat} (hpos : 0 < limit) {fuel : Nat}
    {done rest : List α} {cursor : Option σ}
    (hsplit : newestFirst key rows = done ++ rest)
    (hrest : ((newestFirst key rows).filter fun a => cursor.all fun c => key a < place c) = rest)
    (hfuel : rest.length < fuel) :
    ∃ pages,
      follow (fun cursor => some (pageBelow key place cursorOf rows limit cursor)) fuel cursor =
          some pages ∧
        Covers (fun a b => key a < key b) rest (pages.map Page.rows) := by
  have hsorted := newestFirst_pairwise h
  have hbelow : rest.Pairwise fun a b => key b < key a := by
    rw [hsplit] at hsorted
    exact (List.pairwise_append.mp hsorted).2.1
  induction fuel generalizing done rest cursor with
  | zero => exact absurd hfuel (Nat.not_lt_zero _)
  | succ fuel ih =>
      rw [follow, pageBelow, select_eq_take h hrest, Option.bind_some]
      by_cases hlast : rest.length ≤ limit
      · rw [pageOf_last hlast]
        exact ⟨[⟨rest.reverse, none⟩], rfl, covers_singleton hbelow⟩
      · obtain ⟨earlier, x, htake, hpage⟩ := pageOf_full cursorOf hpos (Nat.lt_of_not_le hlast)
        have hwhole : newestFirst key rows = (done ++ rest.take limit) ++ rest.drop limit := by
          rw [hsplit, List.append_assoc, List.take_append_drop]
        have hnext : ((newestFirst key rows).filter fun a =>
            (some (cursorOf x)).all fun c => key a < place c) = rest.drop limit := by
          simp only [Option.all_some, hplace]
          refine filter_below hsorted (?_ : _ = (done ++ earlier) ++ x :: rest.drop limit)
          rw [hwhole, htake, List.append_assoc, List.append_assoc, List.append_assoc]
          rfl
        have hshorter : (rest.drop limit).length < fuel := by
          rw [List.length_drop]
          omega
        obtain ⟨pages, hfollow, hcovers⟩ := ih hwhole hnext hshorter (hbelow.drop)
        refine ⟨⟨(rest.take limit).reverse, some (cursorOf x)⟩ :: pages, ?_, ?_⟩
        · rw [hpage]
          simp only [hfollow, Option.map_some]
        · rw [List.map_cons]
          have hwith : (rest.take limit ++ rest.drop limit).Pairwise fun a b => key b < key a := by
            rwa [List.take_append_drop]
          have hcons := hcovers.cons hwith
          rwa [List.take_append_drop] at hcons

/-- Following the cursors from the first page ends, and the pages cover the
rows. -/
theorem exists_follow {rows : List α} (h : rows.Pairwise fun a b => key a ≠ key b)
    (hplace : ∀ a, place (cursorOf a) = key a) {limit : Nat} (hpos : 0 < limit) :
    ∃ pages,
      follow (fun cursor => some (pageBelow key place cursorOf rows limit cursor))
          (rows.length + 1) none = some pages ∧
        Covers (fun a b => key a < key b) rows (pages.map Page.rows) := by
  have hall : ((newestFirst key rows).filter fun a => (none : Option σ).all fun c =>
      key a < place c) =
      newestFirst key rows := List.filter_eq_self.mpr fun a _ => rfl
  have hlength : (newestFirst key rows).length < rows.length + 1 := by
    rw [(newestFirst_perm rows).length_eq]
    exact Nat.lt_succ_self _
  have hsplit : newestFirst key rows = [] ++ newestFirst key rows := rfl
  obtain ⟨pages, hfollow, hcovers⟩ := exists_follow_from h hplace hpos hsplit hall hlength
  exact ⟨pages, hfollow, hcovers.perm (newestFirst_perm rows)⟩

end Rows

end Lib.Keyset
