import Mathlib.Data.Int.ConditionallyCompleteOrder
import Mathlib.Data.Prod.Lex
import Mathlib.Order.WithBot
import Vynor.Contracts.Pagination
import Vynor.Conversations.Pages
import Vynor.Conversations.System

/-!
# The list of conversations

`list` returns the conversations a query selects, those with the latest messages
first.  The cursor of the next page is the id of the last conversation on a page,
and the next request reads on from where that conversation is by then.

While somebody reads page after page, messages come in and agents answer, so
conversations move up and down and in and out of the list.  One that stays where it
is is not missed, provided that no conversation a page ends with leaves the list
or moves down before the next request.  It is shown once, if they do not move at
all (`list_shows_once`).  Where one leaves the list, the conversation after it is
skipped in its place (`skips_after_resolved`).
-/

namespace Vynor.Conversations

open Lib (Json Machine Table)

/-! ## The query -/

/-- `CONVERSATION_ASSIGNEE_FILTERS`. -/
inductive AssigneeFilter where
  | all
  | me
  | unassigned
deriving DecidableEq, Repr

/-- `ListConversationsQuery`.  Without a status, conversations of all statuses are
selected. -/
structure ListConversationsQuery where
  cursor : Option String := none
  limit : Nat := 25
  status : Option ConversationStatus := none
  assignee : AssigneeFilter := .all
  channelId : Option Id := none
  q : Option String := none
  limit_pos : 1 ≤ limit := by decide
  limit_le : limit ≤ 100 := by decide

/-- `contains` of the database, in the case that is given and in any. -/
structure Search where
  contains : CodeUnits → String → Bool
  containsInsensitive : CodeUnits → String → Bool

section Where

variable (search : Search) (db : Db) (actor : Actor)

/-- The texts of a conversation that `q` is looked for in. -/
def Search.finds (q : String) (c : Conversation) : Bool :=
  let contact := db.contacts.find? c.contactId
  let identity := db.identities.find? (.id c.contactIdentityId)
  let insensitive : Option CodeUnits → Bool := Option.any fun text =>
    search.containsInsensitive text q
  insensitive (contact.map Contact.displayName) ||
    insensitive ((contact.bind Contact.email).map codeUnits) ||
    ((contact.bind Contact.phone).map codeUnits).any (fun text => search.contains text q) ||
    insensitive (identity.map fun i => codeUnits i.externalId) ||
    insensitive (c.lastMessagePreview.map codeUnits) ||
    insensitive c.subject

/-- The `WHERE` of `list`. -/
def ListConversationsQuery.selects (query : ListConversationsQuery) (c : Conversation) : Bool :=
  c.workspaceId = actor.workspaceId &&
    query.status.all (fun status => c.status = status) &&
    (truthy query.channelId).all (fun channelId => c.providerAccountId = channelId) &&
    (match query.assignee with
      | .all => true
      | .me => c.assigneeMembershipId = some actor.membershipId
      | .unassigned => c.assigneeMembershipId = none) &&
    (truthy query.q).all fun q => search.finds db q c

end Where

/-! ## The page -/

section Order

variable {ω : Type} [LinearOrder ω] (collation : Collation ω)

/-- `lastMessageAt` descending with nulls last, then `id` descending. -/
def recentFirst (a b : Conversation) : Bool :=
  match a.lastMessageAt, b.lastMessageAt with
  | some x, some y =>
      y < x || (x = y && collation.sortKey b.id ≤ collation.sortKey a.id)
  | some _, none => true
  | none, some _ => false
  | none, none => collation.sortKey b.id ≤ collation.sortKey a.id

/-- The rows that `list` reads.  From a cursor on, the rows start with that of the
cursor, and the first one is skipped. -/
def findConversations (t : Conversations) (selects : Conversation → Bool) (cursor : Option Id)
    (take : Nat) : List Conversation :=
  let rows := (t.rows.filter selects).mergeSort (recentFirst collation)
  match cursor with
  | none => rows.take take
  | some id =>
      match t.find? id with
      | none => []
      | some x => ((rows.filter (recentFirst collation x)).drop 1).take take

/-- What `list` returns. -/
structure ConversationPage (δ : Type) where
  data : List δ
  nextCursor : Option String
deriving DecidableEq, Repr

/-- The payload of the cursor of a conversation. -/
def conversationCursor (id : Id) : Json := .object [("id", .string id)]

/-- The id in a cursor, if it has one.  The database client throws where that is no
text. -/
def readCursor (cursor : Option String) : Option (Option Id) :=
  match (((truthy cursor).map decodeCursor).bind fun json => json.property? "id").filter
      Json.truthy with
  | none => some none
  | some (.string id) => some (some id)
  | some _ => none

variable {δ : Type} (present : Conversation → δ)

/-- The page of the rows that were read. -/
def conversationPage (limit : Nat) (rows : List Conversation) : ConversationPage δ :=
  let page := rows.take limit
  let next := if limit < rows.length then page.getLast? else none
  { data := page.map present
    nextCursor := next.map fun c => encodeCursor (conversationCursor c.id) }

/-- `list`, or `none` where it throws.  `present` is what `presentMany` makes of a
conversation. -/
def list (search : Search) (db : Db) (actor : Actor) (query : ListConversationsQuery) :
    Option (ConversationPage δ) :=
  (readCursor query.cursor).map fun cursor =>
    conversationPage present query.limit
      (findConversations collation db.conversations (query.selects search db actor) cursor
        (query.limit + 1))

/-! ## Places in the list -/

/-- The place of a conversation: a conversation without messages comes after all
that have some. -/
def rank (c : Conversation) : WithBot Date ×ₗ ω := toLex (c.lastMessageAt, collation.sortKey c.id)

/-- The conversations that are selected and come after a place, in the order of the
list. -/
def remaining (t : Conversations) (selects : Conversation → Bool)
    (bound : Option (WithBot Date ×ₗ ω)) : List Conversation :=
  (Lib.Keyset.newestFirst (rank collation) (t.rows.filter selects)).filter fun c =>
    bound.all fun b => rank collation c < b

variable {collation}

theorem recentFirst_eq (a b : Conversation) :
    recentFirst collation a b = decide (rank collation b ≤ rank collation a) := by
  rw [Bool.eq_iff_iff, decide_eq_true_eq, rank, rank, Prod.Lex.toLex_le_toLex]
  cases ha : a.lastMessageAt with
  | none =>
      cases hb : b.lastMessageAt with
      | none =>
          simp only [recentFirst, ha, hb, decide_eq_true_eq]
          constructor
          · exact fun hle => Or.inr ⟨rfl, hle⟩
          · rintro (hlt | ⟨-, hle⟩)
            · exact absurd hlt (lt_irrefl (⊥ : WithBot Date))
            · exact hle
      | some y =>
          have hnot : ¬ (WithBot.some y : WithBot Date) < ⊥ := not_lt_bot
          have hne : (WithBot.some y : WithBot Date) ≠ ⊥ := WithBot.coe_ne_bot
          simp only [recentFirst, ha, hb, Bool.false_eq_true, false_iff]
          rintro (hlt | ⟨heq, -⟩)
          · exact hnot hlt
          · exact hne heq
  | some x =>
      cases hb : b.lastMessageAt with
      | none =>
          simp only [recentFirst, ha, hb, true_iff]
          exact Or.inl (WithBot.bot_lt_coe x)
      | some y =>
          have hlt : (WithBot.some y : WithBot Date) < WithBot.some x ↔ y < x :=
            WithBot.coe_lt_coe
          have heq : (WithBot.some y : WithBot Date) = WithBot.some x ↔ y = x :=
            WithBot.coe_inj
          simp only [recentFirst, ha, hb, Bool.or_eq_true, Bool.and_eq_true, decide_eq_true_eq]
          exact or_congr hlt.symm (and_congr_left' (eq_comm.trans heq.symm))

omit [LinearOrder ω] in
theorem pairwise_rank_ne (t : Conversations) (selects : Conversation → Bool) :
    (t.rows.filter selects).Pairwise fun a b => rank collation a ≠ rank collation b := by
  refine (t.unique.imp fun {a b} hdisjoint heq => ?_).filter _
  have hid : collation.sortKey a.id = collation.sortKey b.id :=
    congrArg Prod.snd (toLex.injective heq)
  exact hdisjoint (Conversation.mem_keys.mpr rfl)
    (Conversation.mem_keys.mpr (collation.injective hid).symm)

theorem remaining_pairwise (t : Conversations) (selects : Conversation → Bool)
    (bound : Option (WithBot Date ×ₗ ω)) :
    (remaining collation t selects bound).Pairwise fun a b =>
      rank collation b < rank collation a :=
  (Lib.Keyset.newestFirst_pairwise (pairwise_rank_ne t selects)).filter _

theorem mem_remaining {t : Conversations} {selects : Conversation → Bool}
    {bound : Option (WithBot Date ×ₗ ω)} {c : Conversation} :
    c ∈ remaining collation t selects bound ↔
      (c ∈ t.rows ∧ selects c = true) ∧ ∀ b, bound = some b → rank collation c < b := by
  rw [remaining, List.mem_filter, (Lib.Keyset.newestFirst_perm _).mem_iff, List.mem_filter]
  refine and_congr_right fun _ => ?_
  cases bound with
  | none => simp
  | some b => simp

/-- Without a cursor, all selected conversations are read. -/
theorem findConversations_none (t : Conversations) (selects : Conversation → Bool) (take : Nat) :
    findConversations collation t selects none take =
      (remaining collation t selects none).take take := by
  have horder : recentFirst collation = fun a b =>
      decide (rank collation b ≤ rank collation a) := by
    funext a b
    exact recentFirst_eq a b
  have hall : (Lib.Keyset.newestFirst (rank collation) (t.rows.filter selects)).filter
      (fun c => (none : Option (WithBot Date ×ₗ ω)).all fun b => rank collation c < b) =
        Lib.Keyset.newestFirst (rank collation) (t.rows.filter selects) :=
    List.filter_eq_self.mpr fun _ _ => rfl
  rw [findConversations, remaining, hall, Lib.Keyset.newestFirst, horder]

/-- With the cursor of a selected conversation, those after its place are read. -/
theorem findConversations_some {t : Conversations} {selects : Conversation → Bool} {id : Id}
    {x : Conversation} (hx : t.find? id = some x) (hselected : selects x = true) (take : Nat) :
    findConversations collation t selects (some id) take =
      (remaining collation t selects (some (rank collation x))).take take := by
  have horder : recentFirst collation = fun a b =>
      decide (rank collation b ≤ rank collation a) := by
    funext a b
    exact recentFirst_eq a b
  have hmem : x ∈ Lib.Keyset.newestFirst (rank collation) (t.rows.filter selects) :=
    (Lib.Keyset.newestFirst_perm _).mem_iff.mpr
      (List.mem_filter.mpr ⟨(Table.find?_eq_some.mp hx).1, hselected⟩)
  have hdistinct : (t.rows.filter selects).Pairwise fun a b =>
      rank collation a ≠ rank collation b := pairwise_rank_ne t selects
  have hdrop := Lib.Keyset.drop_filter_le (Lib.Keyset.newestFirst_pairwise hdistinct) hmem
  rw [findConversations, hx, horder, remaining]
  exact congrArg (List.take take) hdrop

/-! ## Cursors -/

theorem isSound_conversationCursor (id : Id) : Json.isSound (conversationCursor id) = true := rfl

/-- The cursor of a conversation is read as its id.  No id is empty. -/
theorem readCursor_encode {id : Id} (hid : id ≠ "") :
    readCursor (some (encodeCursor (conversationCursor id))) = some (some id) := by
  have hsound := isSound_conversationCursor id
  have hpresent : truthy (some (encodeCursor (conversationCursor id))) =
      some (encodeCursor (conversationCursor id)) :=
    truthy_eq_some.mpr ⟨rfl, encodeCursor_ne_empty hsound (by simp only [conversationCursor, ne_eq,
      reduceCtorEq, not_false_eq_true])⟩
  have hproperty : (conversationCursor id).property? "id" = some (.string id) := rfl
  have htruthy : Json.truthy (.string id) = true := by
    simp [Json.truthy, hid]
  rw [readCursor, hpresent, Option.map_some, decodeCursor_encodeCursor hsound, Option.bind_some,
    hproperty, Option.filter_some, if_pos htruthy]

end Order

/-! ## Reading page after page -/

/-- Somebody who reads the list.  The next request has no cursor, or that of the last
page.  When all pages are read there is no next request. -/
structure Reading where
  world : World
  next : Option (Option String)
  shown : List Conversation

/-- Nothing is read yet. -/
def Reading.start (w : World) : Reading := ⟨w, some none, []⟩

inductive ReadingAction where
  | write (a : Action)
  | request

/-- Who reads, and what. -/
structure Reader (ω : Type) where
  collation : Collation ω
  search : Search
  actor : Actor
  query : ListConversationsQuery

namespace Reader

variable {ω : Type} [LinearOrder ω] (R : Reader ω)

/-- The conversations that are selected now. -/
def selects (r : Reading) : Conversation → Bool := R.query.selects R.search r.world.db R.actor

def step (r : Reading) : ReadingAction → Option Reading
  | .write a => (Conversations.step r.world a).map fun w => { r with world := w }
  | .request =>
      match r.next with
      | none => none
      | some cursor =>
          (list R.collation id R.search r.world.db R.actor { R.query with cursor := cursor }).map
            fun page => { r with next := page.nextCursor.map some, shown := r.shown ++ page.data }

def machine : Machine Reading ReadingAction := ⟨R.step⟩

/-- The conversation of the cursor. -/
def cursor? (r : Reading) : Option Conversation :=
  match r.next with
  | some (some _) => r.shown.getLast?
  | _ => none

/-- At a request, the conversation of the cursor is in the list and at a place that
is good. -/
def CursorStays (good : WithBot Date ×ₗ ω → WithBot Date ×ₗ ω → Prop) (r : Reading)
    (a : ReadingAction) (_ : Reading) : Prop :=
  a = .request → ∀ x, cursor? r = some x →
    x.id ≠ "" ∧ ∃ x', r.world.db.conversations.find? x.id = some x' ∧
      R.selects r x' = true ∧ good (rank R.collation x) (rank R.collation x')

/-- At a request, a conversation is in the list at its place. -/
def Stays (id : Id) (place : WithBot Date ×ₗ ω) (r : Reading) (a : ReadingAction)
    (_ : Reading) : Prop :=
  a = .request → ∃ c, r.world.db.conversations.find? id = some c ∧ R.selects r c = true ∧
    rank R.collation c = place

/-! ## One request -/

/-- The cursor of a reading is that of the last conversation shown. -/
def Follows (r : Reading) : Prop :=
  match r.next with
  | none => True
  | some none => r.shown = []
  | some (some text) =>
      ∃ x, r.shown.getLast? = some x ∧ text = encodeCursor (conversationCursor x.id)

/-- What a request does that reads the conversations after a bound. -/
structure Reads (r : Reading) (bound : Option (WithBot Date ×ₗ ω)) (r' : Reading) : Prop where
  world : r'.world = r.world
  shown : r'.shown = r.shown ++
    (remaining R.collation r.world.db.conversations (R.selects r) bound).take R.query.limit
  next : (remaining R.collation r.world.db.conversations (R.selects r) bound).length ≤
        R.query.limit ∧ r'.next = none ∨
    ∃ z text, ((remaining R.collation r.world.db.conversations (R.selects r) bound).take
        R.query.limit).getLast? = some z ∧
      r'.next = some (some text) ∧ text = encodeCursor (conversationCursor z.id)

variable {R}

theorem reads_of_rows {r : Reading} {bound : Option (WithBot Date ×ₗ ω)}
    {rows : List Conversation}
    (hrows : rows = (remaining R.collation r.world.db.conversations (R.selects r) bound).take
      (R.query.limit + 1)) :
    R.Reads r bound
      { r with
        next := (conversationPage id R.query.limit rows).nextCursor.map some
        shown := r.shown ++ (conversationPage id R.query.limit rows).data } := by
  generalize hrest : remaining R.collation r.world.db.conversations (R.selects r) bound = rest
    at hrows
  have hpage : rows.take R.query.limit = rest.take R.query.limit := by
    rw [hrows, List.take_take, Nat.min_eq_left (Nat.le_succ _)]
  have hlength : rows.length = min (R.query.limit + 1) rest.length := by
    rw [hrows, List.length_take]
  constructor
  · rfl
  · simp only [conversationPage, hpage, List.map_id, hrest]
  · rw [hrest]
    simp only [conversationPage, hpage]
    by_cases hmore : R.query.limit < rest.length
    · right
      have hfull : R.query.limit < rows.length := by omega
      have hnonempty : rest.take R.query.limit ≠ [] := by
        rw [← List.length_pos_iff, List.length_take]
        have hpos := R.query.limit_pos
        omega
      obtain ⟨z, hz⟩ := Option.isSome_iff_exists.mp (List.getLast?_isSome.mpr hnonempty)
      refine ⟨z, _, hz, ?_, rfl⟩
      rw [if_pos hfull, hz, Option.map_some, Option.map_some]
    · left
      have hlast : ¬ R.query.limit < rows.length := by omega
      refine ⟨Nat.le_of_not_lt hmore, ?_⟩
      rw [if_neg hlast]
      rfl

/-- A request of a reading that goes on reads from the cursor's place. -/
theorem reads_of_request {good : WithBot Date ×ₗ ω → WithBot Date ×ₗ ω → Prop} {r r' : Reading}
    (h : Follows r) (hs : R.step r .request = some r')
    (hstays : R.CursorStays good r .request r') :
    (∃ bound, (∀ x, cursor? r = some x → ∃ b, bound = some b ∧ good (rank R.collation x) b) ∧
      (cursor? r = none → bound = none) ∧ R.Reads r bound r') ∧ r.next ≠ none := by
  cases hnext : r.next with
  | none =>
      rw [step, hnext] at hs
      cases hs
  | some cursor =>
      refine ⟨?_, nofun⟩
      rw [step, hnext] at hs
      obtain ⟨page, hpage, rfl⟩ := Option.map_eq_some_iff.mp hs
      rw [list, Option.map_eq_some_iff] at hpage
      obtain ⟨read, hread, rfl⟩ := hpage
      cases cursor with
      | none =>
          cases hread
          have hcursor : cursor? r = none := by rw [cursor?, hnext]
          refine ⟨none, ?_, fun _ => rfl, reads_of_rows (findConversations_none _ _ _)⟩
          intro x hx
          rw [hcursor] at hx
          cases hx
      | some text =>
          rw [Follows, hnext] at h
          obtain ⟨x, hx, rfl⟩ := h
          have hcursor : cursor? r = some x := by rw [cursor?, hnext, hx]
          obtain ⟨hid, x', hx', hselected, hgood⟩ := hstays rfl x hcursor
          rw [readCursor_encode hid] at hread
          cases hread
          refine ⟨some (rank R.collation x'), ?_, ?_,
            reads_of_rows (findConversations_some hx' hselected _)⟩
          · intro y hy
            rw [hcursor] at hy
            cases hy
            exact ⟨_, rfl, hgood⟩
          · intro hnone
            rw [hcursor] at hnone
            cases hnone

/-- The cursor of a reading stays that of the last conversation shown. -/
theorem Reads.follows {r r' : Reading} {bound : Option (WithBot Date ×ₗ ω)}
    (h : R.Reads r bound r') : Follows r' := by
  rcases h.next with ⟨_, hnone⟩ | ⟨z, text, hz, hnext, htext⟩
  · rw [Follows, hnone]
    trivial
  · rw [Follows, hnext]
    refine ⟨z, ?_, htext⟩
    rw [h.shown, List.getLast?_append, hz, Option.some_or]

/-- The cursor after a request. -/
theorem Reads.cursor {r r' : Reading} {bound : Option (WithBot Date ×ₗ ω)}
    (h : R.Reads r bound r') {z : Conversation} (hz : cursor? r' = some z) :
    ((remaining R.collation r.world.db.conversations (R.selects r) bound).take
      R.query.limit).getLast? = some z := by
  rcases h.next with ⟨_, hnone⟩ | ⟨z', text, hz', hnext, _⟩
  · rw [cursor?, hnone] at hz
    cases hz
  · rw [cursor?, hnext, h.shown, List.getLast?_append, hz', Option.some_or] at hz
    rw [hz']
    exact hz

/-! ## A conversation that stays -/

section Stays

variable {id : Id} {place : WithBot Date ×ₗ ω} {r r' : Reading} {c : Conversation}
  {bound : Option (WithBot Date ×ₗ ω)}

/-- It is on the page, or there are more pages and it comes after the cursor. -/
theorem Reads.page_or_after (h : R.Reads r bound r')
    (hc : r.world.db.conversations.find? id = some c) (hselected : R.selects r c = true)
    (hbound : ∀ b, bound = some b → rank R.collation c < b) :
    c ∈ (remaining R.collation r.world.db.conversations (R.selects r) bound).take
        R.query.limit ∨
      r'.next ≠ none ∧ ∀ z, cursor? r' = some z → rank R.collation c < rank R.collation z := by
  have hrest : c ∈ remaining R.collation r.world.db.conversations (R.selects r) bound :=
    mem_remaining.mpr ⟨⟨(Table.find?_eq_some.mp hc).1, hselected⟩, hbound⟩
  rw [← List.take_append_drop R.query.limit (remaining _ _ _ _)] at hrest
  rcases List.mem_append.mp hrest with htake | hdrop
  · exact Or.inl htake
  · right
    constructor
    · rcases h.next with ⟨hshort, _⟩ | ⟨z, text, _, hnext, _⟩
      · rw [List.drop_eq_nil_of_le hshort] at hdrop
        cases hdrop
      · rw [hnext]
        exact Option.some_ne_none _
    · intro z hz
      exact (Lib.Keyset.take_splits (remaining_pairwise _ _ _) (h.cursor hz)).2 c hdrop

/-- It is shown, or there are more pages and it comes after the cursor. -/
def Ahead (R : Reader ω) (id : Id) (place : WithBot Date ×ₗ ω) (r : Reading) : Prop :=
  (∃ c ∈ r.shown, c.id = id) ∨
    r.next ≠ none ∧ ∀ x, cursor? r = some x → place < rank R.collation x

theorem Ahead.reads (h : R.Ahead id place r) (hreads : R.Reads r bound r')
    (hcursor : ∀ x, cursor? r = some x → ∃ b, bound = some b ∧ rank R.collation x ≤ b)
    (hnone : cursor? r = none → bound = none)
    (hc : r.world.db.conversations.find? id = some c) (hselected : R.selects r c = true)
    (hplace : rank R.collation c = place) : R.Ahead id place r' := by
  rcases h with ⟨d, hd, hid⟩ | ⟨_, hahead⟩
  · left
    rw [hreads.shown]
    exact ⟨d, List.mem_append_left _ hd, hid⟩
  · have hbound : ∀ b, bound = some b → rank R.collation c < b := by
      intro b hb
      cases hx : cursor? r with
      | none =>
          rw [hnone hx] at hb
          cases hb
      | some x =>
          obtain ⟨b', hb', hle⟩ := hcursor x hx
          rw [hb'] at hb
          cases hb
          rw [hplace]
          exact lt_of_lt_of_le (hahead x hx) hle
    rcases hreads.page_or_after hc hselected hbound with hpage | ⟨hmore, hafter⟩
    · left
      rw [hreads.shown]
      exact ⟨c, List.mem_append_right _ hpage, Conversation.id_of_find? hc⟩
    · right
      rw [← hplace]
      exact ⟨hmore, hafter⟩

/-- How often a conversation is shown. -/
def times (id : Id) (shown : List Conversation) : Nat := shown.countP fun c => c.id = id

/-- It is shown once and does not come after the cursor, or it is still to be shown. -/
def Once (R : Reader ω) (id : Id) (place : WithBot Date ×ₗ ω) (r : Reading) : Prop :=
  times id r.shown = 1 ∧ (∀ x, cursor? r = some x → rank R.collation x ≤ place) ∨
    times id r.shown = 0 ∧ r.next ≠ none ∧
      ∀ x, cursor? r = some x → place < rank R.collation x

/-- A page shows a conversation of the table once if it has it at all. -/
theorem times_page (hc : r.world.db.conversations.find? id = some c) :
    (c ∈ (remaining R.collation r.world.db.conversations (R.selects r) bound).take
        R.query.limit → times id ((remaining R.collation r.world.db.conversations (R.selects r)
          bound).take R.query.limit) = 1) ∧
      (c ∉ (remaining R.collation r.world.db.conversations (R.selects r) bound).take
        R.query.limit → times id ((remaining R.collation r.world.db.conversations (R.selects r)
          bound).take R.query.limit) = 0) := by
  obtain ⟨hrow, hid⟩ := Table.find?_eq_some.mp hc
  have hsame : ∀ d ∈ (remaining R.collation r.world.db.conversations (R.selects r) bound).take
      R.query.limit, (decide (d.id = id) = true ↔ (d == c) = true) := by
    intro d hd
    rw [decide_eq_true_eq, beq_iff_eq]
    constructor
    · intro hdid
      have hdrow := (mem_remaining.mp (List.mem_of_mem_take hd)).1.1
      exact Table.eq_of_shared_key hdrow hrow (Conversation.mem_keys.mpr hdid) hid
    · rintro rfl
      exact Conversation.mem_keys.mp hid
  have hcount := List.countP_congr hsame
  have hnodup : ((remaining R.collation r.world.db.conversations (R.selects r) bound).take
      R.query.limit).Nodup :=
    ((remaining_pairwise _ _ _).imp fun hlt heq => absurd (heq ▸ hlt) (lt_irrefl _)).take
  constructor
  · intro hmem
    rw [times, hcount]
    exact List.count_eq_one_of_mem hnodup hmem
  · intro hmem
    rw [times, hcount]
    exact List.count_eq_zero_of_not_mem hmem

/-- A reading that has shown something and goes on has a cursor. -/
theorem cursor_ne_none (hfollows : Follows r) (hmore : r.next ≠ none) (hshown : r.shown ≠ []) :
    cursor? r ≠ none := by
  cases hnext : r.next with
  | none => exact absurd hnext hmore
  | some cursor =>
      rw [Follows, hnext] at hfollows
      cases cursor with
      | none => exact absurd hfollows hshown
      | some text =>
          obtain ⟨x, hx, _⟩ := hfollows
          rw [cursor?, hnext, hx]
          exact Option.some_ne_none x

theorem Once.reads (h : R.Once id place r) (hreads : R.Reads r bound r')
    (hcursor : ∀ x, cursor? r = some x → ∃ b, bound = some b ∧ rank R.collation x = b)
    (hnone : cursor? r = none → bound = none) (hfollows : Follows r) (hmore : r.next ≠ none)
    (hc : r.world.db.conversations.find? id = some c) (hselected : R.selects r c = true)
    (hplace : rank R.collation c = place) : R.Once id place r' := by
  have htimes : times id r'.shown = times id r.shown +
      times id ((remaining R.collation r.world.db.conversations (R.selects r) bound).take
        R.query.limit) := by
    rw [hreads.shown, times, List.countP_append, times, times]
  rcases h with ⟨hone, hpast⟩ | ⟨hzero, _, hahead⟩
  · -- the conversation is above the cursor, so it is not on the page
    have hshown : r.shown ≠ [] := by
      intro hempty
      rw [hempty] at hone
      cases hone
    obtain ⟨x, hx⟩ := Option.ne_none_iff_exists'.mp (cursor_ne_none hfollows hmore hshown)
    obtain ⟨b, rfl, rfl⟩ := hcursor x hx
    have hbelow : ∀ d ∈ (remaining R.collation r.world.db.conversations (R.selects r)
        (some (rank R.collation x))).take R.query.limit,
        rank R.collation d < rank R.collation x :=
      fun d hd => (mem_remaining.mp (List.mem_of_mem_take hd)).2 _ rfl
    left
    constructor
    · rw [htimes, hone, (times_page hc).2 fun hmem => ?_]
      exact absurd (hplace ▸ hpast x hx) (not_le_of_gt (hbelow c hmem))
    · intro z hz
      have hlt := hbelow z (List.mem_of_getLast? (hreads.cursor hz))
      exact le_trans (le_of_lt hlt) (hpast x hx)
  · have hbound : ∀ b, bound = some b → rank R.collation c < b := by
      intro b hb
      cases hx : cursor? r with
      | none =>
          rw [hnone hx] at hb
          cases hb
      | some x =>
          obtain ⟨b', hb', rfl⟩ := hcursor x hx
          rw [hb'] at hb
          cases hb
          rw [hplace]
          exact hahead x hx
    by_cases hpage : c ∈ (remaining R.collation r.world.db.conversations (R.selects r) bound).take
        R.query.limit
    · left
      constructor
      · rw [htimes, hzero, (times_page hc).1 hpage]
      · intro z hz
        rw [← hplace]
        exact (Lib.Keyset.take_splits (remaining_pairwise _ _ _) (hreads.cursor hz)).1 c hpage
    · right
      rcases hreads.page_or_after hc hselected hbound with hmem | ⟨hmore', hafter⟩
      · exact absurd hmem hpage
      · refine ⟨?_, hmore', ?_⟩
        · rw [htimes, hzero, (times_page hc).2 hpage]
        · rw [← hplace]
          exact hafter

end Stays

/-! ## Whole readings -/

section Runs

variable {id : Id} {place : WithBot Date ×ₗ ω}

theorem step_write {r r' : Reading} {a : Action} (hs : R.step r (.write a) = some r') :
    ∃ w, r' = { r with world := w } := by
  obtain ⟨w, _, rfl⟩ := Option.map_eq_some_iff.mp hs
  exact ⟨w, rfl⟩

theorem ahead_step {r r' : Reading} {a : ReadingAction} (h : Follows r ∧ R.Ahead id place r)
    (hs : R.step r a = some r')
    (hgood : R.CursorStays (· ≤ ·) r a r' ∧ R.Stays id place r a r') :
    Follows r' ∧ R.Ahead id place r' := by
  cases a with
  | write a =>
      obtain ⟨w, rfl⟩ := step_write hs
      exact h
  | request =>
      obtain ⟨⟨bound, hcursor, hnone, hreads⟩, _⟩ := reads_of_request h.1 hs hgood.1
      obtain ⟨c, hc, hselected, hplace⟩ := hgood.2 rfl
      exact ⟨hreads.follows, h.2.reads hreads hcursor hnone hc hselected hplace⟩

theorem once_step {r r' : Reading} {a : ReadingAction} (h : Follows r ∧ R.Once id place r)
    (hs : R.step r a = some r')
    (hgood : R.CursorStays (· = ·) r a r' ∧ R.Stays id place r a r') :
    Follows r' ∧ R.Once id place r' := by
  cases a with
  | write a =>
      obtain ⟨w, rfl⟩ := step_write hs
      exact h
  | request =>
      obtain ⟨⟨bound, hcursor, hnone, hreads⟩, hmore⟩ := reads_of_request h.1 hs hgood.1
      obtain ⟨c, hc, hselected, hplace⟩ := hgood.2 rfl
      exact ⟨hreads.follows, h.2.reads hreads hcursor hnone h.1 hmore hc hselected hplace⟩

/-- Whatever is written meanwhile, a conversation that is in the list at its place at
every request is shown by the time that all pages are read, if at every request the
conversation the last page ended with is in the list and not below its place then.
If that is at its place exactly, the conversation is shown once. -/
theorem list_shows_once {w : World} {actions : List ReadingAction} {r : Reading}
    (hrun : R.machine.run (Reading.start w) actions = some r) (hread : r.next = none)
    (hstays : R.machine.Along (R.Stays id place) (Reading.start w) actions) :
    (R.machine.Along (R.CursorStays (· ≤ ·)) (Reading.start w) actions →
      ∃ c ∈ r.shown, c.id = id) ∧
    (R.machine.Along (R.CursorStays (· = ·)) (Reading.start w) actions →
      times id r.shown = 1) := by
  have hstart : Follows (Reading.start w) := rfl
  have hnone : ∀ x, cursor? (Reading.start w) = some x → False := fun x hx => by cases hx
  constructor
  · intro hcursor
    have hfirst : R.Ahead id place (Reading.start w) :=
      Or.inr ⟨Option.some_ne_none _, fun x hx => (hnone x hx).elim⟩
    have hlast := Machine.invariant_along (I := fun r => Follows r ∧ R.Ahead id place r)
      (fun _ _ _ h hs hP => ahead_step h hs hP) ⟨hstart, hfirst⟩ (hcursor.and hstays) hrun
    rcases hlast.2 with hshown | ⟨hmore, _⟩
    · exact hshown
    · exact absurd hread hmore
  · intro hcursor
    have hfirst : R.Once id place (Reading.start w) :=
      Or.inr ⟨rfl, Option.some_ne_none _, fun x hx => (hnone x hx).elim⟩
    have hlast := Machine.invariant_along (I := fun r => Follows r ∧ R.Once id place r)
      (fun _ _ _ h hs hP => once_step h hs hP) ⟨hstart, hfirst⟩ (hcursor.and hstays) hrun
    rcases hlast.2 with ⟨hone, _⟩ | ⟨_, hmore, _⟩
    · exact hone
    · exact absurd hread hmore

end Runs

/-! ## Three conversations in pages of two -/

/-- A conversation of the workspace. -/
def listed (id : Id) (lastMessageAt : Date) : Conversation where
  id := id
  workspaceId := "workspace"
  providerAccountId := "channel"
  contactId := "contact"
  contactIdentityId := "identity"
  unreadCount := 1
  lastMessageAt := some lastMessageAt
  createdAt := 0

def listedTable : Conversations where
  rows := [listed "a" 5, listed "b" 4, listed "c" 3]
  unique := by
    have hdisjoint : ∀ {a b : Id}, a ≠ b → ∀ t u : Date,
        (listed a t).keys.Disjoint (listed b u).keys :=
      fun h _ _ => List.disjoint_singleton.mpr fun hmem => h (List.mem_singleton.mp hmem).symm
    refine List.pairwise_cons.mpr ⟨fun c hc => ?_, List.pairwise_pair.mpr ?_⟩
    · rcases List.mem_pair.mp hc with rfl | rfl
      · exact hdisjoint (by decide) 5 4
      · exact hdisjoint (by decide) 5 3
    · exact hdisjoint (by decide) 4 3

def listedWorld : World :=
  { World.init with db := { World.init.db with conversations := listedTable } }

def exampleReader : Reader String where
  collation := textOrder
  search := ⟨fun _ _ => false, fun _ _ => false⟩
  actor := exampleAgent
  query := { limit := 2, status := some .open }

/-- Two requests, and somebody reads the last conversation in between. -/
def exampleReading : List ReadingAction :=
  [.request, .write (.markRead 0 exampleAgent "c"), .write (.commitMarkRead 0), .request]

/-- Where the selected rows are in order already, the page is cut from them. -/
theorem findConversations_sorted {ω : Type} [LinearOrder ω] {collation : Collation ω}
    {t : Conversations} {selects : Conversation → Bool}
    (hsorted : (t.rows.filter selects).Pairwise fun a b => recentFirst collation a b)
    (take : Nat) :
    findConversations collation t selects none take = (t.rows.filter selects).take take ∧
      ∀ id x, t.find? id = some x → findConversations collation t selects (some id) take =
        (((t.rows.filter selects).filter (recentFirst collation x)).drop 1).take take := by
  have hsame := List.mergeSort_of_pairwise hsorted
  constructor
  · simp only [findConversations, hsame]
  · intro id x hx
    simp only [findConversations, hsame, hx]

theorem step_request {ω : Type} [LinearOrder ω] {R : Reader ω} {r : Reading}
    {cursor : Option String} {read : Option Id} {rows : List Conversation}
    (hnext : r.next = some cursor) (hread : readCursor cursor = some read)
    (hrows : findConversations R.collation r.world.db.conversations (R.selects r) read
      (R.query.limit + 1) = rows) :
    R.machine.step r .request =
      some { r with
        next := (conversationPage id R.query.limit rows).nextCursor.map some
        shown := r.shown ++ (conversationPage id R.query.limit rows).data } := by
  simp only [machine, step, hnext, list, hread, Option.map_some]
  rw [← hrows]
  rfl

/-- The worlds in which the last conversation is opened, and marked as read. -/
def opened : World := listedWorld.setCall 0 (.marking "c")

def markedRead : World :=
  (Conversations.step opened (.commitMarkRead 0)).getD opened

/-- The reading after the first page, in one of these worlds. -/
def firstRead (w : World) : Reading :=
  ⟨w, some (some (encodeCursor (conversationCursor "b"))), [listed "a" 5, listed "b" 4]⟩

def allRead : Reading :=
  ⟨markedRead, none, [listed "a" 5, listed "b" 4, { listed "c" 3 with unreadCount := 0 }]⟩

theorem step_first : exampleReader.machine.step (Reading.start listedWorld) .request =
    some (firstRead listedWorld) := by
  have hsorted : (listedTable.rows.filter
      (exampleReader.selects (Reading.start listedWorld))).Pairwise
        fun a b => recentFirst textOrder a b := by
    decide
  exact step_request (R := exampleReader) (r := Reading.start listedWorld) rfl rfl
    (findConversations_sorted hsorted 3).1

theorem step_last : exampleReader.machine.step (firstRead markedRead) .request = some allRead := by
  have hsorted : (markedRead.db.conversations.rows.filter
      (exampleReader.selects (firstRead markedRead))).Pairwise
        fun a b => recentFirst textOrder a b := by
    decide
  have hid : "b" ≠ "" := by decide
  exact step_request (R := exampleReader) (r := firstRead markedRead) rfl (readCursor_encode hid)
    ((findConversations_sorted hsorted 3).2 "b" (listed "b" 4) rfl)

/-- The conversation that was marked as read meanwhile is shown once. -/
theorem list_shows_once_marked : times "c" allRead.shown = 1 := by
  have hopen : exampleReader.machine.step (firstRead listedWorld)
      (.write (.markRead 0 exampleAgent "c")) = some (firstRead opened) := rfl
  have hmark : exampleReader.machine.step (firstRead opened) (.write (.commitMarkRead 0)) =
      some (firstRead markedRead) := rfl
  have hrun : exampleReader.machine.run (Reading.start listedWorld) exampleReading =
      some allRead := by
    rw [exampleReading, Machine.run_cons, step_first, Option.bind_some, Machine.run_cons, hopen,
      Option.bind_some, Machine.run_cons, hmark, Option.bind_some, Machine.run_cons, step_last,
      Option.bind_some, Machine.run_nil]
  have hstays : exampleReader.machine.Along
      (exampleReader.Stays "c" (rank textOrder (listed "c" 3))) (Reading.start listedWorld)
      exampleReading := by
    refine (Machine.along_cons step_first).mpr ⟨fun _ => ⟨listed "c" 3, rfl, rfl, rfl⟩,
      (Machine.along_cons hopen).mpr ⟨nofun, (Machine.along_cons hmark).mpr ⟨nofun,
        (Machine.along_cons step_last).mpr ⟨fun _ => ?_, trivial⟩⟩⟩⟩
    exact ⟨{ listed "c" 3 with unreadCount := 0 }, rfl, rfl, rfl⟩
  have hcursor : exampleReader.machine.Along (exampleReader.CursorStays (· = ·))
      (Reading.start listedWorld) exampleReading := by
    refine (Machine.along_cons step_first).mpr ⟨fun _ x hx => (Option.some_ne_none x hx.symm).elim,
      (Machine.along_cons hopen).mpr ⟨nofun, (Machine.along_cons hmark).mpr ⟨nofun,
        (Machine.along_cons step_last).mpr ⟨fun _ x hx => ?_, trivial⟩⟩⟩⟩
    cases hx
    exact ⟨by decide, listed "b" 4, rfl, rfl, rfl⟩
  exact (list_shows_once hrun rfl hstays).2 hcursor

/-- The conversation the first page ended with is resolved before the next request. -/
def resolving : World :=
  (Conversations.step listedWorld
    (.update 0 { exampleAgent with canClose := true } "b" { status := some .resolved } none 0)).getD
      listedWorld

def resolved : World := (Conversations.step resolving (.commitUpdate 0 ["m"] 0)).getD resolving

def shortRead : Reading := ⟨resolved, none, [listed "a" 5, listed "b" 4]⟩

theorem step_short : exampleReader.machine.step (firstRead resolved) .request = some shortRead := by
  have hsorted : (resolved.db.conversations.rows.filter
      (exampleReader.selects (firstRead resolved))).Pairwise
        fun a b => recentFirst textOrder a b := by
    decide
  have hid : "b" ≠ "" := by decide
  exact step_request (R := exampleReader) (r := firstRead resolved) rfl (readCursor_encode hid)
    ((findConversations_sorted hsorted 3).2 "b"
      { listed "b" 4 with status := .resolved, resolvedAt := some 0 } rfl)

/-- Then the conversation after it is skipped in its place. -/
theorem skips_after_resolved : ∃ actions r,
    exampleReader.machine.run (Reading.start listedWorld) actions = some r ∧ r.next = none ∧
      exampleReader.machine.Along (exampleReader.Stays "c" (rank textOrder (listed "c" 3)))
        (Reading.start listedWorld) actions ∧
      times "c" r.shown = 0 := by
  have hupdate : exampleReader.machine.step (firstRead listedWorld)
      (.write (.update 0 { exampleAgent with canClose := true } "b" { status := some .resolved }
        none 0)) = some (firstRead resolving) := rfl
  have hcommit : exampleReader.machine.step (firstRead resolving)
      (.write (.commitUpdate 0 ["m"] 0)) = some (firstRead resolved) := rfl
  refine ⟨[.request, .write (.update 0 { exampleAgent with canClose := true } "b"
    { status := some .resolved } none 0), .write (.commitUpdate 0 ["m"] 0), .request], shortRead,
    ?_, rfl, ?_, rfl⟩
  · rw [Machine.run_cons, step_first, Option.bind_some, Machine.run_cons, hupdate,
      Option.bind_some, Machine.run_cons, hcommit, Option.bind_some, Machine.run_cons, step_short,
      Option.bind_some, Machine.run_nil]
  · exact (Machine.along_cons step_first).mpr ⟨fun _ => ⟨listed "c" 3, rfl, rfl, rfl⟩,
      (Machine.along_cons hupdate).mpr ⟨nofun, (Machine.along_cons hcommit).mpr ⟨nofun,
        (Machine.along_cons step_short).mpr ⟨fun _ => ⟨listed "c" 3, rfl, rfl, rfl⟩, trivial⟩⟩⟩⟩

end Reader

end Vynor.Conversations
