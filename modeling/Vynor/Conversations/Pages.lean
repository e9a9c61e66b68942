import Mathlib.Data.Prod.Lex
import Mathlib.Data.String.Basic
import Vynor.Contracts.Pagination
import Vynor.Conversations.Agents
import Vynor.Lib.IsoDate
import Vynor.Lib.Keyset

/-!
# Pages of messages

`listMessages` returns the newest messages of a conversation, or the newest ones
before a cursor.  It reads one message more than fits, and takes the cursor of
the next page from the oldest message that fits.  A cursor goes through ISO text,
JSON and base64.  Following the cursors of a conversation that does not change
leads through pages that cover it (`listMessages_covers`).
-/

namespace Vynor.Conversations

open Lib (Json)
open Lib.IsoDate (isTimeValue toISOString parse_toISOString)
open Lib.Keyset (Covers Page follow pageBelow select pageOf)

/-! ## The query -/

/-- The order of ids in the database.  Ids are compared by their sort keys, and
no two ids have the same one. -/
structure Collation (ω : Type) where
  sortKey : Id → ω
  injective : Function.Injective sortKey

/-- `ListMessagesQuery`. -/
structure ListMessagesQuery where
  before : Option String := none
  limit : Nat := 100
  limit_pos : 1 ≤ limit := by decide
  limit_le : limit ≤ 200 := by decide

/-- What `new Date` makes of a value that is no text of `toISOString`. -/
structure Dates where
  other : Json → Option Date

/-- `new Date(value)`, or `none` for an invalid date. -/
def Dates.newDate (dates : Dates) (value : Json) : Option Date :=
  match value with
  | .string text => (Lib.IsoDate.parse text).or (dates.other value)
  | _ => dates.other value

/-- The moment and the id of a cursor.  Without an id there is no condition on
it. -/
structure Before where
  createdAt : Date
  id : Option Id

/-- The conditions of a cursor.  The database client throws where the moment is
invalid or the id is no text. -/
def readBefore (dates : Dates) (cursor : Json) : Option Before :=
  ((cursor.property? "createdAt").bind dates.newDate).bind fun createdAt =>
    match cursor.property? "id" with
    | none => some ⟨createdAt, none⟩
    | some (.string id) => some ⟨createdAt, some id⟩
    | some _ => none

section Order

variable {ω : Type} [LinearOrder ω] (collation : Collation ω)

/-- `OR: [{ createdAt: { lt } }, { createdAt, id: { lt } }]`. -/
def Before.selects (before : Before) (m : Message) : Bool :=
  m.createdAt < before.createdAt ||
    (m.createdAt = before.createdAt &&
      before.id.all fun id => collation.sortKey m.id < collation.sortKey id)

/-- `orderBy: [{ createdAt: 'desc' }, { id: 'desc' }]`. -/
def orderBy (a b : Message) : Bool :=
  b.createdAt < a.createdAt ||
    (b.createdAt = a.createdAt && collation.sortKey b.id ≤ collation.sortKey a.id)

/-- The rows that `listMessages` reads. -/
def findMessages (db : Db) (conversationId : Id) (before : Option Before) (take : Nat) :
    List Message :=
  ((db.messages.rows.filter fun m =>
      m.conversationId = conversationId && before.all fun b => b.selects collation m).mergeSort
    (orderBy collation)).take take

/-! ## The page -/

/-- Why a request for messages fails. -/
inductive ListFailure where
  | notFound (message code : String)
  | invalidCursor
deriving DecidableEq, Repr

/-- What `listMessages` returns. -/
structure MessagePage (δ : Type) where
  data : List δ
  nextCursor : Option String
deriving DecidableEq, Repr

/-- The payload of the cursor of a message. -/
def cursorPayload (createdAt : Date) (id : Id) : Json :=
  .object [("createdAt", .string (toISOString createdAt)), ("id", .string id)]

variable {δ : Type} (present : Message → δ)

/-- The page of the rows that were read. -/
def messagePage (limit : Nat) (rows : List Message) : MessagePage δ :=
  let page := rows.take limit
  let oldest := if limit < rows.length then page.getLast? else none
  { data := page.reverse.map present
    nextCursor := oldest.map fun m => encodeCursor (cursorPayload m.createdAt m.id) }

/-- `listMessages`.  `present` is `presentMessage`, which the page does not depend
on. -/
def listMessages (dates : Dates) (db : Db) (actor : Actor) (conversationId : Id)
    (query : ListMessagesQuery) : Except ListFailure (MessagePage δ) :=
  match findConversation db actor conversationId with
  | none => .error (.notFound "This conversation does not exist." "CONVERSATION_NOT_FOUND")
  | some _ =>
      match ((truthy query.before).map decodeCursor).filter Json.truthy with
      | none =>
          .ok (messagePage present query.limit
            (findMessages collation db conversationId none (query.limit + 1)))
      | some cursor =>
          match readBefore dates cursor with
          | none => .error .invalidCursor
          | some before =>
              .ok (messagePage present query.limit
                (findMessages collation db conversationId (some before) (query.limit + 1)))

/-- The messages of a conversation. -/
def messagesOf (db : Db) (conversationId : Id) : List Message :=
  db.messages.rows.filter fun m => m.conversationId = conversationId

/-- The order of messages: by time, and by id where the times are equal. -/
def Precedes (a b : Message) : Prop :=
  a.createdAt < b.createdAt ∨
    a.createdAt = b.createdAt ∧ collation.sortKey a.id < collation.sortKey b.id

/-- A request for the page before a cursor. -/
def requestPage (dates : Dates) (db : Db) (actor : Actor) (conversationId : Id)
    (query : ListMessagesQuery) (before : Option String) : Option (Page δ String) :=
  match listMessages collation present dates db actor conversationId
      { query with before := before } with
  | .ok page => some ⟨page.data, page.nextCursor⟩
  | .error _ => none

/-! ## Cursors -/

variable {collation present}

/-- A cursor is read back as the moment and the id it was made from. -/
theorem readBefore_cursorPayload (dates : Dates) {createdAt : Date}
    (h : isTimeValue createdAt = true) (id : Id) :
    readBefore dates (cursorPayload createdAt id) = some ⟨createdAt, some id⟩ := by
  have hmoment : (cursorPayload createdAt id).property? "createdAt" =
      some (.string (toISOString createdAt)) := rfl
  have hid : (cursorPayload createdAt id).property? "id" = some (.string id) := rfl
  rw [readBefore, hmoment, Option.bind_some, Dates.newDate, parse_toISOString h, Option.some_or,
    Option.bind_some, hid]

theorem isSound_cursorPayload (createdAt : Date) (id : Id) :
    Json.isSound (cursorPayload createdAt id) = true := by
  have hnames : decide ("id" ≠ "createdAt") = true := by decide
  simp only [cursorPayload, Json.isSound, Json.areSoundMembers, List.all_cons, List.all_nil, hnames,
    Bool.and_true]

/-- The text of a cursor stands for its payload. -/
theorem read_encodeCursor (createdAt : Date) (id : Id) :
    ((truthy (some (encodeCursor (cursorPayload createdAt id)))).map decodeCursor).filter
        Json.truthy = some (cursorPayload createdAt id) := by
  have hsound := isSound_cursorPayload createdAt id
  have hpresent : truthy (some (encodeCursor (cursorPayload createdAt id))) =
      some (encodeCursor (cursorPayload createdAt id)) :=
    truthy_eq_some.mpr ⟨rfl, encodeCursor_ne_empty hsound (by simp only [cursorPayload, ne_eq,
      reduceCtorEq, not_false_eq_true])⟩
  rw [hpresent, Option.map_some, decodeCursor_encodeCursor hsound]
  rfl

/-! ## The order of the rows -/

variable (collation)

/-- The place of a moment and an id in the order. -/
def place (c : Date × Id) : Date ×ₗ ω := toLex (c.1, collation.sortKey c.2)

/-- The moment and the id of a message. -/
def cursorOf (m : Message) : Date × Id := (m.createdAt, m.id)

/-- The place of a message in the order. -/
def key (m : Message) : Date ×ₗ ω := place collation (cursorOf m)

variable {collation}

theorem key_lt_key {a b : Message} : key collation a < key collation b ↔ Precedes collation a b :=
  Prod.Lex.toLex_lt_toLex

theorem selects_eq (createdAt : Date) (id : Id) (m : Message) :
    Before.selects collation ⟨createdAt, some id⟩ m =
      decide (key collation m < place collation (createdAt, id)) := by
  rw [Bool.eq_iff_iff, decide_eq_true_eq, key, place, place, Prod.Lex.toLex_lt_toLex]
  simp only [Before.selects, cursorOf, Option.all_some, Bool.or_eq_true, Bool.and_eq_true,
    decide_eq_true_eq]

theorem orderBy_eq (a b : Message) :
    orderBy collation a b = decide (key collation b ≤ key collation a) := by
  rw [Bool.eq_iff_iff, decide_eq_true_eq, key, key, place, place, Prod.Lex.toLex_le_toLex]
  simp only [orderBy, cursorOf, Bool.or_eq_true, Bool.and_eq_true, decide_eq_true_eq]

/-- The query selects the first messages of the conversation below a cursor. -/
theorem findMessages_eq (db : Db) (conversationId : Id) (cursor : Option (Date × Id))
    (take : Nat) :
    findMessages collation db conversationId (cursor.map fun c => ⟨c.1, some c.2⟩) take =
      select (key collation) (place collation) (messagesOf db conversationId) take cursor := by
  have horder : orderBy collation = fun a b => decide (key collation b ≤ key collation a) := by
    funext a b
    exact orderBy_eq a b
  have hfilter : (db.messages.rows.filter fun m => m.conversationId = conversationId &&
      (cursor.map fun c : Date × Id => (⟨c.1, some c.2⟩ : Before)).all
        fun b => b.selects collation m) =
      (messagesOf db conversationId).filter fun m =>
        cursor.all fun c => key collation m < place collation c := by
    rw [messagesOf, List.filter_filter]
    refine List.filter_congr fun m _ => ?_
    rw [Bool.and_comm]
    cases cursor with
    | none => rfl
    | some c => rw [Option.map_some, Option.all_some, Option.all_some, selects_eq]
  rw [findMessages, select, Lib.Keyset.newestFirst, horder, hfilter]

omit [LinearOrder ω] in
/-- Messages of one table have distinct places. -/
theorem pairwise_key_ne (db : Db) (conversationId : Id) :
    (messagesOf db conversationId).Pairwise fun a b => key collation a ≠ key collation b := by
  refine (db.messages.unique.imp fun {a b} hdisjoint heq => ?_).filter _
  have hid : collation.sortKey a.id = collation.sortKey b.id :=
    congrArg Prod.snd (toLex.injective heq)
  exact hdisjoint (Message.id_mem_keys.mpr rfl)
    (Message.id_mem_keys.mpr (collation.injective hid).symm)

/-! ## Following the cursors -/

/-- The text of a cursor. -/
def cursorText (c : Date × Id) : String := encodeCursor (cursorPayload c.1 c.2)

section Requests

variable {dates : Dates} {db : Db} {actor : Actor} {conversationId : Id} {c : Conversation}
  {query : ListMessagesQuery}

/-- A request reads the page below its cursor. -/
theorem requestPage_eq (hc : findConversation db actor conversationId = some c)
    {cursor : Option (Date × Id)} (hcursor : ∀ c ∈ cursor, isTimeValue c.1 = true) :
    requestPage collation present dates db actor conversationId query (cursor.map cursorText) =
      some ((pageBelow (key collation) (place collation) cursorOf (messagesOf db conversationId)
        query.limit cursor).map present cursorText) := by
  have hpage : ∀ rows : List Message,
      (⟨(messagePage present query.limit rows).data,
        (messagePage present query.limit rows).nextCursor⟩ : Page δ String) =
      (pageOf cursorOf query.limit rows).map present cursorText := by
    intro rows
    unfold pageOf messagePage Page.map
    by_cases hmore : query.limit < rows.length
    · simp only [if_pos hmore, Option.map_map]
      rfl
    · simp only [if_neg hmore]
      rfl
  unfold requestPage listMessages
  rw [hc, pageBelow, ← findMessages_eq]
  cases cursor with
  | none => exact congrArg some (hpage _)
  | some c =>
      simp only [Option.map_some, cursorText, read_encodeCursor,
        readBefore_cursorPayload dates (hcursor c rfl)]
      exact congrArg some (hpage _)

/-- The cursor of a page is that of one of its messages. -/
theorem next_pageBelow {cursor : Option (Date × Id)} {next : Date × Id}
    (h : (pageBelow (key collation) (place collation) cursorOf (messagesOf db conversationId)
      query.limit cursor).next = some next) :
    ∃ m ∈ messagesOf db conversationId, cursorOf m = next := by
  unfold pageBelow pageOf at h
  simp only at h
  split at h
  · obtain ⟨m, hm, hnext⟩ := Option.map_eq_some_iff.mp h
    have hselected := List.mem_of_mem_take (List.mem_of_getLast? hm)
    have hrows := (Lib.Keyset.newestFirst_perm _).subset (List.mem_of_mem_take hselected)
    exact ⟨m, (List.mem_filter.mp hrows).1, hnext⟩
  · cases h

/-- The cursors of a conversation that does not change lead through pages that
cover it. -/
theorem listMessages_covers (hc : findConversation db actor conversationId = some c)
    (hdates : ∀ m ∈ messagesOf db conversationId, isTimeValue m.createdAt = true) :
    ∃ fuel pages rows,
      follow (requestPage collation present dates db actor conversationId query) fuel none =
          some pages ∧
        pages.map Page.rows = rows.map (List.map present) ∧
        Covers (Precedes collation) (messagesOf db conversationId) rows := by
  obtain ⟨pages, hfollow, hcovers⟩ := Lib.Keyset.exists_follow
    (pairwise_key_ne db conversationId)
    (fun m => (rfl : place collation (cursorOf m) = key collation m)) query.limit_pos
  have hnext : ∀ (cursor : Option (Date × Id)) (page : Page Message (Date × Id)) next,
      (∀ c ∈ cursor, isTimeValue c.1 = true) →
      some (pageBelow (key collation) (place collation) cursorOf (messagesOf db conversationId)
        query.limit cursor) = some page → page.next = some next →
      ∀ c ∈ some next, isTimeValue c.1 = true := by
    intro cursor page next _ hpage hnext c hc
    cases hpage
    cases hc
    obtain ⟨m, hm, rfl⟩ := next_pageBelow hnext
    exact hdates m hm
  have hfetch : ∀ cursor : Option (Date × Id), (∀ c ∈ cursor, isTimeValue c.1 = true) →
      requestPage collation present dates db actor conversationId query (cursor.map cursorText) =
        (some (pageBelow (key collation) (place collation) cursorOf (messagesOf db conversationId)
          query.limit cursor)).map (Page.map present cursorText) :=
    fun cursor hcursor => requestPage_eq hc hcursor
  have hnone : ∀ c ∈ (none : Option (Date × Id)), isTimeValue c.1 = true :=
    fun c hc => absurd hc (Option.not_mem_none c)
  have hsame := Lib.Keyset.follow_map hnext hfetch hnone
    ((messagesOf db conversationId).length + 1)
  refine ⟨_, pages.map (Page.map present cursorText), pages.map Page.rows,
    hsame.trans (congrArg (Option.map _) hfollow), ?_, ?_⟩
  · rw [List.map_map, List.map_map]
    rfl
  · have hlt : (fun a b => key collation a < key collation b) = Precedes collation := by
      funext a b
      exact propext key_lt_key
    rwa [hlt] at hcovers

end Requests

end Order

/-- A message of a conversation. -/
def sentMessage (id : Id) (createdAt : Date) : Message where
  id := id
  workspaceId := "workspace"
  conversationId := "conversation"
  providerAccountId := "channel"
  direction := .inbound
  senderType := .contact
  content := .text "Hello"
  text := "Hello"
  createdAt := createdAt
  updatedAt := createdAt

theorem disjoint_sentMessage {a b : Id} (h : a ≠ b) (t u : Date) :
    (sentMessage a t).keys.Disjoint (sentMessage b u).keys :=
  List.disjoint_singleton.mpr fun hmem => h (MessageKey.id.inj (List.mem_singleton.mp hmem)).symm

/-- A conversation with three messages, two of them of one moment. -/
def threeMessages : Db where
  contacts := .empty
  identities := .empty
  conversations := .singleton
    { id := "conversation", workspaceId := "workspace", providerAccountId := "channel",
      contactId := "contact", contactIdentityId := "identity", createdAt := 0 }
  messages :=
    { rows := [sentMessage "b" 5, sentMessage "a" 5, sentMessage "c" 0]
      unique := by
        refine List.pairwise_cons.mpr ⟨fun m hm => ?_, List.pairwise_pair.mpr ?_⟩
        · rcases List.mem_pair.mp hm with rfl | rfl
          · exact disjoint_sentMessage (by decide) 5 5
          · exact disjoint_sentMessage (by decide) 5 0
        · exact disjoint_sentMessage (by decide) 5 0 }

/-- The ids of the database, compared as texts. -/
def textOrder : Collation String := ⟨id, fun _ _ h => h⟩

/-- An agent of the workspace. -/
def exampleAgent : Actor where
  workspaceId := "workspace"
  membershipId := "membership"
  displayName := "Ada"
  canAssign := false
  canClose := false

/-- Three messages in pages of two. -/
theorem listMessages_covers_threeMessages :
    ∃ fuel pages rows,
      follow (requestPage textOrder Message.id ⟨fun _ => none⟩ threeMessages exampleAgent
          "conversation" { limit := 2 }) fuel none = some pages ∧
        pages.map Page.rows = rows.map (List.map Message.id) ∧
        Covers (Precedes textOrder) (messagesOf threeMessages "conversation") rows := by
  refine listMessages_covers rfl fun m hm => ?_
  have hall : (messagesOf threeMessages "conversation").all
      (fun m => isTimeValue m.createdAt) = true := by
    decide
  exact List.all_eq_true.mp hall m hm

end Vynor.Conversations
