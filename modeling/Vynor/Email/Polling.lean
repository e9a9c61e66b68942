import Mathlib.Data.List.Sort
import Vynor.Email.Mail
import Vynor.Lib.Cursor
import Vynor.Polling.Adapter

/-!
# Polling a mailbox

`EmailAdapter.pollInbound` on the mailbox as it stands during the call.  Search
and fetch answer from the same mails: nothing arrives or is expunged while the
mailbox is locked.

`startUid` and `endUid` are where a poll starts and ends.  It does not go back
(`startUid_le_endUid`), and an email it moves past has an event
(`exists_event`).
-/

namespace Vynor.Email

open Journal (JournalEventInput)
open Polling (Cursor PollResult)

/-- Emails one poll fetches at most. -/
def POLL_BATCH_SIZE : Nat := 10

/-- A larger email is journaled from its envelope only. -/
def MAX_PARSE_BYTES : Nat := 15 * 1024 * 1024

/-- An email in a mailbox.  `parsed` is what `simpleParser` makes of its
source. -/
structure Mail where
  uid : Int
  size : Option Nat
  envelope : Option Envelope
  parsed : ParsedMail
deriving DecidableEq, Repr

/-- The selected mailbox.  UIDs are assigned in increasing order. -/
structure Mailbox where
  uidNext : Int
  mails : List Mail
  /-- Later emails have larger UIDs. -/
  sorted : mails.Pairwise fun a b => a.uid < b.uid
  /-- Every UID is below the next one. -/
  below : ∀ m ∈ mails, m.uid < uidNext

/-- Two emails of a mailbox with one UID are the same. -/
theorem Mailbox.eq_of_uid {box : Mailbox} {a b : Mail} (ha : a ∈ box.mails) (hb : b ∈ box.mails)
    (huid : a.uid = b.uid) : a = b := by
  by_contra hne
  have hsymm : Std.Symm fun a b : Mail => a.uid ≠ b.uid := ⟨fun _ _ h => h.symm⟩
  have hpair : box.mails.Pairwise fun a b => a.uid ≠ b.uid := box.sorted.imp fun h => h.ne
  exact hpair.forall ha hb hne huid

/-! ## The IMAP commands -/

/-- `search` for the UIDs `first:*`.  The range always holds the last email. -/
def Mailbox.search (box : Mailbox) (first : Int) : List Int :=
  (box.mails.filter fun m => first ≤ m.uid || box.mails.getLast? = some m).map Mail.uid

/-- `fetchAll` of the sizes of these UIDs. -/
def Mailbox.fetchAll (box : Mailbox) (uids : List Int) : List (Int × Option Nat) :=
  (box.mails.filter fun m => m.uid ∈ uids).map fun m => (m.uid, m.size)

/-- `fetchOne` of a UID. -/
def Mailbox.fetchOne (box : Mailbox) (uid : Int) : Option Mail :=
  box.mails.find? fun m => m.uid = uid

theorem Mailbox.fetchOne_of_mem {box : Mailbox} {m : Mail} (h : m ∈ box.mails) :
    box.fetchOne m.uid = some m := by
  cases hf : box.fetchOne m.uid with
  | none =>
      have hnone := List.find?_eq_none.mp hf m h
      simp at hnone
  | some m' =>
      have huid : m'.uid = m.uid := by simpa using List.find?_some hf
      rw [box.eq_of_uid (List.mem_of_find?_eq_some hf) h huid]

/-! ## One poll -/

/-- What was fetched of an email. -/
structure Fetched where
  uid : Int
  source : Option ParsedMail := none
  oversized : Bool
  envelope : Option Envelope := none
deriving DecidableEq, Repr

/-- Where a poll starts.  Another UIDVALIDITY means that the mailbox was
rebuilt: it restarts from its current end. -/
def startUid (uidValidity : String) (box : Mailbox) (cursor : Option Cursor) : Int :=
  if cursor.bind Cursor.uidValidity = some uidValidity then
    (cursor.bind Cursor.lastUid).getD (box.uidNext - 1)
  else box.uidNext - 1

/-- The UIDs one poll fetches. -/
def batch (box : Mailbox) (lastUid : Int) : List Int :=
  (((box.search (lastUid + 1)).filter fun uid => lastUid < uid).insertionSort (· ≤ ·)).take
    POLL_BATCH_SIZE

/-- One round of the loop over the sizes. -/
def fetchSummary (box : Mailbox) (summary : Int × Option Nat) : Fetched :=
  if MAX_PARSE_BYTES < summary.2.getD 0 then
    { uid := summary.1
      oversized := true
      envelope := (box.fetchOne summary.1).bind Mail.envelope }
  else
    { uid := summary.1
      source := (box.fetchOne summary.1).map Mail.parsed
      oversized := false }

/-- The messages one poll fetches. -/
def fetchMessages (box : Mailbox) (lastUid : Int) : List Fetched :=
  if box.uidNext - 1 ≤ lastUid then []
  else if batch box lastUid = [] then []
  else ((box.fetchAll (batch box lastUid)).insertionSort fun a b => a.1 ≤ b.1).map
    (fetchSummary box)

/-- The event of a fetched message. -/
def Fetched.event (js : Runtime) (uidValidity : String) (message : Fetched) : JournalEventInput :=
  let oversized : JournalEventInput :=
    { providerEventKey :=
        eventKeyFor js (message.envelope.bind Envelope.messageId) uidValidity message.uid
      isFingerprinted := false
      payload := (oversizedPayload js message.envelope message.uid uidValidity).json }
  if message.oversized then oversized
  else
    match message.source with
    | none => oversized
    | some parsed =>
        { providerEventKey := eventKeyFor js parsed.messageId uidValidity message.uid
          isFingerprinted := false
          payload := (emailToJournalPayload js parsed message.uid uidValidity).json }

/-- `EmailAdapter.pollInbound`. -/
def pollInbound (js : Runtime) (uidValidity : String) (box : Mailbox) (cursor : Option Cursor) :
    PollResult :=
  let start := startUid uidValidity box cursor
  let messages := fetchMessages box start
  { events := messages.map (Fetched.event js uidValidity)
    cursor :=
      { uidValidity := some uidValidity
        lastUid := some (messages.foldl (fun lastUid message => max lastUid message.uid) start) } }

/-! ## What a poll covers -/

/-- The key of an email's event. -/
def Mail.key (js : Runtime) (uidValidity : String) (m : Mail) : String :=
  if MAX_PARSE_BYTES < m.size.getD 0 then
    eventKeyFor js (m.envelope.bind Envelope.messageId) uidValidity m.uid
  else eventKeyFor js m.parsed.messageId uidValidity m.uid

theorem mem_search_of_le {box : Mailbox} {m : Mail} {first : Int} (hm : m ∈ box.mails)
    (hle : first ≤ m.uid) : m.uid ∈ box.search first :=
  List.mem_map_of_mem (List.mem_filter.mpr ⟨hm, by simp [hle]⟩)

/-- A batch leaves out no email before one it holds. -/
theorem mem_batch {box : Mailbox} {lastUid uid : Int} {m : Mail} (hm : m ∈ box.mails)
    (hlo : lastUid < m.uid) (huid : uid ∈ batch box lastUid) (hhi : m.uid ≤ uid) :
    m.uid ∈ batch box lastUid := by
  have hfound : m.uid ∈ ((box.search (lastUid + 1)).filter fun uid => lastUid < uid) :=
    List.mem_filter.mpr ⟨mem_search_of_le hm (by omega), by simpa using hlo⟩
  have hin := (List.mem_insertionSort (· ≤ · : Int → Int → Prop)).mpr hfound
  rcases Lib.mem_take_of_le (f := id) (List.pairwise_insertionSort _ _) hin huid hhi with h | heq
  · exact h
  · rw [show m.uid = uid from heq]
    exact huid

/-- The messages of a poll are those of its batch, each fetched as it is in the
mailbox. -/
theorem mem_fetchMessages {box : Mailbox} {lastUid : Int} {message : Fetched} :
    message ∈ fetchMessages box lastUid ↔
      lastUid < box.uidNext - 1 ∧
        ∃ m ∈ box.mails, m.uid ∈ batch box lastUid ∧ fetchSummary box (m.uid, m.size) = message := by
  rw [fetchMessages]
  split
  next hend =>
    simp only [List.not_mem_nil, false_iff]
    rintro ⟨hlt, _⟩
    omega
  next hmore =>
    split
    next hempty =>
      simp [hempty]
    · simp only [List.mem_map, List.mem_insertionSort, Mailbox.fetchAll, List.mem_filter]
      constructor
      · rintro ⟨summary, ⟨m, ⟨hm, hbatch⟩, rfl⟩, hmessage⟩
        exact ⟨by omega, m, hm, of_decide_eq_true hbatch, hmessage⟩
      · rintro ⟨_, m, hm, hbatch, hmessage⟩
        exact ⟨(m.uid, m.size), ⟨m, ⟨hm, decide_eq_true hbatch⟩, rfl⟩, hmessage⟩

@[simp] theorem fetchSummary_uid (box : Mailbox) (summary : Int × Option Nat) :
    (fetchSummary box summary).uid = summary.1 := by
  rw [fetchSummary]
  split <;> rfl

/-- The event of an email has its key. -/
theorem key_of_fetched {js : Runtime} {uidValidity : String} {box : Mailbox} {m : Mail}
    (hm : m ∈ box.mails) :
    ((fetchSummary box (m.uid, m.size)).event js uidValidity).providerEventKey =
      m.key js uidValidity := by
  rw [fetchSummary, Mail.key, box.fetchOne_of_mem hm]
  split <;> rfl

section Spec

variable (js : Runtime) (uidValidity : String) (box : Mailbox) (cursor : Option Cursor)

/-- Where a poll ends. -/
def endUid : Int :=
  (fetchMessages box (startUid uidValidity box cursor)).foldl
    (fun lastUid message => max lastUid message.uid) (startUid uidValidity box cursor)

theorem pollInbound_cursor :
    (pollInbound js uidValidity box cursor).cursor =
      { uidValidity := some uidValidity, lastUid := some (endUid uidValidity box cursor) } := rfl

/-- A poll does not go back. -/
theorem startUid_le_endUid : startUid uidValidity box cursor ≤ endUid uidValidity box cursor :=
  (Lib.isGreatest_foldl_max Fetched.uid _ _).2 (Set.mem_insert _ _)

/-- An email that a poll moves past has an event. -/
theorem exists_event {m : Mail} (hm : m ∈ box.mails) (hlo : startUid uidValidity box cursor < m.uid)
    (hhi : m.uid ≤ endUid uidValidity box cursor) :
    ∃ e ∈ (pollInbound js uidValidity box cursor).events,
      e.providerEventKey = m.key js uidValidity := by
  have hmem := (Lib.isGreatest_foldl_max Fetched.uid
    (fetchMessages box (startUid uidValidity box cursor)) (startUid uidValidity box cursor)).1
  rcases hmem with heq | ⟨last, hlast, hend⟩
  · -- nothing was fetched, so the poll moved past nothing
    have hend : endUid uidValidity box cursor = startUid uidValidity box cursor := heq
    omega
  · obtain ⟨hmore, m', hm', hbatch, rfl⟩ := mem_fetchMessages.mp hlast
    rw [fetchSummary_uid] at hend
    have hle : m.uid ≤ m'.uid := by
      rw [show m'.uid = endUid uidValidity box cursor from hend]
      exact hhi
    have hin := mem_fetchMessages.mpr ⟨hmore, m, hm, mem_batch hm hlo hbatch hle, rfl⟩
    exact ⟨_, List.mem_map_of_mem hin, key_of_fetched hm⟩

end Spec

end Vynor.Email
