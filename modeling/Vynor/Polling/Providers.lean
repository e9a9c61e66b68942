import Vynor.Email.Polling
import Vynor.Polling.System
import Vynor.Telegram.Polling

/-!
# Mailboxes and bots

The two providers that are polled: a mailbox whose UIDVALIDITY does not change,
and a Telegram bot.
-/

namespace Vynor.Polling

open Email (Mail Mailbox startUid endUid startUid_le_endUid)
open Telegram (Bot le_endOffset)

/-! ## A mailbox -/

/-- What happens in a mailbox. -/
inductive MailEvent where
  | arrive (m : Mail)
  | expunge (uid : Int)
deriving DecidableEq, Repr

/-- An email arrives.  Its UID is not below the next one. -/
def arrive (box : Mailbox) (m : Mail) : Option Mailbox :=
  if h : box.uidNext ≤ m.uid then
    some
      { uidNext := m.uid + 1
        mails := box.mails ++ [m]
        sorted := by
          rw [List.pairwise_append]
          refine ⟨box.sorted, List.pairwise_singleton _ _, ?_⟩
          intro a ha b hb
          rw [List.mem_singleton.mp hb]
          exact Int.lt_of_lt_of_le (box.below a ha) h
        below := by
          intro a ha
          rcases List.mem_append.mp ha with hold | hnew
          · exact Int.lt_trans (Int.lt_of_lt_of_le (box.below a hold) h) (Int.lt_succ _)
          · rw [List.mem_singleton.mp hnew]
            exact Int.lt_succ _ }
  else none

/-- An email is expunged. -/
def expunge (box : Mailbox) (uid : Int) : Mailbox where
  uidNext := box.uidNext
  mails := box.mails.filter fun m => m.uid ≠ uid
  sorted := box.sorted.filter _
  below := fun m hm => box.below m (List.mem_of_mem_filter hm)

def mailHappens (box : Mailbox) : MailEvent → Option Mailbox
  | .arrive m => arrive box m
  | .expunge uid => some (expunge box uid)

/-- `lastUid` of a cursor of this mailbox. -/
def lastUid (uidValidity : String) (cursor : Option Cursor) : Option Int :=
  cursor.bind fun c => if c.uidValidity = some uidValidity then c.lastUid else none

/-- A poll starts at the `lastUid` it is given. -/
theorem startUid_of_lastUid {uidValidity : String} {box : Mailbox} {cursor : Option Cursor} {n : Int}
    (h : lastUid uidValidity cursor = some n) : startUid uidValidity box cursor = n := by
  obtain ⟨c, rfl, hc⟩ := Option.bind_eq_some_iff.mp h
  split at hc
  next hsame =>
    rw [startUid, Option.bind_some, if_pos hsame, Option.bind_some, hc, Option.getD_some]
  · cases hc

/-- A mailbox with this UIDVALIDITY. -/
def emailProvider (js : Email.Runtime) (uidValidity : String) : Provider Mailbox MailEvent where
  provider := "EMAIL_SMTP_IMAP"
  channelType := .email
  pollInbound := fun box cursor => (box, Email.pollInbound js uidValidity box cursor)
  happens := mailHappens
  position := lastUid uidValidity
  advances := by
    intro box cursor n hn
    have hstart : startUid uidValidity box cursor = n := startUid_of_lastUid hn
    refine ⟨endUid uidValidity box cursor, ?_, ?_⟩
    · simp [lastUid, Email.pollInbound_cursor]
    · rw [← hstart]
      exact startUid_le_endUid uidValidity box cursor

/-! ## A bot -/

/-- An update arrives.  Its id is larger than any before. -/
def arriveUpdate (b : Bot) (u : Nat × Payload) : Option Bot :=
  if h : ∀ v ∈ b.updates, v.1 < u.1 then
    some
      { updates := b.updates ++ [u]
        forgotten := b.forgotten
        sorted := by
          rw [List.pairwise_append]
          refine ⟨b.sorted, List.pairwise_singleton _ _, ?_⟩
          intro v hv x hx
          rw [List.mem_singleton.mp hx]
          exact h v hv }
  else none

/-- `offset` of a cursor. -/
def offset (cursor : Option Cursor) : Option Int := cursor.bind Cursor.offset

/-- A Telegram bot. -/
def telegramProvider : Provider Bot (Nat × Payload) where
  provider := "TELEGRAM_BOT"
  channelType := .telegram
  pollInbound := Telegram.pollInbound
  happens := arriveUpdate
  position := offset
  advances := fun _ _ _ hn => le_endOffset hn

end Vynor.Polling
