import Vynor.Journal.Events

/-!
# Polling adapters

What `pollInbound` of an adapter takes and returns.
-/

namespace Vynor.Polling

open Journal (JournalEventInput)

/-- `sync_state` of a channel, with the members the adapters read: `uidValidity`
and `lastUid` of a mailbox, `offset` of a bot. -/
structure Cursor where
  uidValidity : Option String := none
  lastUid : Option Int := none
  offset : Option Int := none
deriving DecidableEq, Repr

/-- `PollResult`. -/
structure PollResult where
  events : List JournalEventInput
  cursor : Cursor
deriving DecidableEq, Repr

end Vynor.Polling
