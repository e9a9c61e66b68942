import Vynor.Contracts.Content
import Vynor.Lib.Json

/-!
# Inbox settings

`InboxSettingsSchema` and `readInboxSettings`.
-/

namespace Vynor

open Lib (Json Number)

/-- `CHAT_DISTRIBUTION_METHODS`. -/
inductive ChatDistributionMethod where
  | leastAssigned
  | roundRobin
  | manual
deriving DecidableEq, Repr

/-- `InboxSettings`, as the schema accepts them. -/
structure InboxSettings where
  aiAgentId : Option String
  distributionMethod : ChatDistributionMethod
  maxConversationsEnabled : Bool
  maxConversationsPerAgent : Nat
  preferredAgent : Bool
  csatEnabled : Bool
  reassignWhenOffline : Bool
  aiAgentId_length : ∀ id, aiAgentId = some id →
    1 ≤ (codeUnits id).length ∧ (codeUnits id).length ≤ 64
  maxConversations_range : 1 ≤ maxConversationsPerAgent ∧ maxConversationsPerAgent ≤ 100
deriving DecidableEq

def DEFAULT_INBOX_SETTINGS : InboxSettings where
  aiAgentId := none
  distributionMethod := .leastAssigned
  maxConversationsEnabled := false
  maxConversationsPerAgent := 10
  preferredAgent := false
  csatEnabled := false
  reassignWhenOffline := false
  aiAgentId_length := fun _ h => by cases h
  maxConversations_range := by decide

/-- `z.string().min(1).max(64).nullable()`. -/
def parseAgentId : Json → Option (Option String)
  | .null => some none
  | .string id =>
      if 1 ≤ (codeUnits id).length ∧ (codeUnits id).length ≤ 64 then some (some id) else none
  | _ => none

theorem parseAgentId_length {value : Json} {parsed : Option String}
    (h : parseAgentId value = some parsed) : ∀ id, parsed = some id →
      1 ≤ (codeUnits id).length ∧ (codeUnits id).length ≤ 64 := by
  rintro id rfl
  cases value with
  | string s =>
      rw [parseAgentId] at h
      split at h
      · next hlength =>
          cases h
          exact hlength
      · cases h
  | _ => cases h

/-- `ChatDistributionMethodSchema`. -/
def parseDistributionMethod : Json → Option ChatDistributionMethod
  | .string "LEAST_ASSIGNED" => some .leastAssigned
  | .string "ROUND_ROBIN" => some .roundRobin
  | .string "MANUAL" => some .manual
  | _ => none

/-- `z.boolean()`. -/
def parseBoolean : Json → Option Bool
  | .bool b => some b
  | _ => none

/-- `z.number().int().min(1).max(100)`. -/
def parseMaxConversations : Json → Option Nat
  | .number (.finite q) =>
      if q.den = 1 ∧ 1 ≤ q.num ∧ q.num ≤ 100 then some q.num.toNat else none
  | _ => none

theorem parseMaxConversations_range {value : Json} {n : Nat}
    (h : parseMaxConversations value = some n) : 1 ≤ n ∧ n ≤ 100 := by
  unfold parseMaxConversations at h
  split at h
  · split at h
    · cases h
      omega
    · cases h
  · cases h

/-- `readInboxSettings`.  The stored value takes the place of a default where it
has the member, and a value the schema refuses gives the defaults as a whole. -/
def readInboxSettings (value : Json) : InboxSettings :=
  let member (name : String) (default : Json) : Json :=
    match value with
    | .object members => (Json.Members.get? members name).getD default
    | _ => default
  match haiAgentId : parseAgentId (member "aiAgentId" .null),
    parseDistributionMethod (member "distributionMethod" (.string "LEAST_ASSIGNED")),
    parseBoolean (member "maxConversationsEnabled" (.bool false)),
    hmax : parseMaxConversations (member "maxConversationsPerAgent" (.number (.finite 10))),
    parseBoolean (member "preferredAgent" (.bool false)),
    parseBoolean (member "csatEnabled" (.bool false)),
    parseBoolean (member "reassignWhenOffline" (.bool false)) with
  | some aiAgentId, some distributionMethod, some maxConversationsEnabled,
    some maxConversationsPerAgent, some preferredAgent, some csatEnabled,
    some reassignWhenOffline =>
      { aiAgentId, distributionMethod, maxConversationsEnabled, maxConversationsPerAgent,
        preferredAgent, csatEnabled, reassignWhenOffline
        aiAgentId_length := parseAgentId_length haiAgentId
        maxConversations_range := parseMaxConversations_range hmax }
  | _, _, _, _, _, _, _ => DEFAULT_INBOX_SETTINGS

example : readInboxSettings (.object []) = DEFAULT_INBOX_SETTINGS := by decide

end Vynor
