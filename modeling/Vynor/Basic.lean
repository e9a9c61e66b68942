import Mathlib.Data.List.Basic

/-!
# Values shared by the services

Identifiers, moments and the JSON payloads of events and jobs.
-/

namespace Vynor

/-- A primary or foreign key.  The source generates UUIDv7, CUID and UUID
strings and only ever compares them. -/
abbrev Id := String

/-- A moment in milliseconds, as `Date.getTime` gives it. -/
abbrev Date := Int

/-- A JSON object with string members.  The producers of outbox events write
`{ messageId }` or `{ providerEventId }`. -/
abbrev Payload := List (String × String)

/-- A member of a payload (`payload?.member`, `payload->>'member'`). -/
def Payload.get? (p : Payload) (member : String) : Option String :=
  (p.find? fun m => m.1 = member).map Prod.snd

/-- An optional string that the source tests for truthiness: the empty string
counts as absent. -/
def truthy (s : Option String) : Option String := s.filter (· ≠ "")

theorem truthy_eq_some {s : Option String} {t : String} :
    truthy s = some t ↔ s = some t ∧ t ≠ "" := by
  simp [truthy, Option.filter_eq_some_iff]

section Results

variable {ε α β : Type*} {value : Except ε α} {b : β}

/-- What is made of a value that may be missing. -/
theorem exists_of_map_ok {f : α → β} (h : value.map f = .ok b) : ∃ a, value = .ok a ∧ f a = b := by
  cases value with
  | error e => cases h
  | ok a => exact ⟨a, rfl, Except.ok.inj h⟩

theorem exists_of_bind_ok {f : α → Except ε β} (h : value.bind f = .ok b) :
    ∃ a, value = .ok a ∧ f a = .ok b := by
  cases value with
  | error e => cases h
  | ok a => exact ⟨a, rfl, h⟩

end Results

end Vynor
