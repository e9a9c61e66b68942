import Vynor.Lib.Cursor
import Vynor.Polling.Adapter

/-!
# Polling a bot

`TelegramBotAdapter.pollInbound` and the bot it asks.  `getUpdates` with an
offset forgets the updates below it, and returns the oldest of the others.
Update ids increase.
-/

namespace Vynor.Telegram

open Journal (JournalEventInput)
open Polling (Cursor PollResult)

/-- An update, with its `update_id` if it has a number there. -/
structure Update where
  updateId : Option Int
  payload : Payload
deriving DecidableEq, Repr

/-- Updates one call returns at most. -/
def GET_UPDATES_LIMIT : Nat := 100

/-- The updates of a bot: those that were pending at the start or have arrived
since.  Those below `forgotten` are not pending any more. -/
structure Bot where
  updates : List (Nat × Payload)
  forgotten : Option Int
  /-- Later updates have larger ids. -/
  sorted : updates.Pairwise fun a b => a.1 < b.1

/-- The update is not below an offset. -/
def notBelow (offset : Option Int) (u : Nat × Payload) : Bool :=
  match offset with
  | none => true
  | some offset => offset ≤ u.1

/-- The larger of two offsets. -/
def laterOffset : Option Int → Option Int → Option Int
  | none, b => b
  | a, none => a
  | some a, some b => some (max a b)

/-- The updates a call with this offset has to choose from. -/
def Bot.pending (b : Bot) (offset : Option Int) : List (Nat × Payload) :=
  b.updates.filter fun u => notBelow b.forgotten u && notBelow offset u

/-- `getUpdates`. -/
def Bot.getUpdates (b : Bot) (offset : Option Int) : Bot × List Update :=
  ({ b with forgotten := laterOffset b.forgotten offset },
    ((b.pending offset).take GET_UPDATES_LIMIT).map fun u => ⟨some u.1, u.2⟩)

/-- The key of an update's event. -/
def updateKey (updateId : Int) : String := "update:" ++ toString updateId

/-- `extractEvents`. -/
def extractEvents (update : Update) : List JournalEventInput :=
  match update.updateId with
  | none => []
  | some updateId =>
      [{ providerEventKey := updateKey updateId
         isFingerprinted := false
         payload := update.payload }]

/-- One round of the loop over the updates. -/
def nextOffset (offset : Option Int) (update : Update) : Option Int :=
  match update.updateId with
  | none => offset
  | some id => some (max (offset.getD 0) (id + 1))

/-- `TelegramBotAdapter.pollInbound`, with the bot after the call. -/
def pollInbound (b : Bot) (cursor : Option Cursor) : Bot × PollResult :=
  let offset := cursor.bind Cursor.offset
  let answer := b.getUpdates offset
  (answer.1,
    { events := answer.2.flatMap extractEvents
      cursor := { offset := answer.2.foldl nextOffset offset } })

/-! ## What a poll covers -/

/-- The loop ends where it started, or after the last of its updates. -/
theorem foldl_nextOffset (us : List (Nat × Payload)) (offset : Option Int) :
    (us.map fun u => (⟨some u.1, u.2⟩ : Update)).foldl nextOffset offset =
      if us = [] then offset else some (us.foldl (fun o u => max o ((u.1 : Int) + 1)) (offset.getD 0)) := by
  induction us generalizing offset with
  | nil => rfl
  | cons u us ih =>
      rw [List.map_cons, List.foldl_cons, ih, if_neg (List.cons_ne_nil u us), List.foldl_cons]
      split
      next hnil =>
        rw [hnil]
        rfl
      · rfl

section Spec

variable {b : Bot} {cursor : Option Cursor}

/-- Where a poll ends. -/
def endOffset (b : Bot) (cursor : Option Cursor) : Option Int :=
  (pollInbound b cursor).2.cursor.offset

/-- The updates a poll is served. -/
def served (b : Bot) (cursor : Option Cursor) : List (Nat × Payload) :=
  (b.pending (cursor.bind Cursor.offset)).take GET_UPDATES_LIMIT

theorem endOffset_eq : endOffset b cursor =
    if served b cursor = [] then cursor.bind Cursor.offset
    else some ((served b cursor).foldl (fun o u => max o ((u.1 : Int) + 1))
      ((cursor.bind Cursor.offset).getD 0)) :=
  foldl_nextOffset _ _

/-- The end of a poll that is served updates. -/
theorem isGreatest_endOffset {n : Int} (hserved : served b cursor ≠ [])
    (hend : endOffset b cursor = some n) :
    IsGreatest (insert ((cursor.bind Cursor.offset).getD 0)
      {a | ∃ u ∈ served b cursor, (u.1 : Int) + 1 = a}) n := by
  rw [endOffset_eq, if_neg hserved, Option.some.injEq] at hend
  rw [← hend]
  exact Lib.isGreatest_foldl_max (fun u : Nat × Payload => (u.1 : Int) + 1) _ _

/-- A poll does not go back. -/
theorem le_endOffset {n : Int} (hstart : cursor.bind Cursor.offset = some n) :
    ∃ n', endOffset b cursor = some n' ∧ n ≤ n' := by
  rcases hend : endOffset b cursor with _ | n'
  · rw [endOffset_eq, hstart] at hend
    split at hend
    · cases hend
    · cases hend
  · refine ⟨n', rfl, ?_⟩
    by_cases hserved : served b cursor = []
    · rw [endOffset_eq, if_pos hserved, hstart, Option.some.injEq] at hend
      exact hend.le
    · have hgreatest := isGreatest_endOffset hserved hend
      rw [hstart] at hgreatest
      exact hgreatest.2 (Set.mem_insert _ _)

/-- A poll ends where it started, or no later than right after an update. -/
theorem endOffset_le {n : Int} (hend : endOffset b cursor = some n) :
    cursor.bind Cursor.offset = some n ∨ ∃ u ∈ b.updates, n ≤ (u.1 : Int) + 1 := by
  by_cases hserved : served b cursor = []
  · rw [endOffset_eq, if_pos hserved] at hend
    exact Or.inl hend
  · have hmem : ∀ u ∈ served b cursor, u ∈ b.updates := fun u hu =>
      List.mem_of_mem_filter (List.mem_of_mem_take hu)
    rcases (isGreatest_endOffset hserved hend).1 with hn | ⟨u, hu, hn⟩
    · rcases hstart : cursor.bind Cursor.offset with _ | start
      · obtain ⟨u, hu⟩ := List.exists_mem_of_ne_nil _ hserved
        rw [hstart, Option.getD_none] at hn
        exact Or.inr ⟨u, hmem u hu, by omega⟩
      · rw [hstart, Option.getD_some] at hn
        exact Or.inl (congrArg some hn.symm)
    · exact Or.inr ⟨u, hmem u hu, hn.symm.le⟩

/-- An update that a poll moves past has an event. -/
theorem exists_event {u : Nat × Payload} {n : Int}
    (hu : u ∈ b.pending (cursor.bind Cursor.offset)) (hend : endOffset b cursor = some n)
    (hlt : u.1 < n) :
    ∃ e ∈ (pollInbound b cursor).2.events, e.providerEventKey = updateKey u.1 := by
  have hbelow : notBelow (cursor.bind Cursor.offset) u = true := by
    have hfilter := (List.mem_filter.mp hu).2
    rw [Bool.and_eq_true] at hfilter
    exact hfilter.2
  have hserved : served b cursor ≠ [] := by
    intro hnil
    have hpending : b.pending (cursor.bind Cursor.offset) = [] := by
      rcases List.take_eq_nil_iff.mp hnil with hzero | hnil
      · cases hzero
      · exact hnil
    rw [hpending] at hu
    cases hu
  have hsorted : (b.pending (cursor.bind Cursor.offset)).Pairwise fun a b => a.1 ≤ b.1 :=
    (b.sorted.imp fun h => Nat.le_of_lt h).filter _
  obtain ⟨v, hv, hid⟩ : ∃ v ∈ served b cursor, v.1 = u.1 := by
    rcases (isGreatest_endOffset hserved hend).1 with hn | ⟨last, hlast, hn⟩
    · -- a poll that ends where it starts moves past nothing
      exfalso
      rcases hstart : cursor.bind Cursor.offset with _ | start
      · rw [hstart, Option.getD_none] at hn
        omega
      · rw [hstart] at hn hbelow
        simp only [Option.getD_some] at hn
        simp only [notBelow, decide_eq_true_eq] at hbelow
        omega
    · have hle : u.1 ≤ last.1 := by omega
      rcases Lib.mem_take_of_le hsorted hu hlast hle with h | heq
      · exact ⟨u, h, rfl⟩
      · exact ⟨last, hlast, heq.symm⟩
  refine ⟨⟨updateKey v.1, false, v.2, none⟩, ?_, by rw [hid]⟩
  exact List.mem_flatMap.mpr ⟨⟨some v.1, v.2⟩, List.mem_map_of_mem hv, List.mem_singleton_self _⟩

end Spec

end Vynor.Telegram
