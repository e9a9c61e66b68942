import Vynor.Delivery.System

/-!
# What a receipt changes

One call of `applyReceipt`, from its first lookup to its end, while nothing else
moves.  It finds its messages in one of three ways: by the provider id, by
VYNOR's own id, or, for a watermark, by the conversations of a person.  The
watermark asks for replies, the lookup by own id for outbound messages, and the
lookup by the provider id for neither.

`row_of_applied` says what such a call does to a row.  From it follows when the call
keeps to the replies the receipt is about.
-/

namespace Vynor.Delivery

open Lib (Table Machine)

/-! ## One call -/

/-- An action of the call, whose statements all run. -/
def OfApply (channelId : Id) (receipt : DeliveryReceipt) : Action → Prop
  | .receive i c r => i = 0 ∧ c = channelId ∧ r = receipt
  | .matchInternal i => i = 0
  | .cover i _ => i = 0
  | .transition i _ => i = 0
  | _ => False

instance (channelId : Id) (receipt : DeliveryReceipt) (a : Action) :
    Decidable (OfApply channelId receipt a) := by
  unfold OfApply
  split <;> infer_instance

/-- The system with this call of `applyReceipt` alone. -/
def applyMachine (channelId : Id) (receipt : DeliveryReceipt) : Machine World Action where
  step w a := if OfApply channelId receipt a then step w a else none

/-- The call returned, or threw because the receipt cannot be matched yet. -/
def Call.done : Call → Bool
  | .returned _ => true
  | .threw => true
  | _ => false

/-- Messages and the tables around them, before the call. -/
def World.before (t : Messages) (d : Directory) : World := ⟨t, d, fun _ => .idle⟩

/-- A call of `applyReceipt` can take the messages of one table to those of the
other. -/
def Applied (d : Directory) (channelId : Id) (receipt : DeliveryReceipt) (t t' : Messages) : Prop :=
  ∃ as w, (applyMachine channelId receipt).run (World.before t d) as = some w ∧
    (w.call 0).done = true ∧ w.messages = t'

/-! ## What a receipt is about -/

/-- The statuses a watermark moves on: `SENT` to `DELIVERED`, and either of the
two to `READ`. -/
def movable : DeliveryStatus → List DeliveryStatus
  | .delivered => [.sent]
  | .read => [.sent, .delivered]
  | _ => []

/-- The message is in a conversation of the person the receipt names, and was
sent by the watermark. -/
def SentTo (d : Directory) (channelId : Id) (receipt : DeliveryReceipt) (m : Message) : Prop :=
  (∃ identityId, d.identity channelId receipt.recipientIdentifier = some identityId ∧
    d.contactIdentityId m.conversationId = some identityId) ∧
    ∃ sentAt, m.sentAt = some sentAt ∧ sentAt ≤ receipt.watermark.getD receipt.timestamp

/-- A reply of the channel that the receipt names, by id or by watermark. -/
structure About (d : Directory) (channelId : Id) (receipt : DeliveryReceipt) (m : Message) : Prop where
  reply : Reply m
  channel : m.providerAccountId = channelId
  named : receipt.isWatermark = false →
    m.providerMessageId = some receipt.providerMessageId ∨ m.id = receipt.providerMessageId
  sentTo : receipt.isWatermark = true → SentTo d channelId receipt m

/-- The row under an id is another one in the second table, or only there. -/
def Changes (t t' : Messages) (id : Id) : Prop := t'.find? (.id id) ≠ t.find? (.id id)

/-- What a receipt may do.  `only` is its frame, `exactly` what a watermark does,
and `again` that a second call with the same receipt changes nothing. -/
structure ChangesOnlyItsOwn (d : Directory) (channelId : Id) (receipt : DeliveryReceipt)
    (t : Messages) : Prop where
  only : ∀ t', Applied d channelId receipt t t' → ∀ id, Changes t t' id →
    ∃ m, t.find? (.id id) = some m ∧ About d channelId receipt m
  exactly : receipt.isWatermark = true → receipt.status = .delivered ∨ receipt.status = .read →
    ∀ t', Applied d channelId receipt t t' → ∀ m ∈ t.rows,
      (Changes t t' m.id ↔ About d channelId receipt m ∧ m.status ∈ movable receipt.status)
  again : ∀ t' t'', Applied d channelId receipt t t' → Applied d channelId receipt t' t'' → t'' = t'

/-- The message the lookups by id find. -/
def receiptTarget (t : Messages) (channelId : Id) (receipt : DeliveryReceipt) : Option Message :=
  (t.find? (.provider channelId receipt.providerMessageId)).or
    ((t.find? (.id receipt.providerMessageId)).filter fun m =>
      m.providerAccountId = channelId ∧ m.direction = .outbound)

/-- A message that the receipt moves and the lookups by id find is a reply. -/
def FindsReply (t : Messages) (channelId : Id) (receipt : DeliveryReceipt) : Prop :=
  receipt.isWatermark = false → ∀ m, receiptTarget t channelId receipt = some m →
    Advances m.status receipt → Reply m

/-! ## The messages a call has read -/

section Run

variable {d : Directory} {channelId : Id} {receipt : DeliveryReceipt} {t t' : Messages}

/-- The messages a call reads. -/
inductive Reads (d : Directory) (channelId : Id) (receipt : DeliveryReceipt) (t : Messages) :
    List Message → Prop where
  | unmatched : receipt.isWatermark = false → receiptTarget t channelId receipt = none →
      Reads d channelId receipt t []
  | target {m : Message} : receipt.isWatermark = false →
      receiptTarget t channelId receipt = some m → Reads d channelId receipt t [m]
  | unknown : receipt.isWatermark = true →
      d.identity channelId receipt.recipientIdentifier = none → Reads d channelId receipt t []
  | watermark {identityId : Id} {ms : List Message} : receipt.isWatermark = true →
      d.identity channelId receipt.recipientIdentifier = some identityId →
      t.Selects (covered d channelId receipt identityId) (fun _ _ => true) t.rows.length ms →
      Reads d channelId receipt t ms

/-- The table after the transitions of some messages, one after another. -/
inductive Moves (receipt : DeliveryReceipt) (t : Messages) : List Message → Messages → Prop where
  | nil : Moves receipt t [] t
  | snoc {ms : List Message} {t' : Messages} (m : Message) (now : Date) : Moves receipt t ms t' →
      Moves receipt t (ms ++ [m]) (transition t' m receipt now).1

/-- Where the call stands. -/
def Stands (d : Directory) (channelId : Id) (receipt : DeliveryReceipt) (t : Messages) (w : World) :
    Prop :=
  w.directory = d ∧
    match w.call 0 with
    | .idle => w.messages = t
    | .matching c r => c = channelId ∧ r = receipt ∧ receipt.isWatermark = false ∧
        t.find? (.provider channelId receipt.providerMessageId) = none ∧ w.messages = t
    | .covering c r identityId => c = channelId ∧ r = receipt ∧ receipt.isWatermark = true ∧
        d.identity channelId receipt.recipientIdentifier = some identityId ∧ w.messages = t
    | .applying r rest _ => r = receipt ∧ ∃ moved, Reads d channelId receipt t (moved ++ rest) ∧
        Moves receipt t moved w.messages
    | .returned _ => ∃ ms, Reads d channelId receipt t ms ∧ Moves receipt t ms w.messages
    | .threw => ∃ ms, Reads d channelId receipt t ms ∧ Moves receipt t ms w.messages
    | _ => False

theorem Stands.of_applying {w : World} {rest : List Message} (moved : List Message) (i : Nat)
    (hd : w.directory = d) (hreads : Reads d channelId receipt t (moved ++ rest))
    (hmoves : Moves receipt t moved w.messages) {w' : World}
    (hw' : w' = w.setCall 0 (afterTransition receipt rest i)) :
    Stands d channelId receipt t w' := by
  subst hw'
  refine ⟨hd, ?_⟩
  cases rest with
  | nil =>
      rw [List.append_nil] at hreads
      simp only [World.setCall_self, afterTransition, if_true]
      exact ⟨moved, hreads, hmoves⟩
  | cons m rest =>
      rw [World.setCall_self, afterTransition, if_neg (List.cons_ne_nil m rest)]
      exact ⟨rfl, moved, hreads, hmoves⟩

theorem stands_step {w w' : World} {a : Action} (hw : Stands d channelId receipt t w)
    (h : (applyMachine channelId receipt).step w a = some w') : Stands d channelId receipt t w' := by
  simp only [applyMachine] at h
  split at h
  next hof =>
    obtain ⟨hd, hcall⟩ := hw
    cases a with
    | receive i c r =>
        obtain ⟨rfl, rfl, rfl⟩ := hof
        simp only [step] at h
        split at h
        next hidle =>
          cases h
          simp only [hidle] at hcall
          refine ⟨hd, ?_⟩
          rw [World.setCall_self, startReceipt, hd, hcall]
          cases hmark : r.isWatermark with
          | true =>
              simp only [if_true]
              cases hidentity : d.identity c r.recipientIdentifier with
              | none => exact ⟨[], .unknown hmark hidentity, hcall ▸ .nil⟩
              | some identityId => simp [hcall]
          | false =>
              simp only [Bool.false_eq_true, if_false]
              cases hfind : t.find? (.provider c r.providerMessageId) with
              | none => simp [hcall]
              | some m =>
                  refine ⟨rfl, [], .target hmark ?_, hcall ▸ .nil⟩
                  rw [receiptTarget, hfind, Option.some_or]
        · cases h
    | matchInternal i =>
        obtain rfl := hof
        simp only [step] at h
        split at h
        next c r hmatching =>
          cases h
          simp only [hmatching] at hcall
          obtain ⟨rfl, rfl, hmark, hnone, ht⟩ := hcall
          refine ⟨hd, ?_⟩
          rw [World.setCall_self, matchInternal, ht]
          cases hfind : t.find? (.id r.providerMessageId) with
          | none =>
              refine ⟨[], .unmatched hmark ?_, ht ▸ .nil⟩
              rw [receiptTarget, hnone, hfind, Option.none_or, Option.filter_none]
          | some m =>
              by_cases hm : m.providerAccountId = c ∧ m.direction = .outbound
              · simp only [if_pos hm]
                refine ⟨trivial, [], .target hmark ?_, ht ▸ .nil⟩
                rw [receiptTarget, hnone, hfind, Option.none_or, Option.filter_some]
                simp [hm]
              · simp only [if_neg hm]
                refine ⟨[], .unmatched hmark ?_, ht ▸ .nil⟩
                rw [receiptTarget, hnone, hfind, Option.none_or, Option.filter_some]
                simp [hm]
        · cases h
    | cover i ms =>
        obtain rfl := hof
        simp only [step] at h
        split at h
        next c r identityId hcovering =>
          simp only [hcovering] at hcall
          obtain ⟨rfl, rfl, hmark, hidentity, ht⟩ := hcall
          split at h
          next hselects =>
            cases h
            rw [hd, ht] at hselects
            exact Stands.of_applying [] 0 hd (.watermark hmark hidentity hselects)
              (ht ▸ .nil) rfl
          · cases h
        · cases h
    | transition i now =>
        obtain rfl := hof
        simp only [step] at h
        split at h
        next r m rest changed happlying =>
          cases h
          simp only [happlying] at hcall
          obtain ⟨rfl, moved, hreads, hmoves⟩ := hcall
          refine Stands.of_applying (w := { w with messages := (transition w.messages m r now).1 })
            (moved ++ [m]) _ hd ?_ (.snoc m now hmoves) rfl
          rw [List.append_assoc]
          exact hreads
        · cases h
    | _ => exact absurd hof id
  · cases h

/-- A call moves the messages it has read, one after another. -/
theorem moves_of_applied (h : Applied d channelId receipt t t') :
    ∃ ms, Reads d channelId receipt t ms ∧ Moves receipt t ms t' := by
  obtain ⟨as, w, hrun, hdone, rfl⟩ := h
  have hstands : Stands d channelId receipt t w :=
    Machine.invariant (fun s a s' hs => stands_step hs) ⟨rfl, rfl⟩ hrun
  obtain ⟨_, hcall⟩ := hstands
  cases hend : w.call 0 with
  | returned n =>
      simp only [hend] at hcall
      exact hcall
  | threw =>
      simp only [hend] at hcall
      exact hcall
  | _ => simp [hend, Call.done] at hdone

/-! ## The rows of these messages -/

theorem covered_iff {identityId : Id} (hidentity :
    d.identity channelId receipt.recipientIdentifier = some identityId) {m : Message} :
    covered d channelId receipt identityId m = true ↔
      m.providerAccountId = channelId ∧ Reply m ∧ m.status ∈ advanceable receipt ∧
        SentTo d channelId receipt m := by
  simp only [covered, SentTo, Bool.and_eq_true, decide_eq_true_eq, hidentity, Option.some.injEq,
    exists_eq_left']
  cases hsent : m.sentAt with
  | none => simp
  | some sentAt =>
      simp only [Option.some.injEq, exists_eq_left', decide_eq_true_eq]
      tauto

theorem id_of_keys {m m' : Message} (h : m'.keys = m.keys) : m'.id = m.id :=
  Message.id_mem_keys.mp (h ▸ Message.id_mem_keys.mpr rfl)

/-- The messages a call reads are rows, each once. -/
theorem Reads.rows {ms : List Message} (h : Reads d channelId receipt t ms) :
    ms.Nodup ∧ ∀ m ∈ ms, m ∈ t.rows := by
  cases h with
  | unmatched _ _ => exact ⟨List.nodup_nil, fun m hm => absurd hm List.not_mem_nil⟩
  | unknown _ _ => exact ⟨List.nodup_nil, fun m hm => absurd hm List.not_mem_nil⟩
  | watermark _ _ hselects => exact ⟨hselects.nodup, fun m hm => (hselects.selected m hm).1⟩
  | @target m _ htarget =>
      refine ⟨List.nodup_singleton m, fun m' hm' => ?_⟩
      rw [List.mem_singleton.mp hm']
      rw [receiptTarget, Option.or_eq_some_iff] at htarget
      rcases htarget with hprovider | ⟨_, hown⟩
      · exact (Table.find?_eq_some.mp hprovider).1
      · exact (Table.find?_eq_some.mp (Option.filter_eq_some_iff.mp hown).1).1

theorem find?_of_moves_none {ms : List Message} {k : MessageKey} (h : Moves receipt t ms t')
    (hnone : t.find? k = none) : t'.find? k = none := by
  induction h with
  | nil => exact hnone
  | @snoc ms t1 m now hmoves ih =>
      unfold transition
      split
      · rw [Table.find?_updateMany, ih, Option.map_none]
      · exact ih

/-- A row is moved if it was read and the receipt moves it, and left alone
otherwise. -/
theorem find?_of_moves {ms : List Message} (h : Moves receipt t ms t') (hnodup : ms.Nodup)
    (hrows : ∀ m ∈ ms, m ∈ t.rows) {k : MessageKey} {m : Message} (hm : t.find? k = some m) :
    ∃ now, t'.find? k =
      some (if m ∈ ms ∧ Advances m.status receipt then received receipt now m else m) := by
  induction h with
  | nil => exact ⟨0, by simpa using hm⟩
  | @snoc ms t1 a now hmoves ih =>
      obtain ⟨hms, _, hapart⟩ := List.nodup_append.mp hnodup
      have hnot : a ∉ ms := fun ha => hapart a ha a (List.mem_singleton_self a) rfl
      obtain ⟨now1, h1⟩ := ih hms fun m hm => hrows m (List.mem_append_left _ hm)
      have harow : a ∈ t.rows := hrows a (List.mem_append_right _ (List.mem_singleton_self a))
      have hmrow : m ∈ t.rows := (Table.find?_eq_some.mp hm).1
      have h2 := find?_transition a receipt now h1
      by_cases ham : m = a
      · subst ham
        simp only [hnot, false_and, if_false] at h2
        refine ⟨now, h2.trans ?_⟩
        simp [asRead]
      · -- Another row has another id, so this transition does not select it.
        have hid : ¬ m.id = a.id := by
          intro hid
          refine ham (Table.eq_of_shared_key (k := .id m.id) hmrow harow ?_ ?_)
          · exact Message.id_mem_keys.mpr rfl
          · exact Message.id_mem_keys.mpr hid.symm
        refine ⟨now1, h2.trans ?_⟩
        have hsame : (if m ∈ ms ∧ Advances m.status receipt then received receipt now1 m else m).id
            = m.id := by
          split
          · exact id_of_keys (keys_received m receipt now1)
          · rfl
        rw [if_neg (by simp [asRead, hsame, hid])]
        simp [ham]

/-- What a call does to a row. -/
theorem row_of_applied (h : Applied d channelId receipt t t') :
    ∃ ms, Reads d channelId receipt t ms ∧
      (∀ k, t.find? k = none → t'.find? k = none) ∧
      ∀ k m, t.find? k = some m → ∃ now, t'.find? k =
        some (if m ∈ ms ∧ Advances m.status receipt then received receipt now m else m) := by
  obtain ⟨ms, hreads, hmoves⟩ := moves_of_applied h
  obtain ⟨hnodup, hrows⟩ := hreads.rows
  exact ⟨ms, hreads, fun k => find?_of_moves_none hmoves,
    fun k m hm => find?_of_moves hmoves hnodup hrows hm⟩

/-- A row that a call changes was read and is moved. -/
theorem moved_of_changes (h : Applied d channelId receipt t t') {id : Id} (hne : Changes t t' id) :
    ∃ ms m, Reads d channelId receipt t ms ∧ t.find? (.id id) = some m ∧ m ∈ ms ∧
      Advances m.status receipt := by
  obtain ⟨ms, hreads, hnone, hrow⟩ := row_of_applied h
  cases hm : t.find? (.id id) with
  | none => exact absurd ((hnone _ hm).trans hm.symm) hne
  | some m =>
      obtain ⟨now, hm'⟩ := hrow _ _ hm
      by_cases hmoved : m ∈ ms ∧ Advances m.status receipt
      · exact ⟨ms, m, hreads, rfl, hmoved⟩
      · rw [if_neg hmoved] at hm'
        exact absurd (hm'.trans hm.symm) hne

/-- The message a lookup by id finds is of the channel and named by the
receipt. -/
theorem named_of_receiptTarget {m : Message} (h : receiptTarget t channelId receipt = some m) :
    m.providerAccountId = channelId ∧
      (m.providerMessageId = some receipt.providerMessageId ∨ m.id = receipt.providerMessageId) := by
  rw [receiptTarget, Option.or_eq_some_iff] at h
  rcases h with hprovider | ⟨_, hown⟩
  · obtain ⟨hchannel, hid⟩ := Message.provider_mem_keys.mp (Table.find?_eq_some.mp hprovider).2
    exact ⟨hchannel, Or.inl hid⟩
  · obtain ⟨hfind, hcheck⟩ := Option.filter_eq_some_iff.mp hown
    have hid := Message.id_of_find? hfind
    exact ⟨(by simpa using hcheck : _ ∧ _).1, Or.inr hid⟩

theorem about_of_read (hfinds : FindsReply t channelId receipt) {ms : List Message}
    (hreads : Reads d channelId receipt t ms) {m : Message} (hm : m ∈ ms)
    (hadvances : Advances m.status receipt) : About d channelId receipt m := by
  cases hreads with
  | unmatched _ _ => exact absurd hm List.not_mem_nil
  | unknown _ _ => exact absurd hm List.not_mem_nil
  | target hmark htarget =>
      rw [List.mem_singleton] at hm
      subst hm
      obtain ⟨hchannel, hnamed⟩ := named_of_receiptTarget htarget
      refine ⟨hfinds hmark m htarget hadvances, hchannel, fun _ => hnamed, fun htrue => ?_⟩
      rw [hmark] at htrue
      cases htrue
  | watermark hmark hidentity hselects =>
      obtain ⟨hchannel, hreply, _, hsent⟩ := (covered_iff hidentity).mp (hselects.selected m hm).2
      refine ⟨hreply, hchannel, fun hfalse => ?_, fun _ => hsent⟩
      rw [hmark] at hfalse
      cases hfalse

/-- A watermark reads exactly the replies it covers. -/
theorem mem_reads_watermark (hmark : receipt.isWatermark = true) {ms : List Message}
    (hreads : Reads d channelId receipt t ms) {m : Message} (hm : m ∈ t.rows) :
    m ∈ ms ↔ About d channelId receipt m ∧ m.status ∈ advanceable receipt := by
  have hplain {p : Prop} (hfalse : receipt.isWatermark = false) : p := by
    rw [hmark] at hfalse
    cases hfalse
  cases hreads with
  | unmatched hfalse _ => exact hplain hfalse
  | target hfalse _ => exact hplain hfalse
  | unknown _ hnone =>
      refine iff_of_false List.not_mem_nil ?_
      rintro ⟨habout, _⟩
      obtain ⟨⟨identityId, hsome, _⟩, _⟩ := habout.sentTo hmark
      rw [hnone] at hsome
      cases hsome
  | watermark _ hidentity hselects =>
      constructor
      · intro hread
        obtain ⟨hchannel, hreply, hstatus, hsent⟩ :=
          (covered_iff hidentity).mp (hselects.selected m hread).2
        exact ⟨⟨hreply, hchannel, hplain, fun _ => hsent⟩, hstatus⟩
      · rintro ⟨habout, hstatus⟩
        refine hselects.mem_of_count_le List.countP_le_length hm ?_
        exact (covered_iff hidentity).mpr
          ⟨habout.channel, habout.reply, hstatus, habout.sentTo hmark⟩

/-- A receipt moves no message to the status it has. -/
theorem not_advances_received (m : Message) (now : Date) :
    ¬ Advances (received receipt now m).status receipt := by
  rw [status_received]
  exact fun h => h.2 rfl

/-- What a second call reads, the receipt does not move. -/
theorem settled_of_applied (h : Applied d channelId receipt t t') {ms' : List Message}
    (hreads' : Reads d channelId receipt t' ms') {m' : Message} (hm' : m' ∈ ms') :
    ¬ Advances m'.status receipt := by
  obtain ⟨ms, hreads, hnone, hrow⟩ := row_of_applied h
  intro hadvances
  have hrow' : m' ∈ t'.rows := hreads'.rows.2 m' hm'
  -- The row under each key of m' is one that the first call left as it was.
  have hsame : ∀ k m, t.find? k = some m → t'.find? k = some m' →
      m = m' ∧ ¬ (m ∈ ms ∧ Advances m.status receipt) := by
    intro k m hm hk
    obtain ⟨now, hfound⟩ := hrow k m hm
    rw [hk] at hfound
    split at hfound
    · rw [Option.some.inj hfound] at hadvances
      exact absurd hadvances (not_advances_received m now)
    next hnot =>
      exact ⟨(Option.some.inj hfound).symm, hnot⟩
  have hkept : m' ∈ t.rows ∧ ¬ m' ∈ ms := by
    have hid := Message.find?_of_mem hrow'
    cases hm : t.find? (.id m'.id) with
    | none =>
        rw [hnone _ hm] at hid
        cases hid
    | some m =>
        obtain ⟨rfl, hnot⟩ := hsame _ m hm hid
        exact ⟨(Table.find?_eq_some.mp hm).1, fun hread => hnot ⟨hread, hadvances⟩⟩
  cases hreads' with
  | unmatched _ _ => exact absurd hm' List.not_mem_nil
  | unknown _ _ => exact absurd hm' List.not_mem_nil
  | watermark hmark hidentity hselects =>
      refine hkept.2 ((mem_reads_watermark hmark hreads hkept.1).mpr ?_)
      have hread : m' ∈ ms' ↔ _ :=
        mem_reads_watermark hmark (.watermark hmark hidentity hselects) hrow'
      exact hread.mp hm'
  | target hmark htarget' =>
      rw [List.mem_singleton] at hm'
      subst hm'
      have htarget : receiptTarget t channelId receipt = some m' := by
        rw [receiptTarget, Option.or_eq_some_iff] at htarget' ⊢
        have hback : ∀ k, t'.find? k = some m' → t.find? k = some m' := by
          intro k hk
          cases hm : t.find? k with
          | none =>
              rw [hnone k hm] at hk
              cases hk
          | some m => rw [(hsame k m hm hk).1]
        rcases htarget' with hprovider | ⟨hprovider, hown⟩
        · exact Or.inl (hback _ hprovider)
        · obtain ⟨hfind, hcheck⟩ := Option.filter_eq_some_iff.mp hown
          refine Or.inr ⟨?_, Option.filter_eq_some_iff.mpr ⟨hback _ hfind, hcheck⟩⟩
          cases hm : t.find? (.provider channelId receipt.providerMessageId) with
          | none => rfl
          | some m =>
              obtain ⟨now, hfound⟩ := hrow _ m hm
              rw [hprovider] at hfound
              cases hfound
      cases hreads with
      | unmatched _ hnot =>
          rw [htarget] at hnot
          cases hnot
      | target _ hfirst =>
          rw [htarget] at hfirst
          cases hfirst
          exact hkept.2 (List.mem_singleton_self _)
      | unknown hfalse _ =>
          rw [hmark] at hfalse
          cases hfalse
      | watermark hfalse _ _ =>
          rw [hmark] at hfalse
          cases hfalse

theorem eq_of_moves {ms : List Message} (h : Moves receipt t ms t')
    (hsettled : ∀ m ∈ ms, ¬ Advances m.status receipt) : t' = t := by
  induction h with
  | nil => rfl
  | @snoc ms t1 m now hmoves ih =>
      have hm : ¬ Advances m.status receipt :=
        hsettled m (List.mem_append_right _ (List.mem_singleton_self m))
      rw [transition, if_neg hm]
      exact ih fun m' hm' => hsettled m' (List.mem_append_left _ hm')

/-- The statuses a watermark moves on are those its statement asks for. -/
theorem movable_eq_advanceable (hstatus : receipt.status = .delivered ∨ receipt.status = .read) :
    movable receipt.status = advanceable receipt := by
  rcases hstatus with hstatus | hstatus
  · simp [movable, advanceable, hstatus]
  · simp [movable, advanceable, hstatus]

theorem advances_of_movable {status : DeliveryStatus} (h : status ∈ movable receipt.status) :
    Advances status receipt := by
  have hall : ∀ next, ∀ s ∈ movable next, isDeliveryStatusMonotonic s next = true ∧ s ≠ next := by
    intro next
    cases next <;> decide
  exact hall _ _ h

/-- A row that a call moves is another row afterwards. -/
theorem changes_of_moved {t t' : Messages} {m : Message} {now : Date}
    (hfind : t.find? (.id m.id) = some m) (hadvances : Advances m.status receipt)
    (hmoved : t'.find? (.id m.id) = some (received receipt now m)) : Changes t t' m.id := by
  intro heq
  rw [heq, hfind] at hmoved
  have hstatus := congrArg Message.status (Option.some.inj hmoved)
  rw [status_received] at hstatus
  exact hadvances.2 hstatus

/-- A watermark changes exactly the replies it covers. -/
theorem changes_iff_of_watermark (hmark : receipt.isWatermark = true)
    (hstatus : receipt.status = .delivered ∨ receipt.status = .read)
    (h : Applied d channelId receipt t t') {m : Message} (hm : m ∈ t.rows) :
    Changes t t' m.id ↔ About d channelId receipt m ∧ m.status ∈ movable receipt.status := by
  have hfind := Message.find?_of_mem hm
  rw [movable_eq_advanceable hstatus]
  constructor
  · intro hchanges
    obtain ⟨ms, m', hreads, hfind', hread, _⟩ := moved_of_changes h hchanges
    rw [hfind] at hfind'
    cases hfind'
    exact (mem_reads_watermark hmark hreads hm).mp hread
  · rintro ⟨habout, hcovered⟩
    obtain ⟨ms, hreads, _, hrow⟩ := row_of_applied h
    have hread : m ∈ ms := (mem_reads_watermark hmark hreads hm).mpr ⟨habout, hcovered⟩
    have hadvances : Advances m.status receipt :=
      advances_of_movable ((movable_eq_advanceable hstatus).symm ▸ hcovered)
    obtain ⟨now, hmoved⟩ := hrow _ m hfind
    rw [if_pos ⟨hread, hadvances⟩] at hmoved
    exact changes_of_moved hfind hadvances hmoved

/-- A call that finds a message by id and moves it. -/
theorem exists_applied_target (hmark : receipt.isWatermark = false) {m : Message}
    (htarget : receiptTarget t channelId receipt = some m) (now : Date) :
    Applied d channelId receipt t (transition t m receipt now).1 := by
  have hmatched : ∃ as w, (applyMachine channelId receipt).run (World.before t d) as = some w ∧
      w.call 0 = .applying receipt [m] 0 ∧ w.messages = t := by
    rw [receiptTarget, Option.or_eq_some_iff] at htarget
    rcases htarget with hprovider | ⟨hprovider, hown⟩
    · refine ⟨[.receive 0 channelId receipt],
        (World.before t d).setCall 0 (.applying receipt [m] 0), ?_, World.setCall_self _ _ _, rfl⟩
      simp [Machine.run, applyMachine, OfApply, step, startReceipt, World.before, hmark, hprovider]
    · obtain ⟨hfind, hcheck⟩ := Option.filter_eq_some_iff.mp hown
      have hcheck : m.providerAccountId = channelId ∧ m.direction = .outbound := by
        simpa using hcheck
      refine ⟨[.receive 0 channelId receipt, .matchInternal 0],
        ((World.before t d).setCall 0 (.matching channelId receipt)).setCall 0
          (.applying receipt [m] 0), ?_, World.setCall_self _ _ _, rfl⟩
      simp [Machine.run, applyMachine, OfApply, step, startReceipt, matchInternal, World.before,
        World.setCall, hmark, hprovider, hfind, hcheck]
  obtain ⟨as, w, hrun, hcall, ht⟩ := hmatched
  let result := transition t m receipt now
  let w' : World := { w.setCall 0 (.returned (0 + result.2)) with messages := result.1 }
  refine ⟨as ++ [.transition 0 now], w', ?_, ?_, rfl⟩
  · refine Machine.run_append_eq_some _ |>.mpr ⟨w, hrun, ?_⟩
    simp [Machine.run, applyMachine, OfApply, step, hcall, ht, afterTransition, w', result]
  · simp [w', World.setCall, Call.done]

end Run

/-- What a receipt finds by id and moves is a reply, if it changes only those. -/
theorem findsReply_of_changesOnlyItsOwn {d : Directory} {channelId : Id} {receipt : DeliveryReceipt}
    {t : Messages} (h : ChangesOnlyItsOwn d channelId receipt t) :
    FindsReply t channelId receipt := by
  intro hmark m htarget hadvances
  have happlied := exists_applied_target (d := d) hmark htarget 0
  have hm : m ∈ t.rows := (Reads.target (d := d) hmark htarget).rows.2 m (List.mem_singleton_self m)
  have hfind := Message.find?_of_mem hm
  have hmoved := find?_transition m receipt 0 hfind
  rw [if_pos ⟨hadvances, by simp [asRead]⟩] at hmoved
  obtain ⟨m', hm', habout⟩ := h.only _ happlied m.id (changes_of_moved hfind hadvances hmoved)
  rw [hfind] at hm'
  cases hm'
  exact habout.reply

/-- A receipt changes only the replies it is about, and nothing the second time,
exactly when the message it finds by id is a reply, or is not moved. -/
theorem changesOnlyItsOwn_iff (d : Directory) (channelId : Id) (receipt : DeliveryReceipt)
    (t : Messages) : ChangesOnlyItsOwn d channelId receipt t ↔ FindsReply t channelId receipt := by
  constructor
  · exact findsReply_of_changesOnlyItsOwn
  · intro hfinds
    refine ⟨fun t' happlied id hchanges => ?_, fun hmark hstatus t' happlied m hm => ?_,
      fun t' t'' happlied happlied' => ?_⟩
    · obtain ⟨ms, m, hreads, hfind, hread, hadvances⟩ := moved_of_changes happlied hchanges
      exact ⟨m, hfind, about_of_read hfinds hreads hread hadvances⟩
    · exact changes_iff_of_watermark hmark hstatus happlied hm
    · obtain ⟨ms', hreads', hmoves'⟩ := moves_of_applied happlied'
      exact eq_of_moves hmoves' fun m' hm' => settled_of_applied happlied hreads' hm'

/-! ## A message of the customer -/

/-- A message of the customer, as it is stored. -/
def customerMessage : Message where
  id := "m"
  workspaceId := "workspace"
  conversationId := "conversation"
  providerAccountId := "channel"
  direction := .inbound
  senderType := .contact
  content := .text "Hello"
  text := "Hello"
  providerMessageId := some "p"
  status := .delivered
  createdAt := 0
  updatedAt := 0

/-- A receipt that names it. -/
def readReceipt : DeliveryReceipt where
  providerMessageId := "p"
  recipientIdentifier := "visitor"
  status := .read
  timestamp := 1

/-- The receipt changes a message of the customer. -/
theorem not_changesOnlyItsOwn : ¬ ∀ (d : Directory) (channelId : Id) (receipt : DeliveryReceipt)
    (t : Messages), ChangesOnlyItsOwn d channelId receipt t := by
  intro h
  let t : Messages := ⟨[customerMessage], List.pairwise_singleton _ _⟩
  have hfinds : FindsReply t "channel" readReceipt :=
    findsReply_of_changesOnlyItsOwn (h World.init.directory "channel" readReceipt t)
  have hreply : Reply customerMessage :=
    hfinds (by decide) customerMessage (by decide) (by decide)
  exact absurd hreply (by decide)

end Vynor.Delivery
