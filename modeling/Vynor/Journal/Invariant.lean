import Vynor.Journal.System

/-!
# What holds while batches are journaled

The invariant has three parts.  Each transaction knows what it has inserted:
the result of a finished call, and the list `created` of the call under way,
are the ids of the rows under that call (`TxOk`).  Each key of a call that has
been dealt with is in the table, under a committed transaction or its own one.
Each provider event has one outbox row, of its own transaction, or none while
its call has not come to it.
-/

namespace Vynor.Journal

open Lib (Table Machine)

/-! ## The invariant -/

/-- The transaction can have inserted rows in its call with this index. -/
def Tx.Reaches : Tx → Nat → Prop
  | .active _ finished _, n => n ≤ finished.length
  | .committed finished, n => n ≤ finished.length
  | _, _ => False

/-- The key is in the table, for good where the transaction commits. -/
def HasKey (w : World) (i : TxId) (params : JournalProviderEventsParams)
    (event : JournalEventInput) : Prop :=
  ∃ t ∈ w.events.rows, EventKey.provider params.providerAccountId event.providerEventKey ∈ t.row.keys ∧
    (t.call.tx = i ∨ (w.tx t.call.tx).isCommitted = true)

/-- Each event of the call under way has its key in the table, or is still to
come. -/
def Stage.Covers (w : World) (i : TxId) : Stage → Prop
  | .between => True
  | .inserting params _ rest _ => ∀ e ∈ params.events,
      (∃ u ∈ rest, u.providerEventKey = e.providerEventKey) ∨ HasKey w i params e
  | .queueing params _ _ => ∀ e ∈ params.events, HasKey w i params e

/-- What is known of a transaction. -/
structure TxOk (w : World) (i : TxId) (t : Tx) : Prop where
  accepted : ∀ n call, t.finished[n]? = some call →
    w.insertedBy ⟨i, n⟩ = call.result.acceptedEventIds
  current : ∀ held finished stage, t = .active held finished stage →
    w.insertedBy (callRef i finished) = stage.created
  suffix : t.stage.unqueued <:+ t.stage.created
  stored : ∀ call ∈ t.finished, ∀ e ∈ call.params.events, HasKey w i call.params e
  covers : t.stage.Covers w i

/-- What holds between the steps. -/
structure Journaled (w : World) : Prop where
  reached : ∀ t ∈ w.events.rows, (w.tx t.call.tx).Reaches t.call.index
  txOk : ∀ i, TxOk w i (w.tx i)
  handed : ∀ o ∈ w.outbox.rows, ∃ t ∈ w.events.rows,
    names t.row.id o.row = true ∧ t.call.tx = o.call.tx
  counted : ∀ t ∈ w.events.rows, w.outbox.rows.countP (fun o => names t.row.id o.row) =
    if t.row.id ∈ (w.tx t.call.tx).stage.unqueued then 0 else 1

/-! ## Rows and ids -/

theorem eq_of_names {a b : Id} {o : Outbox.OutboxEvent} (ha : names a o = true)
    (hb : names b o = true) : a = b := by
  simp only [names, Bool.and_eq_true, decide_eq_true_eq] at ha hb
  exact Option.some.inj (ha.2.symm.trans hb.2)

/-- Two rows with one id are the same row. -/
theorem eq_of_id {w : World} {t t' : Tuple ProviderEvent} (ht : t ∈ w.events.rows)
    (ht' : t' ∈ w.events.rows) (hid : t.row.id = t'.row.id) : t = t' :=
  Table.eq_of_shared_key (k := EventKey.id t.row.id) ht ht' (by simp) (by simp [hid])

theorem mem_insertedBy {w : World} {c : CallRef} {id : Id} :
    id ∈ w.insertedBy c ↔ ∃ t ∈ w.events.rows, t.call = c ∧ t.row.id = id := by
  simp [World.insertedBy, and_assoc]

/-- A call inserts an id once. -/
theorem nodup_insertedBy (w : World) (c : CallRef) : (w.insertedBy c).Nodup := by
  have hids : (w.events.rows.map fun t => t.row.id).Nodup := by
    rw [List.Nodup, List.pairwise_map]
    refine w.events.unique.imp fun {a b} hdisjoint heq => ?_
    exact hdisjoint (ProviderEvent.id_mem_keys.mpr heq) (ProviderEvent.id_mem_keys.mpr rfl)
  exact hids.sublist (List.filter_sublist.map _)

/-- Where a transaction cannot have inserted rows, it has not. -/
theorem insertedBy_of_not_reaches {w : World} (hw : Journaled w) {i : TxId} {n : Nat}
    (hn : ¬ (w.tx i).Reaches n) : w.insertedBy ⟨i, n⟩ = [] := by
  rw [List.eq_nil_iff_forall_not_mem]
  intro id hid
  obtain ⟨t, ht, hcall, _⟩ := mem_insertedBy.mp hid
  have hreached := hw.reached t ht
  rw [hcall] at hreached
  exact hn hreached

theorem HasKey.mono {w w' : World} {i : TxId} {params : JournalProviderEventsParams}
    {event : JournalEventInput} (h : HasKey w i params event)
    (hrows : ∀ t ∈ w.events.rows, (t.call.tx = i ∨ (w.tx t.call.tx).isCommitted = true) →
      t ∈ w'.events.rows)
    (hcommitted : ∀ j, (w.tx j).isCommitted = true → (w'.tx j).isCommitted = true) :
    HasKey w' i params event := by
  obtain ⟨t, ht, hkey, howner⟩ := h
  exact ⟨t, hrows t ht howner, hkey, howner.imp_right (hcommitted _)⟩

/-- What is known of a transaction stays known where its rows, and those that
are committed, are kept. -/
theorem TxOk.mono {w w' : World} {i : TxId} {t : Tx} (h : TxOk w i t)
    (hinserted : ∀ n, w'.insertedBy ⟨i, n⟩ = w.insertedBy ⟨i, n⟩)
    (hrows : ∀ t ∈ w.events.rows, (t.call.tx = i ∨ (w.tx t.call.tx).isCommitted = true) →
      t ∈ w'.events.rows)
    (hcommitted : ∀ j, (w.tx j).isCommitted = true → (w'.tx j).isCommitted = true) :
    TxOk w' i t where
  accepted n call hcall := (hinserted n).trans (h.accepted n call hcall)
  current held finished stage ht := (hinserted _).trans (h.current held finished stage ht)
  suffix := h.suffix
  stored call hcall e he := (h.stored call hcall e he).mono hrows hcommitted
  covers := by
    have hcovers := h.covers
    cases hstage : t.stage with
    | between => trivial
    | inserting params purgeAfter rest created =>
        rw [hstage] at hcovers
        exact fun e he => (hcovers e he).imp_right fun hk => hk.mono hrows hcommitted
    | queueing params created rest =>
        rw [hstage] at hcovers
        exact fun e he => (hcovers e he).mono hrows hcommitted

/-! ## Steps that only move a transaction -/

section Moves

variable {w : World} {i : TxId}

/-- What holds of a transaction still does when one is moved that keeps it. -/
theorem tx_setTx (P : Tx → Prop) {t : Tx} {j : TxId} (h : P (w.tx i) → P t) (hj : P (w.tx j)) :
    P ((w.setTx i t).tx j) := by
  by_cases hji : j = i
  · subst hji
    rw [World.setTx_self]
    exact h hj
  · rwa [World.setTx_other w t hji]

theorem journaled_setTx {t : Tx} (hw : Journaled w)
    (hreaches : ∀ n, (w.tx i).Reaches n → t.Reaches n)
    (hcommitted : (w.tx i).isCommitted = true → t.isCommitted = true)
    (hunqueued : t.stage.unqueued = (w.tx i).stage.unqueued) (hok : TxOk w i t) :
    Journaled (w.setTx i t) := by
  have hcommitted' : ∀ j, (w.tx j).isCommitted = true → ((w.setTx i t).tx j).isCommitted = true :=
    fun j hj => tx_setTx (·.isCommitted = true) hcommitted hj
  refine ⟨?_, ?_, hw.handed, ?_⟩
  · exact fun e he => tx_setTx (·.Reaches e.call.index) (hreaches e.call.index)
      (hw.reached e he)
  · intro j
    by_cases hji : j = i
    · subst hji
      rw [World.setTx_self]
      exact hok.mono (fun _ => rfl) (fun _ ht _ => ht) hcommitted'
    · rw [World.setTx_other w t hji]
      exact (hw.txOk j).mono (fun _ => rfl) (fun _ ht _ => ht) hcommitted'
  · intro e he
    have hold := hw.counted e he
    by_cases hji : e.call.tx = i
    · rw [hji] at hold ⊢
      rw [World.setTx_self, hunqueued]
      exact hold
    · rw [World.setTx_other w t hji]
      exact hold

/-- A transaction that begins has inserted nothing. -/
theorem txOk_begin (hw : Journaled w) (hidle : w.tx i = .idle) (held : Bool) :
    TxOk w i (.active held [] .between) where
  accepted n call hcall := by simp [Tx.finished] at hcall
  current _ finished stage ht := by
    cases ht
    exact insertedBy_of_not_reaches hw (by rw [hidle]; exact id)
  suffix := List.suffix_rfl
  stored call hcall := by cases hcall
  covers := trivial

/-- One more call has returned, with the events it has inserted. -/
theorem txOk_returned {held : Bool} {finished : List Finished} {stage : Stage}
    {params : JournalProviderEventsParams} {result : JournalProviderEventsResult}
    (hok : TxOk w i (.active held finished stage))
    (hresult : result.acceptedEventIds = stage.created)
    (hstored : ∀ e ∈ params.events, HasKey w i params e)
    (hnext : w.insertedBy ⟨i, finished.length + 1⟩ = []) :
    TxOk w i (.active held (finished ++ [⟨params, result⟩]) .between) where
  accepted n call hcall := by
    simp only [Tx.finished] at hcall
    rcases Nat.lt_or_ge n finished.length with hn | hn
    · rw [List.getElem?_append_left hn] at hcall
      exact hok.accepted n call hcall
    · rw [List.getElem?_append_right hn] at hcall
      obtain ⟨hzero, hlast⟩ := List.getElem?_eq_some_iff.mp hcall
      have hlen : n = finished.length := by
        simp only [List.length_singleton] at hzero
        omega
      subst hlen
      simp only [Nat.sub_self, List.getElem_cons_zero] at hlast
      subst hlast
      exact (hok.current held finished stage rfl).trans hresult.symm
  current _ _ _ ht := by
    cases ht
    rw [callRef, List.length_append, List.length_singleton]
    exact hnext
  suffix := List.suffix_rfl
  stored call hcall e he := by
    rcases List.mem_append.mp hcall with hold | hnew
    · exact hok.stored call hold e he
    · rw [List.mem_singleton] at hnew
      subst hnew
      exact hstored e he
  covers := trivial

theorem txOk_commit {held : Bool} {finished : List Finished} {stage : Stage}
    (hok : TxOk w i (.active held finished stage)) : TxOk w i (.committed finished) where
  accepted := hok.accepted
  current _ _ _ ht := by cases ht
  suffix := List.suffix_rfl
  stored := hok.stored
  covers := trivial

/-- A call starts where nothing is under way. -/
theorem txOk_startCall {held : Bool} {finished : List Finished}
    (hok : TxOk w i (.active held finished .between))
    (hnext : w.insertedBy ⟨i, finished.length + 1⟩ = []) (params : JournalProviderEventsParams)
    (now : Date) : TxOk w i (startCall held finished params now) := by
  unfold startCall
  split
  next hempty =>
    refine txOk_returned hok rfl ?_ hnext
    rw [hempty]
    exact fun e he => by cases he
  · refine ⟨hok.accepted, ?_, List.suffix_rfl, hok.stored, ?_⟩
    · intro held' finished' stage ht
      cases ht
      exact hok.current held finished .between rfl
    · exact fun e he => Or.inl (exists_uniqueEvent he)

theorem unqueued_startCall {held : Bool} {finished : List Finished}
    {params : JournalProviderEventsParams} {now : Date} :
    (startCall held finished params now).stage.unqueued = [] := by
  unfold startCall
  split <;> rfl

theorem reaches_startCall {held held' : Bool} {finished : List Finished} {stage : Stage}
    {params : JournalProviderEventsParams} {now : Date} :
    ∀ n, (Tx.active held' finished stage).Reaches n → (startCall held finished params now).Reaches n := by
  intro n hn
  simp only [Tx.Reaches] at hn
  unfold startCall
  split
  · simp only [Tx.Reaches, List.length_append]
    omega
  · exact hn

/-- The call after the one under way has inserted nothing. -/
theorem insertedBy_next (hw : Journaled w) {held : Bool} {finished : List Finished} {stage : Stage}
    (htx : w.tx i = .active held finished stage) :
    w.insertedBy ⟨i, finished.length + 1⟩ = [] := by
  refine insertedBy_of_not_reaches hw ?_
  rw [htx]
  exact Nat.not_succ_le_self _

end Moves

/-! ## Steps that write -/

/-- An insert of a row whose key is free. -/
theorem journaled_insert {w : World} {i : TxId} {held : Bool} {finished : List Finished}
    {params : JournalProviderEventsParams} {purgeAfter : Date} {event : JournalEventInput}
    {rest : List JournalEventInput} {created : List Id} {id : Id} {events : EventTable}
    (hw : Journaled w)
    (htx : w.tx i = .active held finished (.inserting params purgeAfter (event :: rest) created))
    (hins : w.events.insert? ⟨newProviderEvent params purgeAfter id event, callRef i finished⟩
      = some events) :
    Journaled { w.setTx i (.active held finished
      (.inserting params purgeAfter rest (created ++ [id]))) with events := events } := by
  obtain ⟨hfree, hrows⟩ := Table.insert?_eq_some.mp hins
  -- The id is new, so no row under it is there and no outbox row names it.
  have hfresh : ∀ t ∈ w.events.rows, t.row.id ≠ id := by
    intro t ht heq
    have hdisjoint := hfree t ht
    exact hdisjoint (ProviderEvent.id_mem_keys.mpr heq) (ProviderEvent.id_mem_keys.mpr rfl)
  have hunnamed : ∀ o ∈ w.outbox.rows, names id o.row = false := by
    intro o ho
    obtain ⟨t, ht, hnames, _⟩ := hw.handed o ho
    cases hn : names id o.row with
    | false => rfl
    | true => exact absurd (eq_of_names hnames hn) (hfresh t ht)
  have hold := hw.txOk i
  rw [htx] at hold
  have hmono : ∀ j, (w.tx j).isCommitted = true →
      ((w.setTx i (.active held finished
        (.inserting params purgeAfter rest (created ++ [id])))).tx j).isCommitted = true := by
    exact fun j hj => tx_setTx (·.isCommitted = true) (by rw [htx]; exact fun h => h) hj
  have hinserted : ∀ c, c ≠ callRef i finished →
      ((events.rows.filter fun t => t.call = c).map fun t => t.row.id) = w.insertedBy c := by
    intro c hc
    rw [hrows, List.filter_append, List.map_append, World.insertedBy]
    simp [hc.symm]
  have hkept : ∀ t ∈ w.events.rows, t ∈ events.rows := by
    intro t ht
    rw [hrows]
    exact List.mem_append_left _ ht
  refine ⟨?_, ?_, ?_, ?_⟩
  · intro t ht
    rcases List.mem_append.mp (hrows ▸ ht) with hmem | hnew
    · exact tx_setTx (·.Reaches t.call.index) (by rw [htx]; exact fun h => h)
        (hw.reached t hmem)
    · rw [List.mem_singleton.mp hnew]
      simp only [callRef, World.setTx_self]
      exact Nat.le_refl _
  · intro j
    by_cases hji : j = i
    · subst hji
      simp only [World.setTx_self]
      refine ⟨?_, ?_, List.suffix_rfl, ?_, ?_⟩
      · intro n call hcall
        have hn : n < finished.length := (List.getElem?_eq_some_iff.mp hcall).1
        refine (hinserted ⟨j, n⟩ ?_).trans (hold.accepted n call hcall)
        intro heq
        cases heq
        exact Nat.lt_irrefl _ hn
      · intro _ _ _ ht
        cases ht
        have hsofar := hold.current held finished _ rfl
        simp only [World.insertedBy] at hsofar ⊢
        rw [hrows, List.filter_append, List.map_append, hsofar]
        simp [Stage.created, newProviderEvent]
      · exact fun call hcall e he => (hold.stored call hcall e he).mono (fun t ht _ => hkept t ht) hmono
      · intro e he
        rcases hold.covers e he with ⟨u, hu, hkey⟩ | hhas
        · rcases List.mem_cons.mp hu with rfl | hrest
          · refine Or.inr ⟨⟨newProviderEvent params purgeAfter id u, callRef j finished⟩, ?_, ?_,
              Or.inl rfl⟩
            · rw [hrows]
              exact List.mem_append_right _ (List.mem_singleton_self _)
            · exact ProviderEvent.provider_mem_keys.mpr ⟨rfl, hkey⟩
          · exact Or.inl ⟨u, hrest, hkey⟩
        · exact Or.inr (hhas.mono (fun t ht _ => hkept t ht) hmono)
    · simp only [World.setTx_other w _ hji]
      refine (hw.txOk j).mono (fun n => ?_) (fun t ht _ => hkept t ht) hmono
      refine hinserted ⟨j, n⟩ fun heq => ?_
      cases heq
      exact hji rfl
  · intro o ho
    obtain ⟨t, ht, hnames, htx'⟩ := hw.handed o ho
    exact ⟨t, hkept t ht, hnames, htx'⟩
  · intro t ht
    rcases List.mem_append.mp (hrows ▸ ht) with hmem | hnew
    · have hcounted := hw.counted t hmem
      by_cases hji : t.call.tx = i
      · rw [hji, htx] at hcounted
        simp only [hji, World.setTx_self, Tx.stage, Stage.unqueued, List.mem_append,
          List.mem_singleton, hfresh t hmem, or_false]
        exact hcounted
      · simp only [World.setTx_other w _ hji]
        exact hcounted
    · rw [List.mem_singleton.mp hnew]
      simp only [callRef, World.setTx_self, Tx.stage, Stage.unqueued, newProviderEvent,
        List.mem_append, List.mem_singleton, or_true, if_true]
      rw [List.countP_eq_zero]
      intro o ho
      simpa using hunnamed o ho

/-- The outbox row of an event that has none. -/
theorem journaled_createOutboxEvent {w : World} {i : TxId} {held : Bool} {finished : List Finished}
    {params : JournalProviderEventsParams} {created rest : List Id} {event id : Id} {now : Date}
    {outbox : OutboxTable} (hw : Journaled w)
    (htx : w.tx i = .active held finished (.queueing params created (event :: rest)))
    (hins : w.outbox.insert? ⟨receivedEvent params event id now, callRef i finished⟩ = some outbox) :
    Journaled { w.setTx i (.active held finished (.queueing params created rest)) with
      outbox := outbox } := by
  have hrows := (Table.insert?_eq_some.mp hins).2
  have hold := hw.txOk i
  rw [htx] at hold
  -- The event is a row of this call, and it is not named twice.
  have hsuffix : event :: rest <:+ created := hold.suffix
  have hcreated := hold.current held finished _ rfl
  obtain ⟨t₀, ht₀, hcall₀, hid₀⟩ := mem_insertedBy.mp
    (show event ∈ w.insertedBy (callRef i finished) by
      rw [hcreated]
      exact hsuffix.subset List.mem_cons_self)
  have hnodup : (event :: rest).Nodup := by
    refine hsuffix.sublist.nodup ?_
    exact (show w.insertedBy (callRef i finished) = created from hcreated) ▸ nodup_insertedBy w _
  refine ⟨?_, ?_, ?_, ?_⟩
  · exact fun t ht => tx_setTx (·.Reaches t.call.index) (by rw [htx]; exact fun h => h)
      (hw.reached t ht)
  · have hmono : ∀ j, (w.tx j).isCommitted = true →
        ((w.setTx i (.active held finished (.queueing params created rest))).tx j).isCommitted
          = true := by
      exact fun j hj => tx_setTx (·.isCommitted = true) (by rw [htx]; exact fun h => h) hj
    intro j
    by_cases hji : j = i
    · subst hji
      simp only [World.setTx_self]
      refine TxOk.mono ⟨hold.accepted, ?_, ?_, hold.stored, hold.covers⟩ (fun _ => rfl)
        (fun _ ht _ => ht) hmono
      · intro _ _ _ ht
        cases ht
        exact hcreated
      · exact (List.suffix_cons event rest).trans hsuffix
    · simp only [World.setTx_other w _ hji]
      exact (hw.txOk j).mono (fun _ => rfl) (fun _ ht _ => ht) hmono
  · intro o ho
    rcases List.mem_append.mp (hrows ▸ ho) with hmem | hnew
    · exact hw.handed o hmem
    · rw [List.mem_singleton.mp hnew]
      exact ⟨t₀, ht₀, by simp [hid₀], by rw [hcall₀]⟩
  · intro t ht
    have hcounted := hw.counted t ht
    show outbox.rows.countP _ = _
    rw [hrows, List.countP_append, List.countP_singleton]
    by_cases hid : event = t.row.id
    · have hsame : t = t₀ := eq_of_id ht ht₀ (hid.symm.trans hid₀.symm)
      have hji : t.call.tx = i := by rw [hsame, hcall₀]; rfl
      rw [hji, htx, ← hid] at hcounted
      simp only [Tx.stage, Stage.unqueued, List.mem_cons_self, if_true] at hcounted
      simp only [hji, World.setTx_self, Tx.stage, Stage.unqueued, ← hid,
        (List.nodup_cons.mp hnodup).1, if_false, hcounted, names_receivedEvent, if_true]
    · simp only [names_receivedEvent, hid, if_false, Nat.add_zero]
      by_cases hji : t.call.tx = i
      · rw [hji, htx] at hcounted
        simp only [Tx.stage, Stage.unqueued, List.mem_cons, Ne.symm hid, false_or] at hcounted
        simp only [hji, World.setTx_self, Tx.stage, Stage.unqueued]
        exact hcounted
      · simp only [World.setTx_other w _ hji]
        exact hcounted

/-- A rollback takes the rows of its transaction away and no other. -/
theorem journaled_rollback {w : World} {i : TxId} {held : Bool} {finished : List Finished}
    {stage : Stage} (hw : Journaled w) (htx : w.tx i = .active held finished stage) :
    Journaled { w.setTx i .rolledBack with
      events := w.events.retain fun t => t.call.tx ≠ i
      outbox := w.outbox.retain fun t => t.call.tx ≠ i } := by
  refine ⟨?_, ?_, ?_, ?_⟩
  · intro t ht
    obtain ⟨hmem, hne⟩ := Table.mem_retain.mp ht
    simp only [World.setTx_other w _ (of_decide_eq_true hne)]
    exact hw.reached t hmem
  · intro j
    by_cases hji : j = i
    · subst hji
      simp only [World.setTx_self]
      refine ⟨?_, ?_, List.suffix_rfl, ?_, trivial⟩
      · intro n call hcall
        simp [Tx.finished] at hcall
      · intro _ _ _ ht
        cases ht
      · intro call hcall
        cases hcall
    · simp only [World.setTx_other w _ hji]
      refine (hw.txOk j).mono (fun n => ?_) (fun t ht howner => ?_) (fun k hk => ?_)
      · simp only [World.insertedBy, Table.retain, List.filter_filter]
        congr 1
        refine List.filter_congr fun t _ => ?_
        by_cases hc : t.call = ⟨j, n⟩
        · simp [hc, hji]
        · simp [hc]
      · refine Table.mem_retain.mpr ⟨ht, decide_eq_true ?_⟩
        rcases howner with heq | hcommitted
        · rw [heq]
          exact hji
        · intro heq
          rw [heq, htx] at hcommitted
          cases hcommitted
      · by_cases hki : k = i
        · rw [hki, htx] at hk
          cases hk
        · simpa [World.setTx_other w _ hki] using hk
  · intro o ho
    obtain ⟨hmem, hne⟩ := Table.mem_retain.mp ho
    obtain ⟨t, ht, hnames, htx'⟩ := hw.handed o hmem
    exact ⟨t, Table.mem_retain.mpr ⟨ht, by rw [htx']; exact hne⟩, hnames, htx'⟩
  · intro t ht
    obtain ⟨hmem, hne⟩ := Table.mem_retain.mp ht
    simp only [World.setTx_other w _ (of_decide_eq_true hne)]
    rw [← hw.counted t hmem]
    simp only [Table.retain, List.countP_filter]
    refine List.countP_congr fun o ho => ?_
    -- What names an event is of the same transaction.
    have hsame : names t.row.id o.row = true → o.call.tx ≠ i := by
      intro hnames
      obtain ⟨t', ht', hnames', htx'⟩ := hw.handed o ho
      rw [← htx', ← eq_of_id hmem ht' (eq_of_names hnames hnames')]
      exact of_decide_eq_true hne
    simp only [Bool.and_eq_true, decide_eq_true_eq]
    constructor
    · exact fun h => h.1
    · exact fun h => ⟨h, hsame h⟩

/-- Every step keeps the invariant. -/
theorem journaled_step {w w' : World} {a : Action} (hw : Journaled w) (h : step w a = some w') :
    Journaled w' := by
  cases a with
  | journalProviderEvents i params now =>
      simp only [step] at h
      split at h
      next hidle =>
        cases h
        have hnext : w.insertedBy ⟨i, ([] : List Finished).length + 1⟩ = [] :=
          insertedBy_of_not_reaches hw (by rw [hidle]; exact id)
        have hbegin := txOk_begin hw hidle false
        split
        next hempty =>
          refine journaled_setTx hw (by rw [hidle]; exact fun _ h => h.elim) (fun _ => rfl)
            (by rw [hidle]; rfl) ?_
          have hstored : ∀ e ∈ params.events, HasKey w i params e := by
            rw [hempty]
            exact fun e he => by cases he
          have hreturned : TxOk w i (.active false [emptyCall params] .between) :=
            txOk_returned hbegin rfl hstored hnext
          exact txOk_commit hreturned
        · refine journaled_setTx hw (by rw [hidle]; exact fun _ h => h.elim)
            (by rw [hidle]; exact fun h => by cases h) ?_ (txOk_startCall hbegin hnext params now)
          rw [hidle, unqueued_startCall]
          rfl
      · cases h
  | begin i =>
      simp only [step] at h
      split at h
      next hidle =>
        cases h
        exact journaled_setTx hw (by rw [hidle]; exact fun _ h => h.elim)
          (by rw [hidle]; exact fun h => by cases h) (by rw [hidle]; rfl) (txOk_begin hw hidle true)
      · cases h
  | call i params now =>
      simp only [step] at h
      split at h
      next finished htx =>
        cases h
        have hok := hw.txOk i
        rw [htx] at hok
        refine journaled_setTx hw ?_ (by rw [htx]; exact fun h => by cases h) ?_
          (txOk_startCall hok (insertedBy_next hw htx) params now)
        · rw [htx]
          exact reaches_startCall
        · rw [htx, unqueued_startCall]
          rfl
      · cases h
  | insert i id =>
      simp only [step, stepInsert] at h
      split at h
      next held finished params purgeAfter event rest created htx =>
        split at h
        next t hfound =>
          split at h
          next howner =>
            cases h
            have hok := hw.txOk i
            rw [htx] at hok
            refine journaled_setTx hw (by rw [htx]; exact fun _ h => h)
              (by rw [htx]; exact fun h => by cases h) (by rw [htx]; rfl) ?_
            have hcurrent := hok.current held finished _ rfl
            refine ⟨hok.accepted, ?_, List.suffix_rfl, hok.stored, ?_⟩
            · intro _ _ _ ht
              cases ht
              exact hcurrent
            · intro e he
              obtain ⟨hmem, hkey⟩ := Table.find?_eq_some.mp hfound
              rcases hok.covers e he with ⟨u, hu, hukey⟩ | hhas
              · rcases List.mem_cons.mp hu with rfl | hrest
                · exact Or.inr ⟨t, hmem, hukey ▸ hkey, howner.symm⟩
                · exact Or.inl ⟨u, hrest, hukey⟩
              · exact Or.inr hhas
          · cases h
        · obtain ⟨events, hins, rfl⟩ := Option.map_eq_some_iff.mp h
          exact journaled_insert hw htx hins
      · cases h
  | inserted i =>
      simp only [step] at h
      split at h
      next held finished params purgeAfter created htx =>
        cases h
        have hok := hw.txOk i
        rw [htx] at hok
        refine journaled_setTx hw (by rw [htx]; exact fun _ h => h)
          (by rw [htx]; exact fun h => by cases h) (by rw [htx]; rfl) ?_
        have hcurrent := hok.current held finished _ rfl
        refine ⟨hok.accepted, ?_, List.suffix_rfl, hok.stored, ?_⟩
        · intro _ _ _ ht
          cases ht
          exact hcurrent
        · intro e he
          rcases hok.covers e he with ⟨u, hu, _⟩ | hhas
          · cases hu
          · exact hhas
      · cases h
  | createOutboxEvent i id now =>
      simp only [step, stepCreateOutboxEvent] at h
      split at h
      next htx =>
        obtain ⟨outbox, hins, rfl⟩ := Option.map_eq_some_iff.mp h
        exact journaled_createOutboxEvent hw htx hins
      · cases h
  | returns i =>
      simp only [step] at h
      split at h
      next held finished params created htx =>
        cases h
        have hok := hw.txOk i
        rw [htx] at hok
        refine journaled_setTx hw ?_ (by rw [htx]; exact fun h => by cases h) (by rw [htx]; rfl)
          (txOk_returned hok rfl hok.covers (insertedBy_next hw htx))
        intro n hn
        rw [htx] at hn
        simp only [Tx.Reaches, List.length_append, List.length_singleton] at hn ⊢
        omega
      · cases h
  | commit i =>
      simp only [step] at h
      split at h
      next held finished htx =>
        cases h
        have hok := hw.txOk i
        rw [htx] at hok
        exact journaled_setTx hw (by rw [htx]; exact fun _ h => h) (fun _ => rfl)
          (by rw [htx]; rfl) (txOk_commit hok)
      · cases h
  | rollback i =>
      simp only [step] at h
      split at h
      next htx =>
        cases h
        exact journaled_rollback hw htx
      · cases h

theorem journaled_init : Journaled World.init where
  reached t ht := by cases ht
  txOk i := by
    refine ⟨?_, ?_, List.suffix_rfl, ?_, trivial⟩
    · intro n call hcall
      simp [World.init, Tx.finished] at hcall
    · intro _ _ _ ht
      cases ht
    · intro call hcall
      cases hcall
  handed o ho := by cases ho
  counted t ht := by cases ht

end Vynor.Journal
