import Vynor.Conversations.Audit
import Vynor.Conversations.Chats
import Vynor.Conversations.Requests

/-!
# The name of a contact

Whether a contact was renamed by hand is not stored.  `upsertSenderIdentity`
infers it: the name is taken for an automatic one while the contact and its
identity have the same name.  The inference is wrong once the provider sends the
very name that was given by hand, or once a contact is renamed back: the names
agree again, and the next message renames the contact.

`sender_of_alone` says what one call of `ingestMessage` does to the sender's
rows.  `Followed` is what a history of such calls and of manual changes leaves
there, however the inference goes, and from it the exact condition follows.
-/

namespace Vynor.Conversations

open Lib (Table Machine)

/-! ## One call by itself -/

/-- A call of `ingestMessage` from its start to its end, with no other call on
the database. -/
def ingestAlone (db : Db) (request : IngestRequest) (run : List Action) : Option World :=
  if run.all fun a => a.call = 0 then
    (machine.run (World.start db) (.ingest 0 request :: run)).filter fun w => (w.call 0).ended
  else none

/-- The rows of the sender after its message is stored. -/
def SenderStored (db : Db) (request : IngestRequest) (db' : Db) : Prop :=
  ∃ contactId identityId now db₁,
    writeSender db request (findSender db request contactId identityId) now = some db₁ ∧
      db'.contacts = db₁.contacts ∧ db'.identities = db₁.identities

/-- Where a call that runs alone stands: it has stored nothing and goes on with
its request, or it has stored its message. -/
inductive Alone (db : Db) (request : IngestRequest) (w : World) : Prop where
  | unstored : w.db = db → w.log = [] → (w.call 0 ≠ .idle) →
      (∀ r, (w.call 0).request? = some r → r = request) →
      (∀ tx, (w.call 0).tx? = some tx →
        ∃ contactId identityId, tx.sender = findSender db request contactId identityId) →
      ((w.call 0).request? = none → (w.call 0).ended = true) → Alone db request w
  | stored : w.log ≠ [] → (w.call 0).ended = true → SenderStored db request w.db →
      Alone db request w

theorem request?_of_tx? {c : Call} {tx : IngestTx} (h : c.tx? = some tx) :
    c.request? = some tx.request := by
  cases c <;> cases h <;> rfl

/-- A call that has begun an ingest is in it or has ended. -/
theorem ended_of_request?_eq_none {w w' : World} {a : Action} {r : IngestRequest}
    (h : step w a = some w') (hr : (w.call a.call).request? = some r)
    (hnone : (w'.call a.call).request? = none) : (w'.call a.call).ended = true := by
  have hmoved := step_moved h
  generalize w'.call a.call = c at hmoved hnone
  cases hmoved with
  | returns => rfl
  | throws => rfl
  | plansMarkRead hidle | plansSend hidle | plansUpdate hidle =>
      simp only [Action.call, hidle] at hr
      cases hr
  | _ => cases hnone

theorem alone_step {db : Db} {request : IngestRequest} {w w' : World} {a : Action}
    (hI : Alone db request w) (hcall : a.call = 0) (h : step w a = some w') :
    Alone db request w' := by
  have hrunning : (w.call 0).ended = false := hcall ▸ not_ended_of_step h
  cases hI with
  | stored _ hended _ =>
      rw [hended] at hrunning
      cases hrunning
  | unstored hdb hlog hidle hrequest hsender hgoes =>
      have hsome : (w.call 0).request? = some request := by
        cases hr : (w.call 0).request? with
        | none =>
            rw [hgoes hr] at hrunning
            cases hrunning
        | some r => rw [hrequest r hr]
      have hrequest' : ∀ r, (w'.call 0).request? = some r → r = request := by
        intro r hr
        rcases request?_of_step h hr with hold | ⟨_, hwas⟩
        · exact hrequest r hold
        · exact absurd hwas hidle
      have hgoes' : (w'.call 0).request? = none → (w'.call 0).ended = true := by
        rw [← hcall] at hsome ⊢
        exact ended_of_request?_eq_none h hsome
      rcases step_cases h with ⟨hdb', hlog'⟩ | ⟨e, hlog', hcommit⟩
      · refine .unstored (hdb'.trans hdb) (hlog'.trans hlog) (not_idle_of_step h hidle) hrequest'
          (fun tx htx => ?_) hgoes'
        rw [← hcall] at htx
        rcases tx?_of_moved (step_moved h) htx with
          hold | ⟨i, now, contactId, identityId, r, attempt, rfl, rfl⟩
        · rw [hcall] at hold
          exact hsender tx hold
        · have hr : r = request := by
            refine hrequest' r ?_
            rw [← hcall]
            exact request?_of_tx? htx
          exact ⟨contactId, identityId, by rw [hr, hdb]⟩
      · cases hcommit with
        | @ingest i conversationId createdAt assignee tx read replyTo _ _ _ _ hwriting _ =>
            cases hcall
            have htx : (w.call 0).tx? = some tx := by
              rw [hwriting]
              rfl
            obtain ⟨contactId, identityId, hread⟩ := hsender tx htx
            have hr : tx.request = request := hrequest _ (request?_of_tx? htx)
            simp only [step, stepCommitIngest, hwriting] at h
            split at h
            next db₂ result hin =>
              cases h
              obtain ⟨db₁, hwrite, hcontacts, hidentities⟩ := sender_of_ingest hin
              rw [hr, hread, hdb] at hwrite
              refine .stored (by simp) ?_ ⟨contactId, identityId, tx.now, db₁, hwrite, hcontacts,
                hidentities⟩
              simp [Call.ended]
            · cases h
              exact absurd hlog'.symm (List.cons_ne_self _ _)
        | send hother _ | markRead hother _ | update hother _ =>
            cases hcall
            rw [hother] at hsome
            cases hsome

/-- What a call by itself does to the rows of its sender: nothing, or what
`upsertSenderIdentity` writes for the sender as it is. -/
theorem sender_of_alone {db : Db} {request : IngestRequest} {run : List Action} {w : World}
    (h : ingestAlone db request run = some w) :
    w.log = [] ∧ w.db = db ∨ w.log ≠ [] ∧ SenderStored db request w.db := by
  unfold ingestAlone at h
  split at h
  next hcalls =>
    obtain ⟨hrun, _⟩ := Option.filter_eq_some_iff.mp h
    obtain ⟨w₁, hfirst, hrest⟩ := (machine.run_cons_eq_some).mp hrun
    have hbegin : Alone db request w₁ := by
      rw [machine_step] at hfirst
      obtain ⟨hidle, hrequest⟩ := begins_of_ingest hfirst
      simp only [step, World.start] at hfirst
      cases hfirst
      refine .unstored rfl rfl hidle hrequest (fun tx htx => ?_) (fun hnone => ?_)
      · rw [World.setCall_self] at htx
        unfold afterLookup at htx
        split at htx <;> cases htx
      · rw [World.setCall_self] at hnone
        unfold afterLookup at hnone
        split at hnone <;> cases hnone
    have hcalls : ∀ a ∈ run, a.call = 0 := by simpa using hcalls
    have halone : Alone db request w :=
      Machine.invariant_along (M := machine) (P := fun _ a _ => a.call = 0)
        (fun _ _ _ hI hs ha => alone_step hI ha hs) hbegin
        (Machine.along_of_forall (fun a ha _ _ _ => hcalls a ha) w₁) hrest
    cases halone with
    | unstored hdb hlog => exact Or.inl ⟨hlog, hdb⟩
    | stored hlog _ hstored => exact Or.inr ⟨hlog, hstored⟩
  · cases h

/-! ## The sender over a history -/

/-- The contact of a sender. -/
def contactOf (db : Db) (channelId : Id) (identifier : String) : Option Contact :=
  (db.identities.find? (.external channelId identifier)).bind fun identity =>
    db.contacts.find? identity.contactId

/-- A contact under another name. -/
def withName (name : CodeUnits) (c : Contact) : Contact := { c with displayName := name }

theorem keys_withName (name : CodeUnits) (c : Contact) :
    (withName name c).keys = c.keys := rfl

/-- A manual change of `contact.displayName`. -/
def renameContact (db : Db) (contactId : Id) (name : CodeUnits) : Db :=
  { db with
    contacts := db.contacts.updateMany (fun c => c.id = contactId) (withName name)
      (keys_withName name) }

/-- The database with what has happened to one sender. -/
structure History where
  db : Db
  /-- The senders of the messages that were stored, latest first. -/
  ingested : List Sender
  /-- A manual change has given the contact another name. -/
  byHand : Bool

/-- A database that has not seen a sender. -/
structure Unseen (channelId : Id) (identifier : String) where
  db : Db
  absent : db.identities.find? (.external channelId identifier) = none

def Unseen.start {channelId : Id} {identifier : String} (u : Unseen channelId identifier) :
    History := ⟨u.db, [], false⟩

/-- A call that stores its message, one that ends without (a duplicate, or a
failure), or a manual change. -/
inductive NameAction where
  | ingest (request : IngestRequest) (run : List Action)
  | without (request : IngestRequest) (run : List Action)
  | rename (name : CodeUnits)

/-- The message is one of the sender. -/
def IngestRequest.isFrom (channelId : Id) (identifier : String) (request : IngestRequest) : Bool :=
  request.channel.id = channelId && request.message.sender.identifier = identifier

/-- Calls of one sender, one after the other, and manual changes of its
contact's name. -/
def names (channelId : Id) (identifier : String) : Machine History NameAction where
  step h
    | .ingest request run =>
        ((ingestAlone h.db request run).filter fun w =>
          request.isFrom channelId identifier && !w.log.isEmpty).map fun w =>
            { h with db := w.db, ingested := request.message.sender :: h.ingested }
    | .without request run =>
        ((ingestAlone h.db request run).filter fun w =>
          request.isFrom channelId identifier && w.log.isEmpty).map fun w => { h with db := w.db }
    | .rename name =>
        (contactOf h.db channelId identifier).map fun c =>
          { h with
            db := renameContact h.db c.id name
            byHand := h.byHand || name ≠ c.displayName }

/-! ## What a history keeps -/

/-- The first non-empty value that the messages carried, latest message first. -/
def firstValue (field : Sender → Option String) (ingested : List Sender) : Option String :=
  ingested.reverse.findSome? fun sender => truthy (field sender)

/-- E-mail, phone and avatar URL are the first ones the messages carried. -/
structure FirstDetails (ingested : List Sender) (c : Contact) : Prop where
  email : truthy c.email = firstValue Sender.email ingested
  phone : truthy c.phone = firstValue Sender.phone ingested
  avatarUrl : truthy c.avatarUrl = firstValue Sender.avatarUrl ingested

/-- A step keeps the name that was given by hand, and else the name of the latest
message; the details are the first ones. -/
structure KeepsName (channelId : Id) (identifier : String) (h : History) (a : NameAction)
    (h' : History) : Prop where
  automatic : h'.byHand = false → ∀ sender ∈ h'.ingested.head?,
    ∃ c, contactOf h'.db channelId identifier = some c ∧ c.displayName = sender.storedName
  byHand : h.byHand = true → (∀ name, a ≠ .rename name) →
    (contactOf h'.db channelId identifier).map Contact.displayName =
      (contactOf h.db channelId identifier).map Contact.displayName
  details : ∀ c, contactOf h'.db channelId identifier = some c → FirstDetails h'.ingested c

/-- The message that is stored does not find the name given by hand to be the one
of the message before it, or carries that name itself. -/
def LeavesHand (channelId : Id) (identifier : String) (h : History) (a : NameAction) : Prop :=
  match a with
  | .ingest request _ => h.byHand = true → ∀ sender ∈ h.ingested.head?,
      ∀ c, contactOf h.db channelId identifier = some c → c.displayName = sender.storedName →
        request.message.sender.storedName = c.displayName
  | _ => True

/-- What the rows of the sender are after its messages and the manual changes. -/
structure Followed (channelId : Id) (identifier : String) (h : History) : Prop where
  unseen : h.ingested = [] →
    h.db.identities.find? (.external channelId identifier) = none ∧ h.byHand = false
  seen : ∀ sender ∈ h.ingested.head?, ∃ identity c,
    h.db.identities.find? (.external channelId identifier) = some identity ∧
      h.db.contacts.find? identity.contactId = some c ∧
      identity.displayName = sender.storedName ∧
      (h.byHand = false → c.displayName = sender.storedName) ∧ FirstDetails h.ingested c

theorem firstValue_cons (field : Sender → Option String) (sender : Sender) (ingested : List Sender) :
    firstValue field (sender :: ingested) =
      (firstValue field ingested).or (truthy (field sender)) := by
  simp [firstValue, List.findSome?_append, List.findSome?_singleton]

theorem truthy_truthy (s : Option String) : truthy (truthy s) = truthy s := by
  simp [truthy, Option.filter_filter]

/-- A detail that is written where there was none. -/
theorem truthy_detail (read fresh : Option String) :
    truthy (if (truthy read).isNone then (truthy fresh).or read else read) =
      (truthy read).or (truthy fresh) := by
  cases hread : truthy read with
  | some value => simp [hread]
  | none =>
      cases hfresh : truthy fresh with
      | none => simp [hread]
      | some value =>
          have hvalue := truthy_truthy fresh
          rw [hfresh] at hvalue
          simpa using hvalue

theorem details_refreshed {ingested : List Sender} {identity : ContactIdentity} {c : Contact}
    (h : FirstDetails ingested c) (sender : Sender) :
    FirstDetails (sender :: ingested) (refreshed sender identity c c) where
  email := by rw [firstValue_cons, ← h.email]; exact truthy_detail _ _
  phone := by rw [firstValue_cons, ← h.phone]; exact truthy_detail _ _
  avatarUrl := by rw [firstValue_cons, ← h.avatarUrl]; exact truthy_detail _ _

/-! ## What a message does -/

/-- A contact with an automatic name gets the name of the message. -/
theorem displayName_of_automatic {sender : Sender} {identity : ContactIdentity} {c : Contact}
    (hauto : c.displayName = identity.displayName) :
    (refreshed sender identity c c).displayName = sender.storedName := by
  simp only [refreshed]
  split
  · rfl
  next hkept =>
    by_contra hne
    exact hkept ⟨hauto, fun heq => hne heq.symm⟩

/-- A message leaves the name where it is not an automatic one, or its own. -/
theorem displayName_refreshed {sender : Sender} {identity : ContactIdentity} {c : Contact} :
    (refreshed sender identity c c).displayName = c.displayName ↔
      (c.displayName = identity.displayName → sender.storedName = c.displayName) := by
  by_cases hauto : c.displayName = identity.displayName
  · rw [displayName_of_automatic hauto]
    exact ⟨fun heq _ => heq, fun himp => himp hauto⟩
  · have hkept : (refreshed sender identity c c).displayName = c.displayName := by
      simp [refreshed, hauto]
    exact iff_of_true hkept fun hsame => absurd hsame hauto

section Message

variable {channelId : Id} {identifier : String} {db db' : Db} {request : IngestRequest}

theorem key_of_isFrom (h : request.isFrom channelId identifier = true) :
    IdentityKey.external request.channel.id request.message.sender.identifier =
      .external channelId identifier := by
  simp only [IngestRequest.isFrom, Bool.and_eq_true, decide_eq_true_eq] at h
  rw [h.1, h.2]

/-- The first message creates the contact with its name and details. -/
theorem created_of_stored (hfrom : request.isFrom channelId identifier = true)
    (hnew : db.identities.find? (.external channelId identifier) = none)
    (h : SenderStored db request db') :
    ∃ identity c, db'.identities.find? (.external channelId identifier) = some identity ∧
      db'.contacts.find? identity.contactId = some c ∧
      identity.displayName = request.message.sender.storedName ∧
      c.displayName = request.message.sender.storedName ∧
      FirstDetails [request.message.sender] c := by
  obtain ⟨contactId, identityId, now, db₁, hwrite, hcontacts, hidentities⟩ := h
  have hread : findSender db request contactId identityId = ⟨identityId, contactId, none⟩ := by
    simp only [findSender, key_of_isFrom hfrom, hnew]
  rw [hread] at hwrite
  simp only [writeSender] at hwrite
  split at hwrite
  next contacts identities hc hi =>
    cases hwrite
    have hidentity := Table.find?_of_insert? hi (.external channelId identifier)
    rw [if_pos (ContactIdentity.external_mem_keys.mpr
      (IdentityKey.external.inj (key_of_isFrom hfrom)))] at hidentity
    have hcontact := Table.find?_of_insert? hc contactId
    rw [if_pos (by simp [Contact.keys])] at hcontact
    change db'.identities = identities at hidentities
    change db'.contacts = contacts at hcontacts
    rw [← hidentities] at hidentity
    rw [← hcontacts] at hcontact
    refine ⟨_, _, hidentity, hcontact, rfl, rfl, ?_⟩
    constructor <;> simp [firstValue, truthy_truthy, List.findSome?_singleton]
  · cases hwrite

/-- A later message refreshes the rows of its sender. -/
theorem refreshed_of_stored (hfrom : request.isFrom channelId identifier = true)
    {identity : ContactIdentity} {c : Contact}
    (hidentity : db.identities.find? (.external channelId identifier) = some identity)
    (hc : db.contacts.find? identity.contactId = some c) (h : SenderStored db request db') :
    ∃ now, db'.identities.find? (.external channelId identifier) =
        some (seen request.message.sender now identity) ∧
      db'.contacts.find? identity.contactId =
        some (refreshed request.message.sender identity c c) := by
  obtain ⟨contactId, identityId, now, db₁, hwrite, hcontacts, hidentities⟩ := h
  have hread : findSender db request contactId identityId =
      ⟨identity.id, identity.contactId, some (identity, c)⟩ := by
    simp only [findSender, key_of_isFrom hfrom, hidentity, hc, Option.map_some]
  rw [hread] at hwrite
  simp only [writeSender] at hwrite
  cases hwrite
  refine ⟨now, ?_, ?_⟩
  · rw [hidentities, Table.find?_updateMany_of_some hidentity]
    simp
  · rw [hcontacts, Table.find?_updateMany_of_some hc]
    simp [Contact.id_of_find? hc]

end Message

section Steps

variable {channelId : Id} {identifier : String} {h h' : History}

theorem contactOf_eq_some {db : Db} {identity : ContactIdentity} {c : Contact}
    (hidentity : db.identities.find? (.external channelId identifier) = some identity)
    (hc : db.contacts.find? identity.contactId = some c) :
    contactOf db channelId identifier = some c := by
  rw [contactOf, hidentity, Option.bind_some, hc]

/-- What a step does: a message is stored, nothing of the sender changes, or the
contact gets a name. -/
inductive NameStep (channelId : Id) (identifier : String) (h : History) :
    NameAction → History → Prop where
  | ingest {request : IngestRequest} {run : List Action} {db : Db} :
      request.isFrom channelId identifier = true → SenderStored h.db request db →
      NameStep channelId identifier h (.ingest request run)
        { h with db := db, ingested := request.message.sender :: h.ingested }
  | without {request : IngestRequest} {run : List Action} :
      NameStep channelId identifier h (.without request run) h
  | rename {name : CodeUnits} {c : Contact} : contactOf h.db channelId identifier = some c →
      NameStep channelId identifier h (.rename name)
        { h with
          db := renameContact h.db c.id name
          byHand := h.byHand || name ≠ c.displayName }

theorem nameStep_of_step {a : NameAction} (hs : (names channelId identifier).step h a = some h') :
    NameStep channelId identifier h a h' := by
  cases a with
  | ingest request run =>
      obtain ⟨w, hw, rfl⟩ := Option.map_eq_some_iff.mp hs
      obtain ⟨halone, hguard⟩ := Option.filter_eq_some_iff.mp hw
      simp only [Bool.and_eq_true, Bool.not_eq_true', List.isEmpty_eq_false_iff] at hguard
      rcases sender_of_alone halone with ⟨hlog, _⟩ | ⟨_, hstored⟩
      · exact absurd hlog hguard.2
      · exact .ingest hguard.1 hstored
  | without request run =>
      obtain ⟨w, hw, rfl⟩ := Option.map_eq_some_iff.mp hs
      obtain ⟨halone, hguard⟩ := Option.filter_eq_some_iff.mp hw
      simp only [Bool.and_eq_true, List.isEmpty_iff] at hguard
      rcases sender_of_alone halone with ⟨_, hdb⟩ | ⟨hlog, _⟩
      · rw [hdb]
        exact .without
      · exact absurd hguard.2 hlog
  | rename name =>
      obtain ⟨c, hc, rfl⟩ := Option.map_eq_some_iff.mp hs
      exact .rename hc

/-- The rows of a sender that has been seen, after the contact got a name. -/
theorem renamed_rows {db : Db} {identity : ContactIdentity} {c : Contact} (name : CodeUnits)
    (hidentity : db.identities.find? (.external channelId identifier) = some identity)
    (hc : db.contacts.find? identity.contactId = some c) :
    (renameContact db c.id name).identities.find? (.external channelId identifier) =
        some identity ∧
      (renameContact db c.id name).contacts.find? identity.contactId =
        some (withName name c) := by
  refine ⟨hidentity, ?_⟩
  simp [renameContact, Table.find?_updateMany_of_some hc]

/-- Every step leaves the sender followed, and so what it is to keep its name can
be read off the contact. -/
theorem followed_step {a : NameAction} (hI : Followed channelId identifier h)
    (hs : (names channelId identifier).step h a = some h') : Followed channelId identifier h' := by
  cases nameStep_of_step hs with
  | without => exact hI
  | @ingest request run db hfrom hstored =>
      refine ⟨fun hnil => absurd hnil (List.cons_ne_nil _ _), fun sender hsender => ?_⟩
      cases hsender
      cases hlast : h.ingested with
      | nil =>
          obtain ⟨identity, c, hidentity, hc, hname, hcname, hdetails⟩ :=
            created_of_stored hfrom (hI.unseen hlast).1 hstored
          exact ⟨identity, c, hidentity, hc, hname, fun _ => hcname, hlast ▸ hdetails⟩
      | cons before rest =>
          obtain ⟨identity, c, hidentity, hc, hname, hcname, hdetails⟩ :=
            hI.seen before (by rw [hlast]; rfl)
          obtain ⟨now, hidentity', hc'⟩ := refreshed_of_stored hfrom hidentity hc hstored
          refine ⟨_, _, hidentity', hc', rfl, fun hauto => ?_,
            hlast ▸ details_refreshed hdetails _⟩
          exact displayName_of_automatic ((hcname hauto).trans hname.symm)
  | @rename name c₀ hc₀ =>
      refine ⟨fun hnil => ?_, fun sender hsender => ?_⟩
      · rw [contactOf, (hI.unseen hnil).1] at hc₀
        cases hc₀
      obtain ⟨identity, c, hidentity, hc, hname, hcname, hdetails⟩ := hI.seen sender hsender
      rw [contactOf_eq_some hidentity hc] at hc₀
      cases hc₀
      obtain ⟨hidentity', hc'⟩ := renamed_rows name hidentity hc
      refine ⟨identity, _, hidentity', hc', hname, fun hauto => ?_, ?_⟩
      · simp only [Bool.or_eq_false_iff, decide_eq_false_iff_not, not_not] at hauto
        exact hauto.2.trans (hcname hauto.1)
      · exact ⟨hdetails.email, hdetails.phone, hdetails.avatarUrl⟩

/-- A contact of a sender that is followed has the name of the latest message,
unless it was renamed, and the first details. -/
theorem contact_of_followed (hI : Followed channelId identifier h) :
    (h.byHand = false → ∀ sender ∈ h.ingested.head?,
      ∃ c, contactOf h.db channelId identifier = some c ∧ c.displayName = sender.storedName) ∧
    ∀ c, contactOf h.db channelId identifier = some c → FirstDetails h.ingested c := by
  refine ⟨fun hauto sender hsender => ?_, fun c hc => ?_⟩
  · obtain ⟨identity, c, hidentity, hc, _, hname, _⟩ := hI.seen sender hsender
    exact ⟨c, contactOf_eq_some hidentity hc, hname hauto⟩
  · cases hlast : h.ingested with
    | nil =>
        rw [contactOf, (hI.unseen hlast).1] at hc
        cases hc
    | cons sender rest =>
        obtain ⟨identity, c', hidentity, hc', _, _, hdetails⟩ := hI.seen sender (by rw [hlast]; rfl)
        rw [contactOf_eq_some hidentity hc'] at hc
        cases hc
        exact hlast ▸ hdetails

theorem keepsName_iff {a : NameAction} (hI : Followed channelId identifier h)
    (hs : (names channelId identifier).step h a = some h') :
    KeepsName channelId identifier h a h' ↔ LeavesHand channelId identifier h a := by
  obtain ⟨hautomatic, hdetails⟩ := contact_of_followed (followed_step hI hs)
  have hiff : KeepsName channelId identifier h a h' ↔ (h.byHand = true →
      (∀ name, a ≠ .rename name) → (contactOf h'.db channelId identifier).map Contact.displayName =
        (contactOf h.db channelId identifier).map Contact.displayName) :=
    ⟨fun hkeeps => hkeeps.byHand, fun hhand => ⟨hautomatic, hhand, hdetails⟩⟩
  rw [hiff]
  cases nameStep_of_step hs with
  | without => exact iff_of_true (fun _ _ => rfl) trivial
  | rename _ => exact iff_of_true (fun _ hnot => absurd rfl (hnot _)) trivial
  | @ingest request run db hfrom hstored =>
      have hother : ∀ name, NameAction.ingest request run ≠ .rename name := by
        intro name heq
        cases heq
      cases hlast : h.ingested with
      | nil =>
          have hauto := (hI.unseen hlast).2
          refine iff_of_true (fun hb => ?_) fun hb => ?_ <;>
          · rw [hauto] at hb
            cases hb
      | cons before rest =>
          obtain ⟨identity, c, hidentity, hc, hname, _, _⟩ := hI.seen before (by rw [hlast]; rfl)
          obtain ⟨now, hidentity', hc'⟩ := refreshed_of_stored hfrom hidentity hc hstored
          have hafter : contactOf db channelId identifier =
              some (refreshed request.message.sender identity c c) :=
            contactOf_eq_some hidentity' hc'
          have hbefore : contactOf h.db channelId identifier = some c :=
            contactOf_eq_some hidentity hc
          simp only [LeavesHand, hlast, List.head?_cons, Option.mem_some_iff, forall_eq',
            hbefore, Option.some.injEq, hafter, Option.map_some, displayName_refreshed, hname]
          exact ⟨fun hhand hb => hhand hb hother, fun hleaves hb _ => hleaves hb⟩

end Steps

/-! ## Along a history -/

theorem followed_start {channelId : Id} {identifier : String} (u : Unseen channelId identifier) :
    Followed channelId identifier u.start where
  unseen _ := ⟨u.absent, rfl⟩
  seen sender hsender := by cases hsender

/-- In every history of a sender, the contact has the name of the latest message
until a manual change and the name given by hand after it, and the first details,
exactly when no message after a manual change finds the name given by hand to be
that of the message before it, unless it carries that name. -/
theorem along_keepsName_iff {channelId : Id} {identifier : String}
    (u : Unseen channelId identifier) (as : List NameAction) :
    (names channelId identifier).Along (KeepsName channelId identifier) u.start as ↔
      (names channelId identifier).Along (fun h a _ => LeavesHand channelId identifier h a)
        u.start as := by
  refine Machine.along_iff (I := Followed channelId identifier) ?_ ?_ (followed_start u)
  · intro h a h' hI hs
    exact followed_step hI hs
  · intro h a h' hI hs
    exact keepsName_iff hI hs

/-! ## A customer who takes the name she was given -/

/-- A database without rows has seen nobody. -/
def visitorUnseen : Unseen "channel" "visitor" := ⟨World.init.db, rfl⟩

/-- A message of the visitor under a name. -/
def namedRequest (messageId : Id) (name : String) : IngestRequest :=
  { exampleRequest messageId messageId 1 with
    message := { (exampleRequest messageId messageId 1).message with
      sender := { identifier := "visitor", displayName := some name } } }

/-- A call for such a message that finds these open conversations. -/
def namedIngest (messageId : Id) (name : String) (found : List Conversation) : NameAction :=
  .ingest (namedRequest messageId name)
    [.lock 0, .readSender 0 1 "contact" "identity", .readOpen 0 found, .readReplyTarget 0,
      .commitIngest 0 "c" 1 none]

/-- The visitor's conversation after some messages. -/
def afterMessages : Nat → Conversation
  | 0 => newConversation (namedRequest "m1" "Ann") ⟨"identity", "contact", none⟩ "c" 1 none
  | n + 1 => counted (afterMessages n) 1 "Hello" (afterMessages n)

/-- An agent renames the visitor, who then takes that name. -/
def takesName : List NameAction :=
  [namedIngest "m1" "Ann" [], .rename (codeUnits "Annie"), namedIngest "m2" "Annie" [afterMessages 1]]

/-- A customer who has taken the name given by hand, and then takes another one,
is renamed. -/
theorem not_along_keepsName : ¬ ∀ (channelId : Id) (identifier : String)
    (u : Unseen channelId identifier) (as : List NameAction),
    (names channelId identifier).Along (KeepsName channelId identifier) u.start as := by
  intro hall
  have hnames : ((names "channel" "visitor").run visitorUnseen.start takesName).bind (fun h =>
      ((names "channel" "visitor").step h (namedIngest "m3" "Bob" [afterMessages 2])).map fun h' =>
        (h.byHand, (contactOf h.db "channel" "visitor").map Contact.displayName,
          (contactOf h'.db "channel" "visitor").map Contact.displayName)) =
      some (true, some (codeUnits "Annie"), some (codeUnits "Bob")) := by
    decide
  obtain ⟨h, h', hrun, hstep, hview⟩ := Machine.exists_last (f := fun h h' : History =>
    (h.byHand, (contactOf h.db "channel" "visitor").map Contact.displayName,
      (contactOf h'.db "channel" "visitor").map Contact.displayName)) hnames
  simp only [Prod.mk.injEq] at hview
  obtain ⟨hhand, hbefore, hafter⟩ := hview
  have hkeeps : KeepsName "channel" "visitor" h (namedIngest "m3" "Bob" [afterMessages 2]) h' :=
    Machine.Along.last (hall "channel" "visitor" visitorUnseen
      (takesName ++ [namedIngest "m3" "Bob" [afterMessages 2]])) hrun hstep
  have hsame := hkeeps.byHand hhand fun name heq => by cases heq
  rw [hbefore, hafter] at hsame
  revert hsame
  decide

end Vynor.Conversations
