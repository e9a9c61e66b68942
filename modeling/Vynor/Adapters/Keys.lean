import Vynor.Adapters.Reports

/-!
# Keys

Two events under one key are taken for one event, and the second is dropped.
WhatsApp, the Custom API and the web chat put the id and the status of what they
report into the key, Messenger and Instagram do so for most events, and Telegram
and LINE number their events.  What the second event reports is then what the
first one does (`sameReports_of_key`), unless a key is cut or its parts run into
each other.
-/

namespace Vynor.Adapters

open Lib (Json)

/-! ## Labelled texts -/

/-- A list is split at the first place of a separator in one way. -/
theorem append_cons_inj_first {α : Type} {x : α} : ∀ {as bs cs ds : List α}, x ∉ as → x ∉ bs →
    as ++ x :: cs = bs ++ x :: ds → as = bs ∧ cs = ds
  | [], [], _, _, _, _, h => ⟨rfl, (List.cons.inj h).2⟩
  | [], b :: bs, _, _, _, hb, h => by
      cases (List.cons.inj h).1
      exact absurd List.mem_cons_self hb
  | a :: as, [], _, _, ha, _, h => by
      cases (List.cons.inj h).1
      exact absurd List.mem_cons_self ha
  | a :: as, b :: bs, _, _, ha, hb, h => by
      obtain ⟨rfl, htail⟩ := List.cons.inj h
      obtain ⟨rfl, hrest⟩ := append_cons_inj_first (fun hmem => ha (List.mem_cons_of_mem _ hmem))
        (fun hmem => hb (List.mem_cons_of_mem _ hmem)) htail
      exact ⟨rfl, hrest⟩

/-- The text has no colon. -/
def HasNoColon (text : String) : Prop := ':' ∉ text.toList

instance (text : String) : Decidable (HasNoColon text) := inferInstanceAs (Decidable (_ ∉ _))

theorem toList_joined (a b : String) : (a ++ ":" ++ b).toList = a.toList ++ ':' :: b.toList := by
  simp [String.toList_append]

/-- A text before a colon, and what follows it. -/
theorem joined_inj_first {a b s t : String} (ha : HasNoColon a) (hb : HasNoColon b)
    (h : a ++ ":" ++ s = b ++ ":" ++ t) : a = b ∧ s = t := by
  have hlists := congrArg String.toList h
  rw [toList_joined, toList_joined] at hlists
  obtain ⟨hfirst, hrest⟩ := append_cons_inj_first ha hb hlists
  exact ⟨String.toList_inj.mp hfirst, String.toList_inj.mp hrest⟩

/-- A text after a colon, and what comes before it. -/
theorem joined_inj_last {a b s t : String} (hs : HasNoColon s) (ht : HasNoColon t)
    (h : a ++ ":" ++ s = b ++ ":" ++ t) : a = b ∧ s = t := by
  have hlists := congrArg (fun text => text.toList.reverse) h
  simp only [toList_joined, List.reverse_append, List.reverse_cons, List.append_assoc,
    List.singleton_append] at hlists
  obtain ⟨hlast, hrest⟩ := append_cons_inj_first
    (List.mem_reverse.not.mpr hs) (List.mem_reverse.not.mpr ht) hlists
  exact ⟨String.toList_inj.mp (List.reverse_inj.mp hrest),
    String.toList_inj.mp (List.reverse_inj.mp hlast)⟩

/-- The same behind a label. -/
theorem labelled_inj {label a b s t : String} (ha : HasNoColon a) (hb : HasNoColon b)
    (h : label ++ a ++ ":" ++ s = label ++ b ++ ":" ++ t) : a = b ∧ s = t := by
  have hrest : label ++ (a ++ ":" ++ s) = label ++ (b ++ ":" ++ t) := by
    simpa only [String.append_assoc] using h
  exact joined_inj_first ha hb ((String.append_right_inj label).mp hrest)

/-- The label a key begins with. -/
def labelOf (key : String) : List Char := key.toList.takeWhile (· ≠ ':')

theorem message_ne_status {id id' state : String} :
    "msg:" ++ id ≠ "status:" ++ id' ++ ":" ++ state := by
  intro h
  have hlists := congrArg String.toList h
  simp at hlists

/-- The names an object literal has something under. -/
theorem hasNoColon_of_lookup {name : String} {mapped : Looked DeliveryStatus}
    (h : lookup STATUS_MAP name = some mapped) : HasNoColon name := by
  have hstatus : ∀ name ∈ STATUS_MAP.map Prod.fst, HasNoColon name := by decide
  have hinherited : ∀ name ∈ INHERITED, HasNoColon name := by decide
  by_cases hmem : name ∈ STATUS_MAP.map Prod.fst
  · exact hstatus name hmem
  · rw [lookup_of_not_mem hmem] at h
    split at h
    · next hname => exact hinherited name hname
    · cases h

/-! ## Keys that are cut -/

/-- The key is not cut. -/
def Uncut (key : String) : Prop := (codeUnits key).length ≤ MAX_KEY_LENGTH

theorem cutKey_of_uncut {key : String} (h : Uncut key) : cutKey key = codeUnits key :=
  List.take_of_length_le h

theorem cutKey_inj {key key' : String} (h : Uncut key) (h' : Uncut key')
    (heq : cutKey key = cutKey key') : key = key' := by
  rw [cutKey_of_uncut h, cutKey_of_uncut h'] at heq
  exact codeUnits_injective heq

theorem length_cutKey_le (key : String) : (cutKey key).length ≤ MAX_KEY_LENGTH :=
  List.length_take_le _ _

/-! ## Each adapter -/

namespace WhatsApp

theorem told_ofMessage {e : ExtractedEvent} {id : String} (he : OfMessage e id)
    (h : told e.payload ≠ []) : told e.payload = [(id, none)] := by
  simp only [told, he.noStatus, he.id] at h ⊢
  cases hsender : truthy (asString (prop (asRecord (prop e.payload "message")) "from")) with
  | none =>
      rw [hsender] at h
      exact absurd rfl h
  | some sender => rfl

/-- A status that is reported is one that is tracked. -/
theorem told_ofStatus {e : ExtractedEvent} {id state : String} (he : OfStatus e id state)
    (h : told e.payload ≠ []) :
    ∃ mapped, lookup STATUS_MAP state = some mapped ∧ told e.payload = [(id, some mapped)] := by
  have hid := (Option.filter_eq_some_iff.mp he.id).1
  have hstate := (Option.filter_eq_some_iff.mp he.state).1
  simp only [told, he.hasStatus, if_true, hid, hstate, Option.getD_some] at h ⊢
  cases hmapped : lookup STATUS_MAP state with
  | none =>
      rw [hmapped] at h
      exact absurd rfl h
  | some mapped => exact ⟨mapped, rfl, rfl⟩

/-- The id is the rest of the key, or what comes before the state, which has no
colon. -/
theorem told_eq_of_key {batch batch' : Json} {e e' : ExtractedEvent} (he : e ∈ extractEvents batch)
    (he' : e' ∈ extractEvents batch') (hkey : e.providerEventKey = e'.providerEventKey)
    (h : told e.payload ≠ []) (h' : told e'.payload ≠ []) : told e.payload = told e'.payload := by
  obtain ⟨id, hmessage⟩ | ⟨id, state, hstatus⟩ := ofMessage_or_ofStatus he
  · obtain ⟨id', hmessage'⟩ | ⟨id', state', hstatus'⟩ := ofMessage_or_ofStatus he'
    · rw [hmessage.key, hmessage'.key] at hkey
      have hid : id = id' := (String.append_right_inj "msg:").mp (codeUnits_injective hkey)
      rw [told_ofMessage hmessage h, told_ofMessage hmessage' h', hid]
    · rw [hmessage.key, hstatus'.key] at hkey
      exact absurd (codeUnits_injective hkey) message_ne_status
  · obtain ⟨id', hmessage'⟩ | ⟨id', state', hstatus'⟩ := ofMessage_or_ofStatus he'
    · rw [hstatus.key, hmessage'.key] at hkey
      exact absurd (codeUnits_injective hkey).symm message_ne_status
    · obtain ⟨mapped, hmapped, htold⟩ := told_ofStatus hstatus h
      obtain ⟨mapped', hmapped', htold'⟩ := told_ofStatus hstatus' h'
      rw [hstatus.key, hstatus'.key] at hkey
      obtain ⟨hid, hstate⟩ := joined_inj_last (hasNoColon_of_lookup hmapped)
        (hasNoColon_of_lookup hmapped') (codeUnits_injective hkey)
      have hid : id = id' := (String.append_right_inj "status:").mp hid
      rw [hstate, hmapped'] at hmapped
      cases hmapped
      rw [htold, htold', hid]

end WhatsApp

namespace Messaging

/-- What an event is about. -/
inductive Kind where
  | message
  | postback
  | delivery
  | read
  | reaction
deriving DecidableEq, Repr

/-- The member of an event of this kind. -/
def Kind.name : Kind → String
  | .message => "message"
  | .postback => "postback"
  | .delivery => "delivery"
  | .read => "read"
  | .reaction => "reaction"

/-- The event is of this kind and of no other. -/
def OfKind (event : Record) (kind : Kind) : Prop :=
  ∀ k : Kind, isTruthy (prop event k.name) = decide (k = kind)

/-- The record of the kind. -/
def part (event : Record) (kind : Kind) : Record := asRecord (prop event kind.name)

/-- The key of an event of this kind names the sender in between. -/
def Kind.namesSender : Kind → Bool
  | .message => false
  | .postback => false
  | .delivery => true
  | .read => true
  | .reaction => true

/-- What a key is put together of can be told apart. -/
structure Plain (event : Record) (kind : Kind) : Prop where
  ofKind : OfKind event kind
  sender : kind.namesSender = true → ∀ sender, senderId event = some sender → HasNoColon sender
  action : kind = .reaction → HasNoColon (shown (asString (prop (part event .reaction) "action")))
  timestamp : kind = .reaction → HasNoColon (shownTimestamp event)
  mid : kind = .read → asString (prop (part event .read) "mid") ≠ some ""

/-- The key of an event of a kind, as far as it has one. -/
def kindKey (event : Record) (sender : String) : Kind → Option String
  | .message => (truthy (asString (prop (part event .message) "mid"))).map fun mid => "mid:" ++ mid
  | .postback =>
      some ("postback:" ++ (asString (prop (part event .postback) "mid")).getD
        (sender ++ ":" ++ shownTimestamp event))
  | .delivery =>
      some ("delivery:" ++ sender ++ ":" ++
        shown ((asString (prop (part event .delivery) "watermark")).or
          (asString (prop event "timestamp"))))
  | .read =>
      some ("read:" ++ sender ++ ":" ++
        shown (((asString (prop (part event .read) "mid")).or
          (asString (prop (part event .read) "watermark"))).or (asString (prop event "timestamp"))))
  | .reaction => some (reactionKey event sender)

/-- What the results of an event of a kind report. -/
def kindTold (event : Record) (sender : String) : Kind → List Report
  | .message =>
      (truthy (asString (prop (part event .message) "mid"))).toList.map fun id => (id, none)
  | .postback =>
      [((asString (prop (part event .postback) "mid")).getD
        ("postback:" ++ sender ++ ":" ++ shownTimestamp event), none)]
  | .delivery => (receiptIds (part event .delivery)).map fun id => (id, some (.own .delivered))
  | .read => (receiptIds (part event .read)).map fun id => (id, some (.own .read))
  | .reaction =>
      [("reaction:" ++ (asString (prop (part event .reaction) "mid")).getD "" ++ ":" ++ sender ++ ":" ++
        shownTimestamp event, none)]

/-- The word of a key for the kind. -/
def Kind.label : Kind → String
  | .message => "mid"
  | .postback => "postback"
  | .delivery => "delivery"
  | .read => "read"
  | .reaction => "reaction"

/-- Two events that can be compared: each is of one kind and plain, both have an
id or neither has one where the key or the report can do without, and receipts list
the same ids. -/
structure Comparable (event event' : Record) : Prop where
  plain : ∃ kind, Plain event kind
  plain' : ∃ kind, Plain event' kind
  form : ∀ kind, kind ≠ .message → kind ≠ .delivery →
    (asString (prop (part event kind) "mid")).isSome =
      (asString (prop (part event' kind) "mid")).isSome
  mids : ∀ kind, kind = .delivery ∨ kind = .read →
    mids (part event kind) = mids (part event' kind)
  delivered : asString (prop (part event .delivery) "mid") =
    asString (prop (part event' .delivery) "mid")

section Keys

variable {event event' : Record} {kind : Kind} {sender sender' key : String}

theorem eventKey_ofKind (h : OfKind event kind)
    (hsender : senderId event = some sender) (hkey : eventKey event = some key) :
    kindKey event sender kind = some key := by
  have hmessage : isTruthy (prop event "message") = decide (Kind.message = kind) := h .message
  have hpostback : isTruthy (prop event "postback") = decide (Kind.postback = kind) := h .postback
  have hdelivery : isTruthy (prop event "delivery") = decide (Kind.delivery = kind) := h .delivery
  have hread : isTruthy (prop event "read") = decide (Kind.read = kind) := h .read
  have hreaction : isTruthy (prop event "reaction") = decide (Kind.reaction = kind) := h .reaction
  simp only [eventKey, hmessage, hpostback, hdelivery, hread, hreaction, hsender,
    Option.getD_some] at hkey
  cases kind with
  | message =>
      simp only [decide_true, if_true] at hkey
      split at hkey
      · cases hkey
      · exact hkey
  | postback => exact hkey
  | delivery => exact hkey
  | read => exact hkey
  | reaction => exact hkey

theorem orNullish_of_falsy {value other : Option Json} (h : isTruthy value = false) :
    asRecord (orNullish value other) = asRecord other ∨ asRecord (orNullish value other) = [] := by
  cases value with
  | none => exact .inl rfl
  | some value =>
      cases value with
      | null => exact .inl rfl
      | bool b => exact .inr rfl
      | number n => exact .inr rfl
      | string s => exact .inr rfl
      | array items => exact .inr rfl
      | object members => cases h

theorem orNullish_of_truthy {value other : Option Json} (h : isTruthy value = true) :
    orNullish value other = value := by
  cases value with
  | none => cases h
  | some value =>
      cases value with
      | null => cases h
      | bool b => rfl
      | number n => rfl
      | string s => rfl
      | array items => rfl
      | object members => rfl

theorem told_ofKind (h : OfKind event kind)
    (hsender : truthy (senderId event) = some sender) (htold : told event ≠ []) :
    told event = kindTold event sender kind := by
  have hpostback : isTruthy (prop event "postback") = decide (Kind.postback = kind) := h .postback
  have hdelivery : isTruthy (prop event "delivery") = decide (Kind.delivery = kind) := h .delivery
  have hread : isTruthy (prop event "read") = decide (Kind.read = kind) := h .read
  have hreaction : isTruthy (prop event "reaction") = decide (Kind.reaction = kind) := h .reaction
  simp only [told, hsender, isReceipt, messageId, hpostback, hdelivery, hread, hreaction] at htold ⊢
  cases kind with
  | message => rfl
  | postback => rfl
  | delivery =>
      rw [orNullish_of_truthy hdelivery]
      rfl
  | read =>
      obtain hrecord | hrecord := @orNullish_of_falsy _ (prop event "read") hdelivery
      · rw [hrecord]
        rfl
      · rw [hrecord] at htold
        exact absurd rfl htold
  | reaction => rfl

theorem Kind.label_injective : Function.Injective Kind.label := by
  intro k k' h
  cases k with
  | message =>
      cases k' with
      | message => rfl
      | _ => exact absurd h (by decide)
  | postback =>
      cases k' with
      | postback => rfl
      | _ => exact absurd h (by decide)
  | delivery =>
      cases k' with
      | delivery => rfl
      | _ => exact absurd h (by decide)
  | read =>
      cases k' with
      | read => rfl
      | _ => exact absurd h (by decide)
  | reaction =>
      cases k' with
      | reaction => rfl
      | _ => exact absurd h (by decide)

theorem labelOf_kindKey (h : kindKey event sender kind = some key) :
    labelOf key = kind.label.toList := by
  cases kind with
  | message =>
      obtain ⟨mid, _, rfl⟩ := Option.map_eq_some_iff.mp h
      simp [labelOf, Kind.label]
  | postback =>
      cases h
      simp [labelOf, Kind.label]
  | delivery =>
      cases h
      simp [labelOf, Kind.label]
  | read =>
      cases h
      simp [labelOf, Kind.label]
  | reaction =>
      cases h
      unfold reactionKey
      simp [labelOf, Kind.label]

/-- Two receipts are about the same ids if they list the same, and otherwise have
one watermark. -/
theorem receiptIds_eq {receipt receipt' : Record} (hmids : mids receipt = mids receipt')
    (hmid : truthy (asString (prop receipt "mid")) = truthy (asString (prop receipt' "mid")))
    (hwatermark : truthy (asString (prop receipt "mid")) = none →
      ∀ w w', truthy (asString (prop receipt "watermark")) = some w →
        truthy (asString (prop receipt' "watermark")) = some w' → w = w')
    (h : receiptIds receipt ≠ []) (h' : receiptIds receipt' ≠ []) :
    receiptIds receipt = receiptIds receipt' := by
  unfold receiptIds at h h' ⊢
  rw [← hmids, ← hmid] at h' ⊢
  generalize hids : mids receipt ++ (truthy (asString (prop receipt "mid"))).toList = ids at h h' ⊢
  cases ids with
  | cons id ids => rfl
  | nil =>
      have hnone : truthy (asString (prop receipt "mid")) = none :=
        Option.toList_eq_nil_iff.mp (List.append_eq_nil_iff.mp hids).2
      cases hw : truthy (asString (prop receipt "watermark")) with
      | none =>
          rw [hw] at h
          exact absurd rfl h
      | some w =>
          cases hw' : truthy (asString (prop receipt' "watermark")) with
          | none =>
              rw [hw'] at h'
              exact absurd rfl h'
          | some w' => rw [hwatermark hnone w w' hw hw']

/-- Two texts that may be missing are both missing, or neither is. -/
theorem both_of_isSome_eq {text text' : Option String} (h : text.isSome = text'.isSome) :
    (text = none ∧ text' = none) ∨ ∃ s s', text = some s ∧ text' = some s' := by
  cases text with
  | none => exact .inl ⟨rfl, Option.not_isSome_iff_eq_none.mp (by simp [← h])⟩
  | some s =>
      obtain ⟨s', hs'⟩ := Option.isSome_iff_exists.mp h.symm
      exact .inr ⟨s, s', rfl, hs'⟩

/-- A text that is not empty. -/
theorem truthy_of_ne {text : Option String} (h : text ≠ some "") : truthy text = text := by
  cases text with
  | none => rfl
  | some s =>
      have hne : s ≠ "" := fun heq => h (congrArg some heq)
      simp [truthy, Option.filter, hne]

/-- The watermark of a receipt in its key. -/
theorem watermark_eq {watermark watermark' other other' : Option String} {w w' : String}
    (hkey : shown (watermark.or other) = shown (watermark'.or other')) (hw : truthy watermark = some w)
    (hw' : truthy watermark' = some w') : w = w' := by
  rw [(Option.filter_eq_some_iff.mp hw).1, (Option.filter_eq_some_iff.mp hw').1] at hkey
  exact hkey

theorem reactionKey_inj (hplain : Plain event .reaction)
    (hplain' : Plain event' .reaction) (hcolon : HasNoColon sender) (hcolon' : HasNoColon sender')
    (h : reactionKey event sender = reactionKey event' sender') :
    shown (asString (prop (part event .reaction) "mid")) =
        shown (asString (prop (part event' .reaction) "mid")) ∧
      sender = sender' ∧ shownTimestamp event = shownTimestamp event' := by
  unfold reactionKey at h
  obtain ⟨h, htimestamp⟩ := joined_inj_last (hplain.timestamp rfl) (hplain'.timestamp rfl) h
  obtain ⟨h, _⟩ := joined_inj_last (hplain.action rfl) (hplain'.action rfl) h
  obtain ⟨h, hsender⟩ := joined_inj_last hcolon hcolon' h
  exact ⟨(String.append_right_inj "reaction:").mp h, hsender, htimestamp⟩

/-- Two plain events of a kind with one key report the same. -/
theorem kindTold_eq (hplain : Plain event kind) (hplain' : Plain event' kind)
    (hpair : Comparable event event')
    (hsender : senderId event = some sender) (hsender' : senderId event' = some sender')
    (hkey : kindKey event sender kind = some key) (hkey' : kindKey event' sender' kind = some key)
    (h : kindTold event sender kind ≠ []) (h' : kindTold event' sender' kind ≠ []) :
    kindTold event sender kind = kindTold event' sender' kind := by
  have hcolon (hnames : kind.namesSender = true) : HasNoColon sender ∧ HasNoColon sender' :=
    ⟨hplain.sender hnames sender hsender, hplain'.sender hnames sender' hsender'⟩
  have hform (hmessage : kind ≠ .message) (hdelivery : kind ≠ .delivery) :=
    both_of_isSome_eq (hpair.form kind hmessage hdelivery)
  have heq := hkey.trans hkey'.symm
  cases kind with
  | message =>
      obtain ⟨mid, hmid, rfl⟩ := Option.map_eq_some_iff.mp hkey
      obtain ⟨mid', hmid', hlabelled⟩ := Option.map_eq_some_iff.mp hkey'
      have hids : mid' = mid := (String.append_right_inj "mid:").mp hlabelled
      simp only [kindTold, hmid, hmid', hids]
  | postback =>
      have htexts := (String.append_right_inj "postback:").mp (Option.some.inj heq)
      obtain ⟨hnone, hnone'⟩ | ⟨mid, mid', hsome, hsome'⟩ := hform nofun nofun
      · rw [hnone, hnone'] at htexts
        have hids : "postback:" ++ sender ++ ":" ++ shownTimestamp event =
            "postback:" ++ sender' ++ ":" ++ shownTimestamp event' := by
          simpa only [String.append_assoc, Option.getD_none] using congrArg ("postback:" ++ ·) htexts
        simp only [kindTold, hnone, hnone', Option.getD_none, hids]
      · rw [hsome, hsome'] at htexts
        simp only [kindTold, hsome, hsome']
        exact congrArg (fun id => [(id, none)]) htexts
  | delivery =>
      obtain ⟨hsenderColon, hsenderColon'⟩ := hcolon rfl
      obtain ⟨_, hrest⟩ := labelled_inj hsenderColon hsenderColon' (Option.some.inj heq)
      have hids := receiptIds_eq (hpair.mids .delivery (.inl rfl)) (congrArg truthy hpair.delivered)
        (fun _ w w' hw hw' => watermark_eq hrest hw hw')
        (fun hnil => h (by simp [kindTold, hnil])) (fun hnil => h' (by simp [kindTold, hnil]))
      simp only [kindTold, hids]
  | read =>
      obtain ⟨hsenderColon, hsenderColon'⟩ := hcolon rfl
      obtain ⟨_, hrest⟩ := labelled_inj hsenderColon hsenderColon' (Option.some.inj heq)
      have hmid := truthy_of_ne (hplain.mid rfl)
      have hids := receiptIds_eq (hpair.mids .read (.inr rfl)) ?_ ?_
        (fun hnil => h (by simp [kindTold, hnil])) (fun hnil => h' (by simp [kindTold, hnil]))
      · simp only [kindTold, hids]
      · obtain ⟨hnone, hnone'⟩ | ⟨mid, mid', hsome, hsome'⟩ := hform nofun nofun
        · rw [hnone, hnone']
        · rw [hsome, hsome'] at hrest ⊢
          exact congrArg (fun mid => truthy (some mid)) hrest
      · intro hnone w w' hw hw'
        rw [hmid] at hnone
        obtain ⟨_, hnone'⟩ | ⟨mid, mid', hsome, _⟩ := hform nofun nofun
        · rw [hnone, hnone'] at hrest
          exact watermark_eq hrest hw hw'
        · rw [hsome] at hnone
          cases hnone
  | reaction =>
      obtain ⟨hsenderColon, hsenderColon'⟩ := hcolon rfl
      obtain ⟨hmids, rfl, htimestamp⟩ :=
        reactionKey_inj hplain hplain' hsenderColon hsenderColon' (Option.some.inj heq)
      obtain ⟨hnone, hnone'⟩ | ⟨mid, mid', hsome, hsome'⟩ := hform nofun nofun
      · simp only [kindTold, hnone, hnone', htimestamp]
      · rw [hsome, hsome'] at hmids
        simp only [kindTold, hsome, hsome', Option.getD_some, htimestamp]
        exact congrArg (fun mid => [("reaction:" ++ mid ++ ":" ++ sender ++ ":" ++
          shownTimestamp event', none)]) hmids

/-- What reports has a sender. -/
theorem exists_sender (h : told event ≠ []) : ∃ sender, truthy (senderId event) = some sender := by
  cases hsender : truthy (senderId event) with
  | none => exact absurd (by rw [told, hsender]) h
  | some sender => exact ⟨sender, rfl⟩

/-- Two events that can be compared report the same under one key. -/
theorem told_eq_of_eventKey (hpair : Comparable event event')
    (hkey : eventKey event = some key) (hkey' : eventKey event' = some key) (h : told event ≠ [])
    (h' : told event' ≠ []) : told event = told event' := by
  obtain ⟨kind, hplain⟩ := hpair.plain
  obtain ⟨kind', hplain'⟩ := hpair.plain'
  obtain ⟨sender, hsender⟩ := exists_sender h
  obtain ⟨sender', hsender'⟩ := exists_sender h'
  have hid := (Option.filter_eq_some_iff.mp hsender).1
  have hid' := (Option.filter_eq_some_iff.mp hsender').1
  have hkind := eventKey_ofKind hplain.ofKind hid hkey
  have hkind' := eventKey_ofKind hplain'.ofKind hid' hkey'
  have hlabel : kind = kind' := Kind.label_injective
    (String.toList_inj.mp ((labelOf_kindKey hkind).symm.trans (labelOf_kindKey hkind')))
  subst hlabel
  have htold := told_ofKind hplain.ofKind hsender h
  have htold' := told_ofKind hplain'.ofKind hsender' h'
  rw [htold] at h ⊢
  rw [htold'] at h' ⊢
  exact kindTold_eq hplain hplain' hpair hid hid' hkind hkind' h h'

end Keys

end Messaging

namespace Telegram

/-- Two deliveries of one update. -/
structure SameUpdate (payload payload' : Record) : Prop where
  callbackQuery : prop payload "callback_query" = prop payload' "callback_query"
  message : prop payload "message" = prop payload' "message"

theorem told_eq_of_sameUpdate {payload payload' : Record} (h : SameUpdate payload payload') :
    told payload = told payload' := by
  simp only [told, h.callbackQuery, h.message]

/-- The key of an update is short. -/
theorem length_key_le {batch : Json} {e : ExtractedEvent} (he : e ∈ extractEvents batch) :
    e.providerEventKey.length ≤ MAX_KEY_LENGTH := by
  obtain ⟨updateId, _, hkey⟩ := exists_of_mem_extractEvents he
  have hnumber := Lib.length_numberText_le updateId
  have hunits := length_codeUnits_le ("update:" ++ Lib.numberText updateId)
  rw [String.length_append, show "update:".length = 7 from rfl] at hunits
  rw [hkey, MAX_KEY_LENGTH]
  omega

end Telegram

namespace Line

/-- Two deliveries of one event. -/
structure SameEvent (payload payload' : Record) : Prop where
  type : prop payload "type" = prop payload' "type"
  source : prop payload "source" = prop payload' "source"
  message : prop payload "message" = prop payload' "message"

theorem told_eq_of_key {batch batch' : Json} {e e' : ExtractedEvent} (he : e ∈ extractEvents batch)
    (he' : e' ∈ extractEvents batch') (hkey : e.providerEventKey = e'.providerEventKey)
    (hsame : SameEvent e.payload e'.payload) : told e.payload = told e'.payload := by
  obtain ⟨id, hid, hevent⟩ := exists_of_mem_extractEvents he
  obtain ⟨id', hid', hevent'⟩ := exists_of_mem_extractEvents he'
  rw [hevent, hevent'] at hkey
  have hids : id = id' := (String.append_right_inj "event:").mp (codeUnits_injective hkey)
  have htext := (Option.filter_eq_some_iff.mp hid).1
  have htext' := (Option.filter_eq_some_iff.mp hid').1
  simp only [told, hsame.type, hsame.source, hsame.message, htext, htext', hids]

end Line

namespace CustomApi

section Keys

variable {payload : Record} {messageId : String}

theorem itemKey_status
    (hid : truthy (asString (prop payload "messageId")) = some messageId)
    (htype : asString (prop payload "type") = some "status") :
    itemKey payload = some ("status:" ++ messageId ++ ":" ++
      (asString (prop payload "status")).getD "unknown") := by
  rw [itemKey, hid, htype]
  rfl

theorem itemKey_message
    (hid : truthy (asString (prop payload "messageId")) = some messageId)
    (htype : asString (prop payload "type") ≠ some "status") :
    itemKey payload = some ("msg:" ++ messageId) := by
  have hmessage : (asString (prop payload "type")).getD "message" ≠ "status" := by
    cases htext : asString (prop payload "type") with
    | none => decide
    | some type => exact fun heq => htype (htext.trans (congrArg some heq))
  rw [itemKey, hid, Option.map_some, if_neg hmessage]

theorem told_status
    (hid : truthy (asString (prop payload "messageId")) = some messageId)
    (htype : asString (prop payload "type") = some "status") (h : told payload ≠ []) :
    ∃ status mapped, asString (prop payload "status") = some status ∧
      lookup STATUS_MAP status = some mapped ∧ told payload = [(messageId, some mapped)] := by
  simp only [told, hid, htype, if_true] at h ⊢
  cases hstatus : asString (prop payload "status") with
  | none =>
      rw [hstatus] at h
      exact absurd rfl h
  | some status =>
      rw [hstatus] at h
      cases hmapped : lookup STATUS_MAP status with
      | none =>
          rw [Option.getD_some, hmapped] at h
          exact absurd rfl h
      | some mapped =>
          refine ⟨status, mapped, rfl, hmapped, ?_⟩
          rw [Option.getD_some, hmapped]
          rfl

theorem told_message
    (hid : truthy (asString (prop payload "messageId")) = some messageId)
    (htype : asString (prop payload "type") ≠ some "status") (h : told payload ≠ []) :
    told payload = [(messageId, none)] := by
  simp only [told, hid, if_neg htype] at h ⊢
  split at h
  · rfl
  · exact absurd rfl h

/-- The key of an item that reports is its id, with a status that has no colon
after it. -/
theorem told_eq_of_itemKey {payload' : Record} {key : String} (hkey : itemKey payload = some key)
    (hkey' : itemKey payload' = some key)
    (h : told payload ≠ []) (h' : told payload' ≠ []) : told payload = told payload' := by
  obtain ⟨messageId, hid, _⟩ := Option.map_eq_some_iff.mp hkey
  obtain ⟨messageId', hid', _⟩ := Option.map_eq_some_iff.mp hkey'
  by_cases htype : asString (prop payload "type") = some "status"
  · obtain ⟨status, mapped, hstatus, hmapped, htold⟩ := told_status hid htype h
    by_cases htype' : asString (prop payload' "type") = some "status"
    · obtain ⟨status', mapped', hstatus', hmapped', htold'⟩ := told_status hid' htype' h'
      rw [itemKey_status hid htype, hstatus] at hkey
      rw [itemKey_status hid' htype', hstatus', ← hkey] at hkey'
      obtain ⟨hlabelled, rfl⟩ := joined_inj_last (hasNoColon_of_lookup hmapped')
        (hasNoColon_of_lookup hmapped) (Option.some.inj hkey')
      have hids : messageId' = messageId := (String.append_right_inj "status:").mp hlabelled
      cases hmapped.symm.trans hmapped'
      rw [htold, htold', hids]
    · rw [itemKey_status hid htype] at hkey
      rw [itemKey_message hid' htype', ← hkey] at hkey'
      exact absurd (Option.some.inj hkey') message_ne_status
  · by_cases htype' : asString (prop payload' "type") = some "status"
    · rw [itemKey_message hid htype] at hkey
      rw [itemKey_status hid' htype', ← hkey] at hkey'
      exact absurd (Option.some.inj hkey').symm message_ne_status
    · rw [itemKey_message hid htype] at hkey
      rw [itemKey_message hid' htype', ← hkey] at hkey'
      have hids : messageId' = messageId :=
        (String.append_right_inj "msg:").mp (Option.some.inj hkey')
      rw [told_message hid htype h, told_message hid' htype' h', hids]

end Keys

end CustomApi

namespace Webchat

/-- The id of a message is its key without the label. -/
theorem told_record {message : WebchatVisitorMessage} (h : told message.record ≠ []) :
    told message.record = [(message.visitorId ++ ":" ++ message.clientMessageId, none)] := by
  obtain ⟨hvisitorId, hclientMessageId, _⟩ := asString_record message
  simp only [told, hvisitorId, hclientMessageId] at h ⊢
  split at h
  · next visitorId clientMessageId text hv hc _ =>
      cases (Option.filter_eq_some_iff.mp hv).1
      cases (Option.filter_eq_some_iff.mp hc).1
      rfl
  · exact absurd rfl h

theorem told_eq_of_messageKey {message message' : WebchatVisitorMessage}
    (hkey : messageKey message = messageKey message') (h : told message.record ≠ [])
    (h' : told message'.record ≠ []) : told message.record = told message'.record := by
  have hid : message.visitorId ++ ":" ++ message.clientMessageId =
      message'.visitorId ++ ":" ++ message'.clientMessageId := by
    simp only [messageKey, String.append_assoc] at hkey ⊢
    exact (String.append_right_inj "msg:").mp hkey
  rw [told_record h, told_record h', hid]

/-- The keys of the messages the endpoint accepts are not cut. -/
theorem uncut_of_request {request : WebchatMessageRequest} {sentAt : String}
    {message : WebchatVisitorMessage} (h : request.event sentAt = webchatEventFor message) :
    Uncut (messageKey message) := by
  have hpayload : (request.event sentAt).payload = message.record :=
    congrArg ExtractedEvent.payload h
  obtain ⟨hvisitorId, hclientMessageId, _⟩ := asString_record message
  rw [← hpayload] at hvisitorId hclientMessageId
  have hvisitorId : request.visitorId = message.visitorId :=
    Option.some.inj ((asString_record _).1.symm.trans hvisitorId)
  have hclientMessageId : request.clientMessageId = message.clientMessageId :=
    Option.some.inj ((asString_record _).2.1.symm.trans hclientMessageId)
  have hvisitor := length_visitorId_le request.visitorId_pattern
  have hclient := length_clientMessageId_le request.clientMessageId_pattern
  have hlabel : (codeUnits "msg:").length = 4 := by decide
  have hcolon : (codeUnits ":").length = 1 := by decide
  rw [Uncut, MAX_KEY_LENGTH, messageKey, ← hvisitorId, ← hclientMessageId]
  simp only [codeUnits_append, List.length_append]
  omega

end Webchat

/-! ## All adapters -/

/-- The events an adapter extracts from its webhooks. -/
def Extracted (provider : ChannelProviderType) (e : ExtractedEvent) : Prop :=
  match provider with
  | .whatsappCloud => ∃ payload, e ∈ WhatsApp.extractEvents payload
  | .metaMessenger =>
      ∃ payload, e ∈ Messaging.extractMessagingEvents payload Messaging.MESSENGER_OBJECT
  | .metaInstagram =>
      ∃ payload, e ∈ Messaging.extractMessagingEvents payload Messaging.INSTAGRAM_OBJECT
  | .telegramBot => ∃ payload, e ∈ Telegram.extractEvents payload
  -- emails are fetched
  | .emailSmtpImap => False
  | .lineMessaging => ∃ payload, e ∈ Line.extractEvents payload
  | .webchatEmbed => ∃ message, e = Webchat.webchatEventFor message
  | .customWebhook => ∃ payload, e ∈ CustomApi.extractEvents payload

/-- The key of an event is all that its adapter puts together. -/
def UncutEvent (provider : ChannelProviderType) (e : ExtractedEvent) : Prop :=
  match provider with
  | .metaMessenger => ∀ key, Messaging.eventKey e.payload = some key → Uncut key
  | .metaInstagram => ∀ key, Messaging.eventKey e.payload = some key → Uncut key
  | .webchatEmbed =>
      ∀ message, e = Webchat.webchatEventFor message → Uncut (Webchat.messageKey message)
  | .customWebhook => ∀ key, CustomApi.itemKey e.payload = some key → Uncut key
  | _ => True

/-- What two events under one key have to have in common besides. -/
def Comparable (provider : ChannelProviderType) (e e' : ExtractedEvent) : Prop :=
  match provider with
  | .metaMessenger => Messaging.Comparable e.payload e'.payload
  | .metaInstagram => Messaging.Comparable e.payload e'.payload
  -- these number their events
  | .telegramBot => Telegram.SameUpdate e.payload e'.payload
  | .lineMessaging => Line.SameEvent e.payload e'.payload
  | _ => True

/-- Each result of the one is reported by the other. -/
def SameReports (results results' : List NormalizedInboundResult) : Prop :=
  ∀ report, report ∈ reports results ↔ report ∈ reports results'

theorem SameReports.of_told {results results' : List NormalizedInboundResult} {told told' : List Report}
    (h : reports results = told) (h' : reports results' = told') (heq : told = told') :
    SameReports results results' := by
  intro report
  rw [h, h', heq]

namespace Messaging

theorem length_key_le {batch : Json} {expectedObject : String} {e : ExtractedEvent}
    (he : e ∈ extractMessagingEvents batch expectedObject) :
    e.providerEventKey.length ≤ MAX_KEY_LENGTH := by
  obtain ⟨key, _, hkey⟩ := exists_of_mem_extractMessagingEvents he
  rw [hkey]
  exact length_cutKey_le key

theorem sameReports {batch batch' : Json} {expectedObject : String} {e e' : ExtractedEvent}
    {context context' : NormalizeContext} {account account' : AdapterAccount}
    {options options' : Options} {now now' : Date} {results results' : List NormalizedInboundResult}
    (he : e ∈ extractMessagingEvents batch expectedObject)
    (he' : e' ∈ extractMessagingEvents batch' expectedObject)
    (hkey : e.providerEventKey = e'.providerEventKey)
    (huncut : ∀ key, eventKey e.payload = some key → Uncut key)
    (huncut' : ∀ key, eventKey e'.payload = some key → Uncut key)
    (hpair : Comparable e.payload e'.payload)
    (hok : normalizeMessagingEvent e.payload context account options now = .ok results)
    (hok' : normalizeMessagingEvent e'.payload context' account' options' now' = .ok results')
    (h : reports results ≠ []) (h' : reports results' ≠ []) : SameReports results results' := by
  obtain ⟨key, hevent, hcut⟩ := exists_of_mem_extractMessagingEvents he
  obtain ⟨key', hevent', hcut'⟩ := exists_of_mem_extractMessagingEvents he'
  rw [hcut, hcut'] at hkey
  cases cutKey_inj (huncut key hevent) (huncut' key' hevent') hkey
  rw [reports_eq_told hok] at h
  rw [reports_eq_told hok'] at h'
  exact .of_told (reports_eq_told hok) (reports_eq_told hok')
    (told_eq_of_eventKey hpair hevent hevent' h h')

end Messaging

/-- Where keys are cut or numbered they are short, and two events under one
uncut key that can be compared report the same, if they report anything. -/
theorem sameReports_of_key (provider : ChannelProviderType) (e e' : ExtractedEvent)
    (he : Extracted provider e) (he' : Extracted provider e') :
    (provider ≠ .whatsappCloud → provider ≠ .lineMessaging →
      e.providerEventKey.length ≤ MAX_KEY_LENGTH) ∧
    ∀ around around' account account' context context' results results',
      e.providerEventKey = e'.providerEventKey → UncutEvent provider e → UncutEvent provider e' →
        Comparable provider e e' →
        normalizeInbound around account context provider e.payload = .ok results →
        normalizeInbound around' account' context' provider e'.payload = .ok results' →
        reports results ≠ [] → reports results' ≠ [] → SameReports results results' := by
  cases provider with
  | whatsappCloud =>
      obtain ⟨batch, he⟩ := he
      obtain ⟨batch', he'⟩ := he'
      refine ⟨fun hne => absurd rfl hne, ?_⟩
      intro _ _ _ _ _ _ results results' hkey _ _ _ hok hok' h h'
      rw [WhatsApp.reports_eq_told hok] at h
      rw [WhatsApp.reports_eq_told hok'] at h'
      exact .of_told (WhatsApp.reports_eq_told hok) (WhatsApp.reports_eq_told hok')
        (WhatsApp.told_eq_of_key he he' hkey h h')
  | metaMessenger | metaInstagram =>
      obtain ⟨batch, he⟩ := he
      obtain ⟨batch', he'⟩ := he'
      refine ⟨fun _ _ => Messaging.length_key_le he, ?_⟩
      intro _ _ _ _ _ _ results results' hkey huncut huncut' hpair hok hok' h h'
      exact Messaging.sameReports he he' hkey huncut huncut' hpair hok hok' h h'
  | telegramBot =>
      obtain ⟨batch, he⟩ := he
      refine ⟨fun _ _ => Telegram.length_key_le he, ?_⟩
      intro _ _ _ _ _ _ results results' _ _ _ hsame hok hok' _ _
      exact .of_told (Telegram.reports_eq_told hok) (Telegram.reports_eq_told hok')
        (Telegram.told_eq_of_sameUpdate hsame)
  | emailSmtpImap => exact he.elim
  | lineMessaging =>
      obtain ⟨batch, he⟩ := he
      obtain ⟨batch', he'⟩ := he'
      refine ⟨fun _ hne => absurd rfl hne, ?_⟩
      intro _ _ _ _ _ _ results results' hkey _ _ hsame hok hok' _ _
      exact .of_told (Line.reports_eq_told hok) (Line.reports_eq_told hok')
        (Line.told_eq_of_key he he' hkey hsame)
  | webchatEmbed =>
      obtain ⟨message, rfl⟩ := he
      obtain ⟨message', rfl⟩ := he'
      refine ⟨fun _ _ => length_cutKey_le _, ?_⟩
      intro _ _ _ _ _ _ results results' hkey huncut huncut' _ hok hok' h h'
      cases hok
      cases hok'
      rw [Webchat.reports_eq_told] at h h'
      exact .of_told Webchat.reports_eq_told Webchat.reports_eq_told
        (Webchat.told_eq_of_messageKey (cutKey_inj (huncut message rfl) (huncut' message' rfl) hkey) h h')
  | customWebhook =>
      obtain ⟨batch, he⟩ := he
      obtain ⟨batch', he'⟩ := he'
      obtain ⟨key, hevent, hcut⟩ := CustomApi.exists_of_mem_extractEvents he
      obtain ⟨key', hevent', hcut'⟩ := CustomApi.exists_of_mem_extractEvents he'
      refine ⟨fun _ _ => hcut ▸ length_cutKey_le key, ?_⟩
      intro _ _ _ _ _ _ results results' hkey huncut huncut' _ hok hok' h h'
      cases hok
      cases hok'
      rw [CustomApi.reports_eq_told] at h h'
      rw [hcut, hcut'] at hkey
      cases cutKey_inj (huncut key hevent) (huncut' key' hevent') hkey
      exact .of_told CustomApi.reports_eq_told CustomApi.reports_eq_told
        (CustomApi.told_eq_of_itemKey hevent hevent' h h')

/-! ## Events under one key -/

/-- A message of the Custom API from a contact of this name. -/
def itemFrom (name : String) : ExtractedEvent where
  providerEventKey := cutKey "msg:m1"
  payload :=
    [("messageId", .string "m1"), ("text", .string "Hi"),
      ("contact", .object [("id", .string "c1"), ("name", .string name)])]

/-- A message posted again under another name. -/
theorem sameReports_itemFrom :
    SameReports
      (CustomApi.normalizeInbound (itemFrom "Ann").payload ⟨"workspace", "channel", "e1", "msg:m1"⟩
        ⟨"", "Support", ""⟩ exampleSurroundings.now)
      (CustomApi.normalizeInbound (itemFrom "Anna").payload ⟨"workspace", "channel", "e2", "msg:m1"⟩
        ⟨"", "Support", ""⟩ exampleSurroundings.now) := by
  have huncut (name : String) : UncutEvent .customWebhook (itemFrom name) := by
    intro key hkey
    cases (show some "msg:m1" = some key from hkey)
    unfold Uncut
    decide
  exact (sameReports_of_key .customWebhook (itemFrom "Ann") (itemFrom "Anna")
    ⟨.object (itemFrom "Ann").payload, List.mem_singleton.mpr rfl⟩
    ⟨.object (itemFrom "Anna").payload, List.mem_singleton.mpr rfl⟩).2
    exampleSurroundings exampleSurroundings _ _ _ _ _ _ rfl (huncut "Ann") (huncut "Anna") trivial
    rfl rfl (by decide) (by decide)

/-- The update number 7, with a private message of this number. -/
def updateSeven (messageId : Rat) : ExtractedEvent where
  providerEventKey := codeUnits ("update:" ++ Lib.numberText 7)
  payload :=
    [("update_id", .number (.finite 7)),
      ("message", .object
        [("message_id", .number (.finite messageId)), ("date", .number (.finite 1700000000)),
          ("chat", .object [("id", .number (.finite 5)), ("type", .string "private")]),
          ("text", .string "Hi")])]

theorem extracted_updateSeven (messageId : Rat) : Extracted .telegramBot (updateSeven messageId) :=
  ⟨.object (updateSeven messageId).payload, List.mem_singleton.mpr rfl⟩

theorem normalizes_updateSeven {messageId : Rat} (h : messageId = 1 ∨ messageId = 2) :
    ∃ results, normalizeInbound exampleSurroundings ⟨"", "Support", ""⟩
      ⟨"workspace", "channel", "e1", "update:7"⟩ .telegramBot (updateSeven messageId).payload =
        .ok results := by
  have hok : (normalizeInbound exampleSurroundings ⟨"", "Support", ""⟩
      ⟨"workspace", "channel", "e1", "update:7"⟩ .telegramBot
        (updateSeven messageId).payload).isOk = true := by
    rcases h with rfl | rfl <;> decide +kernel
  cases hresults : normalizeInbound exampleSurroundings ⟨"", "Support", ""⟩
      ⟨"workspace", "channel", "e1", "update:7"⟩ .telegramBot (updateSeven messageId).payload with
  | error thrown =>
      rw [hresults] at hok
      cases hok
  | ok results => exact ⟨results, rfl⟩

/-- The number of an update is all that its key holds. -/
theorem not_sameReports_of_key : ¬ ∀ provider e e', Extracted provider e → Extracted provider e' →
    e.providerEventKey.length ≤ MAX_KEY_LENGTH ∧
      (e.providerEventKey = e'.providerEventKey → ∀ around account context results results',
        normalizeInbound around account context provider e.payload = .ok results →
          normalizeInbound around account context provider e'.payload = .ok results' →
            SameReports results results') := by
  intro h
  obtain ⟨results, hok⟩ := normalizes_updateSeven (.inl rfl)
  obtain ⟨results', hok'⟩ := normalizes_updateSeven (.inr rfl)
  have hsame := (h .telegramBot (updateSeven 1) (updateSeven 2) (extracted_updateSeven 1)
    (extracted_updateSeven 2)).2 rfl _ _ _ _ _ hok hok' ("5:1", none)
  rw [Telegram.reports_eq_told hok, Telegram.reports_eq_told hok'] at hsame
  revert hsame
  decide +kernel

/-- The delivery of a message, with a watermark. -/
def deliveryOf (mid : String) : Record :=
  [("sender", .object [("id", .string "u1")]),
    ("delivery", .object [("mids", .array [.string mid]), ("watermark", .string "9")])]

-- the key of a delivery leaves out which messages it lists
example : Messaging.eventKey (deliveryOf "m1") = Messaging.eventKey (deliveryOf "m2") ∧
    Messaging.told (deliveryOf "m1") ≠ Messaging.told (deliveryOf "m2") := by
  decide

end Vynor.Adapters
