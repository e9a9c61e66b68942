import Vynor.Lib.Machine
import Vynor.Webchat.Visitors

/-!
# The widget

The chat widget on a customer's page shows the messages of its visitor.  It polls
for them, in a chain of polls and timers and once more after each message that is
posted, so several polls can be on their way at once and their answers can come in
any order.  A message that the visitor sends is shown as pending until a poll
brings it back.

Whatever the order, the screen shows what came from the server, each message once
and in the order in which the messages first came.  The badge counts the replies
that came since the widget was closed, a text that was sent stays on the screen,
and the chain of polls does not break (`widget_shows_all`).
-/

namespace Vynor.Webchat

open Lib (Machine)

/-! ## Messages on the screen -/

/-- `WebchatMessage`. -/
structure WebchatMessage where
  id : String
  direction : Direction
  text : String
  senderName : Option String
  createdAt : String
deriving DecidableEq, Repr

/-- A message on the screen.  What the visitor just sent is pending, and has no sender
and no time. -/
structure Bubble where
  id : String
  direction : Direction
  text : String
  senderName : Option String := none
  createdAt : Option String := none
  pending : Bool := false
deriving DecidableEq, Repr

def WebchatMessage.bubble (m : WebchatMessage) : Bubble where
  id := m.id
  direction := m.direction
  text := m.text
  senderName := m.senderName
  createdAt := some m.createdAt

/-- The id of a pending message. -/
def localId (clientMessageId : String) : String := "local_" ++ clientMessageId

/-- A message that was just sent. -/
def pendingBubble (clientMessageId text : String) : Bubble where
  id := localId clientMessageId
  direction := .inbound
  text := text
  pending := true

/-- The pending copy of a message that came back. -/
def Bubble.isCopyOf (x : Bubble) (m : WebchatMessage) : Bool :=
  x.pending && x.direction = .inbound && x.text = m.text && m.direction = .inbound

/-! ## The state -/

/-- What the widget stored under its key. -/
structure Stored where
  visitorId : Option String := none
  visitorToken : Option String := none
  name : Option String := none
deriving DecidableEq, Repr

/-- What goes on once there is a visitor. -/
inductive Goal where
  /-- `then(poll).then(schedule)`. -/
  | poll
  | send (text name : String)
deriving DecidableEq, Repr

/-- The body of a post. -/
structure MessageBody where
  visitorId : String
  clientMessageId : String
  text : String
  pageUrl : CodeUnits
  name : Option String
deriving DecidableEq, Repr

/-- A request that is on its way, or a poll that waits. -/
inductive Task where
  | idle
  | ensuring (visitorId visitorToken : Option String) (goal : Goal)
  | polling (visitor : Session) (after : Option String) (thenSchedule : Bool)
  | posting (body : MessageBody) (visitorToken : Option String)
  /-- `setTimeout(poll, 1200)`. -/
  | waiting

/-- A task that posts a message, or is about to. -/
def Task.sends : Task → Bool
  | .ensuring _ _ (.send _ _) => true
  | .posting _ _ => true
  | _ => false

/-- A poll with a timer after it. -/
def Task.chained : Task → Bool
  | .polling _ _ thenSchedule => thenSchedule
  | _ => false

abbrev TaskId := Nat

/-- `state` of the widget and what is on its way. -/
structure Widget where
  isOpen : Bool := false
  visitor : Option Session := none
  messages : List Bubble := []
  lastSeen : Option String := none
  unread : Nat := 0
  sending : Bool := false
  /-- The timer of `schedule` runs. -/
  timer : Bool := false
  task : TaskId → Task := fun _ => .idle

/-- The messages that came from the server. -/
def Widget.fromServer (w : Widget) : List Bubble := w.messages.filter fun x => !x.pending

/-- What happened so far.  The widget does not read it. -/
structure History where
  received : List WebchatMessage := []
  sent : List String := []
  /-- How many messages from the server there were when the widget was closed. -/
  seen : Nat := 0
  /-- `schedule` ran. -/
  scheduled : Bool := false

structure Page where
  widget : Widget := {}
  history : History := {}

/-! ## What the widget does -/

/-- The same widget with one task at another point. -/
def Widget.setTask (w : Widget) (t : TaskId) (task : Task) : Widget :=
  { w with task := Function.update w.task t task }

/-- One row of an answer. -/
def Widget.receive (w : Widget) (m : WebchatMessage) : Widget :=
  let messages := w.messages.filter fun x => !x.isCopyOf m
  if messages.any fun x => x.id = m.id then
    { w with messages := messages, lastSeen := some m.createdAt }
  else
    { w with
      messages := messages ++ [m.bubble]
      unread := if !w.isOpen && m.direction = .outbound then w.unread + 1 else w.unread
      lastSeen := some m.createdAt }

namespace Page

def receive (p : Page) (m : WebchatMessage) : Page where
  widget := p.widget.receive m
  history := { p.history with received := p.history.received ++ [m] }

/-- The end of a poll, and `schedule` after it. -/
def endPoll (p : Page) (t : TaskId) (thenSchedule : Bool) : Page where
  widget :=
    let w := p.widget.setTask t .idle
    if thenSchedule then { w with timer := true } else w
  history := { p.history with scheduled := p.history.scheduled || thenSchedule }

/-- `poll`, and `schedule` after it.  Without a visitor there is nothing to wait
for. -/
def poll (p : Page) (t : TaskId) (thenSchedule : Bool) : Page :=
  match p.widget.visitor with
  | none => p.endPoll t thenSchedule
  | some v =>
      { p with widget := p.widget.setTask t (.polling v p.widget.lastSeen thenSchedule) }

/-- What a message is posted with: a random id and the address of the page. -/
structure Draft where
  clientMessageId : String
  href : String

/-- What goes on with a visitor. -/
def proceed (p : Page) (t : TaskId) (v : Session) (draft : Draft) : Goal → Page
  | .poll => p.poll t true
  | .send text name =>
      let body : MessageBody :=
        { visitorId := v.visitorId
          clientMessageId := draft.clientMessageId
          text := text
          pageUrl := (codeUnits draft.href).take 2000
          name := truthy (some name) }
      { widget :=
          { p.widget.setTask t (.posting body (p.widget.visitor.map Session.visitorToken)) with
            messages := p.widget.messages ++ [pendingBubble draft.clientMessageId text] }
        history := { p.history with sent := p.history.sent ++ [text] } }

/-- `ensureVisitor().then(...)`. -/
def ensure (p : Page) (t : TaskId) (stored : Option Stored) (draft : Draft) (goal : Goal) : Page :=
  match p.widget.visitor with
  | some v => p.proceed t v draft goal
  | none =>
      let stored := stored.getD {}
      { p with
        widget := p.widget.setTask t (.ensuring stored.visitorId stored.visitorToken goal) }

/-- The `catch` and the last `then` of a submit. -/
def endSend (p : Page) (t : TaskId) (status : Option Nat) : Page :=
  { p with
    widget := { p.widget.setTask t .idle with
      visitor := if status = some 401 then none else p.widget.visitor
      sending := false } }

/-- `toggle`. -/
def toggle (p : Page) (t : TaskId) (isOpen : Bool) (stored : Option Stored) (draft : Draft) :
    Page :=
  if isOpen then
    ({ p with widget := { p.widget with isOpen := true, unread := 0 } } : Page).ensure t stored
      draft .poll
  else
    { widget := { p.widget with isOpen := false }
      history := if p.widget.isOpen then
          { p.history with seen := p.widget.fromServer.length }
        else p.history }

/-- The handler of `submit`. -/
def submit (p : Page) (t : TaskId) (input nameInput : String) (stored : Option Stored)
    (draft : Draft) : Page :=
  let text := trim input
  if text = "" || p.widget.sending then p
  else
    ({ p with widget := { p.widget with sending := true } } : Page).ensure t stored draft
      (.send text (trim nameInput))

end Page

/-- What can happen next.  `load` returns `stored`, which other tabs write too. -/
inductive WidgetAction where
  | configure (t : TaskId) (stored : Option Stored)
  | toggle (t : TaskId) (isOpen : Bool) (stored : Option Stored)
  | submit (t : TaskId) (input nameInput : String) (stored : Option Stored) (draft : Page.Draft)
  | session (t : TaskId) (v : Session) (draft : Page.Draft)
  | sessionFails (t : TaskId) (status : Option Nat)
  | rows (t : TaskId) (rows : List WebchatMessage)
  | pollFails (t : TaskId)
  | posted (t : TaskId)
  | postFails (t : TaskId) (status : Option Nat)
  | wake (t : TaskId)
  | tick (t : TaskId)

namespace Page

/-- Without a message to post there is no draft. -/
def noDraft : Draft := ⟨"", ""⟩

def step (p : Page) : WidgetAction → Option Page
  | .configure t stored =>
      match p.widget.task t with
      | .idle => some (if stored.isSome then p.ensure t stored noDraft .poll else p)
      | _ => none
  | .toggle t isOpen stored =>
      match p.widget.task t with
      | .idle => some (p.toggle t isOpen stored noDraft)
      | _ => none
  | .submit t input nameInput stored draft =>
      match p.widget.task t with
      | .idle => some (p.submit t input nameInput stored draft)
      | _ => none
  | .session t v draft =>
      match p.widget.task t with
      | .ensuring _ _ goal =>
          some (({ p with widget := { p.widget with visitor := some v } } : Page).proceed t v draft
            goal)
      | _ => none
  | .sessionFails t status =>
      match p.widget.task t with
      | .ensuring _ _ .poll => some { p with widget := p.widget.setTask t .idle }
      | .ensuring _ _ (.send _ _) => some (p.endSend t status)
      | _ => none
  | .rows t rows =>
      match p.widget.task t with
      | .polling _ _ thenSchedule => some ((rows.foldl receive p).endPoll t thenSchedule)
      | _ => none
  | .pollFails t =>
      match p.widget.task t with
      | .polling _ _ thenSchedule => some (p.endPoll t thenSchedule)
      | _ => none
  | .posted t =>
      match p.widget.task t with
      | .posting _ _ =>
          some { p with widget := { p.widget.setTask t .waiting with sending := false } }
      | _ => none
  | .postFails t status =>
      match p.widget.task t with
      | .posting _ _ => some (p.endSend t status)
      | _ => none
  | .wake t =>
      match p.widget.task t with
      | .waiting => some (p.poll t false)
      | _ => none
  | .tick t =>
      match p.widget.timer, p.widget.task t with
      | true, .idle =>
          some (({ p with widget := { p.widget with timer := false } } : Page).poll t true)
      | _, _ => none

def machine : Machine Page WidgetAction := { step := step }

/-- What a step does. -/
inductive Moves (p : Page) : WidgetAction → Page → Prop where
  | configures {t stored} : p.widget.task t = .idle →
      Moves p (.configure t (some stored)) (p.ensure t (some stored) noDraft .poll)
  | skips {t} : p.widget.task t = .idle → Moves p (.configure t none) p
  | toggles {t isOpen stored} : p.widget.task t = .idle →
      Moves p (.toggle t isOpen stored) (p.toggle t isOpen stored noDraft)
  | submits {t input nameInput stored draft} : p.widget.task t = .idle →
      Moves p (.submit t input nameInput stored draft) (p.submit t input nameInput stored draft)
  | ensures {t v draft visitorId token goal} :
      p.widget.task t = .ensuring visitorId token goal →
      Moves p (.session t v draft)
        (({ p with widget := { p.widget with visitor := some v } } : Page).proceed t v draft goal)
  | fails {t status visitorId token} : p.widget.task t = .ensuring visitorId token .poll →
      Moves p (.sessionFails t status) { p with widget := p.widget.setTask t .idle }
  | failsToSend {t status visitorId token text name} :
      p.widget.task t = .ensuring visitorId token (.send text name) →
      Moves p (.sessionFails t status) (p.endSend t status)
  | receives {t rows visitor after thenSchedule} :
      p.widget.task t = .polling visitor after thenSchedule →
      Moves p (.rows t rows) ((rows.foldl receive p).endPoll t thenSchedule)
  | misses {t visitor after thenSchedule} :
      p.widget.task t = .polling visitor after thenSchedule →
      Moves p (.pollFails t) (p.endPoll t thenSchedule)
  | posts {t body token} : p.widget.task t = .posting body token →
      Moves p (.posted t)
        { p with widget := { p.widget.setTask t .waiting with sending := false } }
  | failsToPost {t status body token} : p.widget.task t = .posting body token →
      Moves p (.postFails t status) (p.endSend t status)
  | wakes {t} : p.widget.task t = .waiting → Moves p (.wake t) (p.poll t false)
  | ticks {t} : p.widget.timer = true → p.widget.task t = .idle →
      Moves p (.tick t) (({ p with widget := { p.widget with timer := false } } : Page).poll t true)

theorem moves_of_step {p p' : Page} {a : WidgetAction} (hs : p.step a = some p') :
    Moves p a p' := by
  cases a with
  | configure t stored =>
      simp only [step] at hs
      split at hs
      next hidle =>
        cases stored with
        | none =>
            cases hs
            exact .skips hidle
        | some stored =>
            cases hs
            exact .configures hidle
      next => cases hs
  | toggle t isOpen stored =>
      simp only [step] at hs
      split at hs
      next hidle =>
        cases hs
        exact .toggles hidle
      next => cases hs
  | submit t input nameInput stored draft =>
      simp only [step] at hs
      split at hs
      next hidle =>
        cases hs
        exact .submits hidle
      next => cases hs
  | session t v draft =>
      simp only [step] at hs
      split at hs
      next htask =>
        cases hs
        exact .ensures htask
      next => cases hs
  | sessionFails t status =>
      simp only [step] at hs
      split at hs
      next htask =>
        cases hs
        exact .fails htask
      next htask =>
        cases hs
        exact .failsToSend htask
      next => cases hs
  | rows t rows =>
      simp only [step] at hs
      split at hs
      next htask =>
        cases hs
        exact .receives htask
      next => cases hs
  | pollFails t =>
      simp only [step] at hs
      split at hs
      next htask =>
        cases hs
        exact .misses htask
      next => cases hs
  | posted t =>
      simp only [step] at hs
      split at hs
      next htask =>
        cases hs
        exact .posts htask
      next => cases hs
  | postFails t status =>
      simp only [step] at hs
      split at hs
      next htask =>
        cases hs
        exact .failsToPost htask
      next => cases hs
  | wake t =>
      simp only [step] at hs
      split at hs
      next htask =>
        cases hs
        exact .wakes htask
      next => cases hs
  | tick t =>
      simp only [step] at hs
      split at hs
      next htimer hidle =>
        cases hs
        exact .ticks htimer hidle
      next => cases hs

/-! ## What holds between the steps -/

/-- The messages that came, without those that came again. -/
def firstComes (received : List WebchatMessage) : List WebchatMessage :=
  received.foldl (fun shown m => if shown.any fun x => x.id = m.id then shown else shown ++ [m]) []

theorem firstComes_concat (received : List WebchatMessage) (m : WebchatMessage) :
    firstComes (received ++ [m]) = if (firstComes received).any fun x => x.id = m.id then
      firstComes received else firstComes received ++ [m] := by
  rw [firstComes, List.foldl_append]
  rfl

/-- They are among those that came, in their order. -/
theorem firstComes_sublist (received : List WebchatMessage) :
    (firstComes received).Sublist received := by
  induction received using List.reverseRecOn with
  | nil => exact List.Sublist.refl _
  | append_singleton received m ih =>
      rw [firstComes_concat]
      split
      · exact ih.trans (List.sublist_append_left _ _)
      · exact ih.append (List.Sublist.refl _)

/-- Each id comes once. -/
theorem firstComes_nodup (received : List WebchatMessage) :
    ((firstComes received).map WebchatMessage.id).Nodup := by
  induction received using List.reverseRecOn with
  | nil => exact List.nodup_nil
  | append_singleton received m ih =>
      rw [firstComes_concat]
      split
      next => exact ih
      next hnew =>
        rw [List.map_append, List.map_singleton, List.nodup_append]
        refine ⟨ih, List.nodup_singleton _, ?_⟩
        rintro id hid _ hlast rfl
        rw [List.mem_singleton] at hlast
        obtain ⟨x, hx, rfl⟩ := List.mem_map.mp hid
        exact hnew (List.any_eq_true.mpr ⟨x, hx, decide_eq_true hlast⟩)

/-- Whatever came is there, as it first came. -/
theorem exists_firstComes {received : List WebchatMessage} {m : WebchatMessage}
    (hm : m ∈ received) : ∃ x ∈ firstComes received, x.id = m.id := by
  induction received using List.reverseRecOn with
  | nil => cases hm
  | append_singleton received m' ih =>
      rw [firstComes_concat]
      rcases List.mem_append.mp hm with hm | hm
      · obtain ⟨x, hx, hid⟩ := ih hm
        split
        · exact ⟨x, hx, hid⟩
        · exact ⟨x, List.mem_append_left _ hx, hid⟩
      · rw [List.mem_singleton.mp hm]
        split
        next hknown =>
          obtain ⟨x, hx, hid⟩ := List.any_eq_true.mp hknown
          exact ⟨x, hx, of_decide_eq_true hid⟩
        next => exact ⟨m', List.mem_append_right _ List.mem_cons_self, rfl⟩

/-- Messages with one id are one message. -/
structure Genuine (received : List WebchatMessage) : Prop where
  foreign : ∀ m ∈ received, ∀ clientMessageId, m.id ≠ localId clientMessageId
  same : ∀ m ∈ received, ∀ m' ∈ received, m.id = m'.id →
    m.direction = m'.direction ∧ m.text = m'.text

/-- The server answers with messages that have ids of their own and do not change. -/
def Answers (p : Page) (a : WidgetAction) (_ : Page) : Prop :=
  ∀ t rows, a = .rows t rows → Genuine (p.history.received ++ rows)

/-- What is on the screen. -/
structure Screen (p : Page) : Prop where
  genuine : Genuine p.history.received
  pendingLocal : ∀ x ∈ p.widget.messages, x.pending = true → ∃ c, x.id = localId c
  shown : p.widget.fromServer = (firstComes p.history.received).map WebchatMessage.bubble
  seen : p.history.seen ≤ p.widget.fromServer.length
  unread : p.widget.unread = if p.widget.isOpen then 0 else
    (p.widget.fromServer.drop p.history.seen).countP fun x => x.direction = .outbound
  sent : ∀ text ∈ p.history.sent, ∃ x ∈ p.widget.messages, x.direction = .inbound ∧ x.text = text

/-- What is on its way. -/
structure Traffic (p : Page) : Prop where
  sending : ∀ t, (p.widget.task t).sends = true → p.widget.sending = true
  one : ∀ t t', (p.widget.task t).sends = true → (p.widget.task t').sends = true → t = t'
  alive : p.history.scheduled = true →
    p.widget.timer = true ∨ ∃ t, (p.widget.task t).chained = true

theorem screen_init : Screen {} where
  genuine := ⟨fun _ h => (List.not_mem_nil h).elim, fun _ h => (List.not_mem_nil h).elim⟩
  pendingLocal := fun _ h => (List.not_mem_nil h).elim
  shown := rfl
  seen := Nat.le_refl 0
  unread := rfl
  sent := fun _ h => (List.not_mem_nil h).elim

theorem traffic_init : Traffic {} where
  sending := fun _ h => by cases h
  one := fun _ _ h => by cases h
  alive := fun h => by cases h

section Screen

variable {p p' : Page}

/-- The screen is the same. -/
structure Same (p p' : Page) : Prop where
  messages : p'.widget.messages = p.widget.messages
  isOpen : p'.widget.isOpen = p.widget.isOpen
  unread : p'.widget.unread = p.widget.unread
  received : p'.history.received = p.history.received
  seen : p'.history.seen = p.history.seen
  sent : p'.history.sent = p.history.sent

theorem Screen.same (h : Screen p) (hs : Same p p') : Screen p' := by
  have hserver : p'.widget.fromServer = p.widget.fromServer := by
    rw [Widget.fromServer, hs.messages, Widget.fromServer]
  constructor
  · rw [hs.received]
    exact h.genuine
  · rw [hs.messages]
    exact h.pendingLocal
  · rw [hserver, hs.received]
    exact h.shown
  · rw [hserver, hs.seen]
    exact h.seen
  · rw [hserver, hs.seen, hs.unread, hs.isOpen]
    exact h.unread
  · rw [hs.messages, hs.sent]
    exact h.sent

theorem same_endPoll (p : Page) (t : TaskId) (thenSchedule : Bool) :
    Same p (p.endPoll t thenSchedule) := by
  cases thenSchedule <;> exact ⟨rfl, rfl, rfl, rfl, rfl, rfl⟩

theorem same_poll (p : Page) (t : TaskId) (thenSchedule : Bool) :
    Same p (p.poll t thenSchedule) := by
  unfold poll
  split
  · exact same_endPoll p t thenSchedule
  · exact ⟨rfl, rfl, rfl, rfl, rfl, rfl⟩

/-- Taking pending copies away leaves the messages from the server. -/
theorem fromServer_filter (messages : List Bubble) (m : WebchatMessage) :
    (messages.filter fun x => !x.isCopyOf m).filter (fun x => !x.pending) =
      messages.filter fun x => !x.pending := by
  rw [List.filter_filter]
  refine List.filter_congr fun x _ => ?_
  cases hpending : x.pending with
  | true => rfl
  | false => simp only [Bubble.isCopyOf, hpending, Bool.false_and, Bool.not_false, Bool.and_self]

/-- A message is on the screen already if the server sent it before. -/
theorem Screen.any_iff (h : Screen p) {m : WebchatMessage}
    (hm : ∀ clientMessageId, m.id ≠ localId clientMessageId) :
    ((p.widget.messages.filter fun x => !x.isCopyOf m).any fun x => x.id = m.id) = true ↔
      ∃ x ∈ p.widget.fromServer, x.id = m.id := by
  rw [List.any_eq_true]
  constructor
  · rintro ⟨x, hx, hid⟩
    have hid := of_decide_eq_true hid
    obtain ⟨hmem, _⟩ := List.mem_filter.mp hx
    refine ⟨x, List.mem_filter.mpr ⟨hmem, ?_⟩, hid⟩
    cases hpending : x.pending with
    | false => rfl
    | true =>
        obtain ⟨c, hlocal⟩ := h.pendingLocal x hmem hpending
        exact absurd (hid.symm.trans hlocal) (hm c)
  · rintro ⟨x, hx, hid⟩
    rw [Widget.fromServer, ← fromServer_filter _ m] at hx
    exact ⟨x, (List.mem_filter.mp hx).1, decide_eq_true hid⟩

/-- The message a row on the screen was made from. -/
theorem Screen.exists_received (h : Screen p) {x : Bubble} (hx : x ∈ p.widget.fromServer) :
    ∃ m ∈ p.history.received, x = m.bubble := by
  rw [h.shown] at hx
  obtain ⟨m, hm, rfl⟩ := List.mem_map.mp hx
  exact ⟨m, (firstComes_sublist _).subset hm, rfl⟩

/-- A message is on the screen where one with its id came first. -/
theorem Screen.any_firstComes (h : Screen p) (m : WebchatMessage) :
    ((firstComes p.history.received).any fun x => x.id = m.id) = true ↔
      ∃ x ∈ p.widget.fromServer, x.id = m.id := by
  rw [h.shown, List.any_eq_true]
  constructor
  · rintro ⟨x, hx, hid⟩
    exact ⟨x.bubble, List.mem_map_of_mem hx, of_decide_eq_true hid⟩
  · rintro ⟨x, hx, hid⟩
    obtain ⟨m', hm', rfl⟩ := List.mem_map.mp hx
    exact ⟨m', hm', decide_eq_true hid⟩

/-- A text that was sent stays, also where its pending copy goes. -/
theorem Screen.sent_receive (h : Screen p) {m : WebchatMessage} {messages : List Bubble}
    (hkept : ∀ x ∈ p.widget.messages, x.isCopyOf m = false → x ∈ messages)
    (hback : m.direction = .inbound → ∃ x ∈ messages, x.direction = .inbound ∧ x.text = m.text) :
    ∀ text ∈ p.history.sent, ∃ x ∈ messages, x.direction = .inbound ∧ x.text = text := by
  intro text htext
  obtain ⟨x, hx, hdirection, rfl⟩ := h.sent text htext
  cases hcopy : x.isCopyOf m with
  | false => exact ⟨x, hkept x hx hcopy, hdirection, rfl⟩
  | true =>
      simp only [Bubble.isCopyOf, Bool.and_eq_true, decide_eq_true_eq] at hcopy
      obtain ⟨y, hy, hinbound, hsame⟩ := hback hcopy.2
      exact ⟨y, hy, hinbound, hsame.trans hcopy.1.2.symm⟩

/-- A row that is on the screen already takes its pending copies away. -/
theorem Screen.receive_known (h : Screen p) {m : WebchatMessage}
    (hgenuine : Genuine (p.history.received ++ [m])) {x : Bubble} (hx : x ∈ p.widget.fromServer)
    (hid : x.id = m.id)
    (hwidget : (p.receive m).widget =
      { p.widget with
        messages := p.widget.messages.filter fun x => !x.isCopyOf m
        lastSeen := some m.createdAt }) : Screen (p.receive m) := by
  have hserver := fromServer_filter p.widget.messages m
  have hsame : (p.receive m).widget.fromServer = p.widget.fromServer := by
    rw [hwidget]
    exact hserver
  constructor
  · exact hgenuine
  · rw [hwidget]
    intro x hx
    exact h.pendingLocal x (List.mem_filter.mp hx).1
  · change _ = (firstComes (p.history.received ++ [m])).map WebchatMessage.bubble
    rw [hsame, firstComes_concat, if_pos ((h.any_firstComes m).mpr ⟨x, hx, hid⟩)]
    exact h.shown
  · rw [hsame]
    exact h.seen
  · rw [hsame, hwidget]
    exact h.unread
  · rw [hwidget]
    refine h.sent_receive (fun x hx hcopy => List.mem_filter.mpr ⟨hx, by rw [hcopy]; rfl⟩)
      fun hinbound => ?_
    obtain ⟨m', hm', rfl⟩ := h.exists_received hx
    obtain ⟨hdirection, htext⟩ := hgenuine.same m' (List.mem_append_left _ hm') m
      (List.mem_append_right _ List.mem_cons_self) hid
    rw [Widget.fromServer, ← hserver] at hx
    exact ⟨m'.bubble, (List.mem_filter.mp hx).1, hdirection.trans hinbound, htext⟩

/-- The badge after a row that is new. -/
theorem Screen.unread_new (h : Screen p) (m : WebchatMessage) :
    (if !p.widget.isOpen && m.direction = .outbound then p.widget.unread + 1
      else p.widget.unread) =
      if p.widget.isOpen then 0 else
        ((p.widget.fromServer ++ [m.bubble]).drop p.history.seen).countP
          fun x => x.direction = .outbound := by
  have hunread := h.unread
  rw [List.drop_append_of_le_length h.seen, List.countP_append, List.countP_singleton]
  cases hopen : p.widget.isOpen with
  | true =>
      rw [hopen, if_pos rfl] at hunread
      simp only [Bool.not_true, Bool.false_and, Bool.false_eq_true, if_false, if_true, hunread]
  | false =>
      rw [hopen, if_neg Bool.false_ne_true] at hunread
      rw [← hunread]
      cases hdirection : m.direction with
      | inbound => simp [WebchatMessage.bubble, hdirection]
      | outbound => simp [WebchatMessage.bubble, hdirection]

/-- A row that is not on the screen is added to it. -/
theorem Screen.receive_new (h : Screen p) {m : WebchatMessage}
    (hgenuine : Genuine (p.history.received ++ [m]))
    (hnew : ¬ ∃ x ∈ p.widget.fromServer, x.id = m.id)
    (hwidget : (p.receive m).widget =
      { p.widget with
        messages := (p.widget.messages.filter fun x => !x.isCopyOf m) ++ [m.bubble]
        unread := if !p.widget.isOpen && m.direction = .outbound then p.widget.unread + 1
          else p.widget.unread
        lastSeen := some m.createdAt }) : Screen (p.receive m) := by
  have happend : (p.receive m).widget.fromServer = p.widget.fromServer ++ [m.bubble] := by
    rw [hwidget, Widget.fromServer, List.filter_append, fromServer_filter]
    rfl
  constructor
  · exact hgenuine
  · rw [hwidget]
    intro x hx
    rcases List.mem_append.mp hx with hx | hx
    · exact h.pendingLocal x (List.mem_filter.mp hx).1
    · rw [List.mem_singleton.mp hx]
      intro hpending
      cases hpending
  · change _ = (firstComes (p.history.received ++ [m])).map WebchatMessage.bubble
    rw [happend, firstComes_concat, if_neg fun hknown => hnew ((h.any_firstComes m).mp hknown),
      List.map_append, h.shown]
    rfl
  · rw [happend, List.length_append]
    exact Nat.le_trans h.seen (Nat.le_add_right _ _)
  · rw [happend, hwidget]
    exact h.unread_new m
  · rw [hwidget]
    exact h.sent_receive
      (fun x hx hcopy => List.mem_append_left _ (List.mem_filter.mpr ⟨hx, by rw [hcopy]; rfl⟩))
      fun hinbound => ⟨m.bubble, List.mem_append_right _ List.mem_cons_self, hinbound, rfl⟩

theorem Screen.receive (h : Screen p) {m : WebchatMessage}
    (hgenuine : Genuine (p.history.received ++ [m])) : Screen (p.receive m) := by
  have hforeign := hgenuine.foreign m (List.mem_append_right _ List.mem_cons_self)
  cases hany : (p.widget.messages.filter fun x => !x.isCopyOf m).any fun x => x.id = m.id with
  | true =>
      obtain ⟨x, hx, hid⟩ := (h.any_iff hforeign).mp hany
      refine h.receive_known hgenuine hx hid ?_
      simp only [Page.receive, Widget.receive, hany, if_true]
  | false =>
      refine h.receive_new hgenuine ?_ ?_
      · rw [← h.any_iff hforeign, hany]
        exact Bool.false_ne_true
      · simp only [Page.receive, Widget.receive, hany, Bool.false_eq_true, if_false]

/-- The messages of an answer. -/
theorem Genuine.of_append {l l' : List WebchatMessage} (h : Genuine (l ++ l')) : Genuine l where
  foreign := fun m hm => h.foreign m (List.mem_append_left _ hm)
  same := fun m hm m' hm' => h.same m (List.mem_append_left _ hm) m' (List.mem_append_left _ hm')

theorem Screen.rows {rows : List WebchatMessage} (h : Screen p)
    (hgenuine : Genuine (p.history.received ++ rows)) : Screen (rows.foldl Page.receive p) := by
  induction rows generalizing p with
  | nil => exact h
  | cons m rows ih =>
      have hassoc : p.history.received ++ m :: rows = (p.history.received ++ [m]) ++ rows := by
        rw [List.append_assoc, List.singleton_append]
      rw [hassoc] at hgenuine
      exact ih (h.receive hgenuine.of_append) hgenuine

/-- A text that is sent comes to the screen. -/
theorem Screen.proceed (h : Screen p) (t : TaskId) (v : Session) (draft : Draft) (goal : Goal) :
    Screen (p.proceed t v draft goal) := by
  cases goal with
  | poll => exact h.same (same_poll p t true)
  | send text name =>
      have hsame : (p.proceed t v draft (.send text name)).widget.fromServer =
          p.widget.fromServer := by
        change (p.widget.messages ++ [pendingBubble draft.clientMessageId text]).filter _ = _
        rw [List.filter_append]
        exact List.append_nil _
      constructor
      · exact h.genuine
      · intro x hx hpending
        rcases List.mem_append.mp hx with hx | hx
        · exact h.pendingLocal x hx hpending
        · rw [List.mem_singleton.mp hx]
          exact ⟨draft.clientMessageId, rfl⟩
      · rw [hsame]
        exact h.shown
      · rw [hsame]
        exact h.seen
      · rw [hsame]
        exact h.unread
      · intro text' htext'
        rcases List.mem_append.mp htext' with htext' | htext'
        · obtain ⟨x, hx, hinbound⟩ := h.sent text' htext'
          exact ⟨x, List.mem_append_left _ hx, hinbound⟩
        · rw [List.mem_singleton.mp htext']
          exact ⟨pendingBubble draft.clientMessageId text,
            List.mem_append_right _ List.mem_cons_self, rfl, rfl⟩

theorem Screen.ensure (h : Screen p) (t : TaskId) (stored : Option Stored) (draft : Draft)
    (goal : Goal) : Screen (p.ensure t stored draft goal) := by
  unfold Page.ensure
  split
  · exact h.proceed t _ draft goal
  · exact h.same ⟨rfl, rfl, rfl, rfl, rfl, rfl⟩

theorem Screen.toggle (h : Screen p) (t : TaskId) (isOpen : Bool) (stored : Option Stored)
    (draft : Draft) : Screen (p.toggle t isOpen stored draft) := by
  cases isOpen with
  | true =>
      have hopen : Screen { p with widget := { p.widget with isOpen := true, unread := 0 } } :=
        ⟨h.genuine, h.pendingLocal, h.shown, h.seen, rfl, h.sent⟩
      exact hopen.ensure t stored draft .poll
  | false =>
      cases hopen : p.widget.isOpen with
      | true =>
          have hunread := h.unread
          rw [hopen, if_pos rfl] at hunread
          have hclosed : Screen
              { widget := { p.widget with isOpen := false }
                history := { p.history with seen := p.widget.fromServer.length } } := by
            refine ⟨h.genuine, h.pendingLocal, h.shown, Nat.le_refl _, ?_, h.sent⟩
            change p.widget.unread = (p.widget.fromServer.drop _).countP _
            rw [hunread, List.drop_length]
            rfl
          rw [Page.toggle, if_neg Bool.false_ne_true, hopen, if_pos rfl]
          exact hclosed
      | false =>
          rw [Page.toggle, if_neg Bool.false_ne_true, hopen, if_neg Bool.false_ne_true]
          exact h.same ⟨rfl, hopen.symm, rfl, rfl, rfl, rfl⟩

theorem Screen.submit (h : Screen p) (t : TaskId) (input nameInput : String)
    (stored : Option Stored) (draft : Draft) :
    Screen (p.submit t input nameInput stored draft) := by
  unfold Page.submit
  simp only
  split
  · exact h
  · have hsending : Screen { p with widget := { p.widget with sending := true } } :=
      h.same ⟨rfl, rfl, rfl, rfl, rfl, rfl⟩
    exact hsending.ensure t stored draft _

theorem screen_step {a : WidgetAction} (h : Screen p) (hs : p.step a = some p')
    (hanswers : Answers p a p') : Screen p' := by
  have hsame : ∀ {q : Page}, Same p q → Screen q := fun hq => h.same hq
  cases moves_of_step hs with
  | configures _ => exact h.ensure _ _ _ _
  | skips _ => exact h
  | toggles _ => exact h.toggle _ _ _ _
  | submits _ => exact h.submit _ _ _ _ _
  | ensures _ =>
      refine Screen.proceed ?_ _ _ _ _
      exact hsame ⟨rfl, rfl, rfl, rfl, rfl, rfl⟩
  | fails _ => exact hsame ⟨rfl, rfl, rfl, rfl, rfl, rfl⟩
  | failsToSend _ => exact hsame ⟨rfl, rfl, rfl, rfl, rfl, rfl⟩
  | receives _ => exact (h.rows (hanswers _ _ rfl)).same (same_endPoll _ _ _)
  | misses _ => exact h.same (same_endPoll _ _ _)
  | posts _ => exact hsame ⟨rfl, rfl, rfl, rfl, rfl, rfl⟩
  | failsToPost _ => exact hsame ⟨rfl, rfl, rfl, rfl, rfl, rfl⟩
  | wakes _ => exact h.same (same_poll _ _ _)
  | ticks _ _ =>
      refine Screen.same ?_ (same_poll _ _ _)
      exact hsame ⟨rfl, rfl, rfl, rfl, rfl, rfl⟩

end Screen

/-! ## What is on its way -/

section Traffic

variable {p p' : Page} {t : TaskId} {task : Task}

/-- One task moves. -/
theorem Traffic.move (h : Traffic p)
    (htask : p'.widget.task = Function.update p.widget.task t task)
    (hown : task.sends = true → p'.widget.sending = true ∧
      ((p.widget.task t).sends = true ∨ p.widget.sending = false))
    (hothers : p'.widget.sending = false →
      p.widget.sending = false ∨ (p.widget.task t).sends = true)
    (halive : p'.history.scheduled = true →
      p'.widget.timer = true ∨ task.chained = true ∨
        p.history.scheduled = true ∧ p'.widget.timer = p.widget.timer ∧
          (p.widget.task t).chained = false) : Traffic p' := by
  have hbefore : ∀ {s}, s ≠ t → p'.widget.task s = p.widget.task s := by
    intro s hne
    rw [htask, Function.update_of_ne hne]
  have hat : p'.widget.task t = task := by rw [htask, Function.update_self]
  have hnone : ∀ {s}, s ≠ t → (p'.widget.task s).sends = true → task.sends = true → False := by
    intro s hne hs ht
    rw [hbefore hne] at hs
    rcases (hown ht).2 with hsender | hfree
    · exact hne (h.one s t hs hsender)
    · rw [h.sending s hs] at hfree
      cases hfree
  constructor
  · intro s hs
    by_cases hne : s = t
    · rw [hne, hat] at hs
      exact (hown hs).1
    · rw [hbefore hne] at hs
      cases hsending : p'.widget.sending with
      | true => rfl
      | false =>
          rcases hothers hsending with hfree | hsender
          · rw [h.sending s hs] at hfree
            cases hfree
          · exact absurd (h.one s t hs hsender) hne
  · intro s s' hs hs'
    by_cases hne : s = t
    · by_cases hne' : s' = t
      · rw [hne, hne']
      · rw [hne, hat] at hs
        exact (hnone hne' hs' hs).elim
    · by_cases hne' : s' = t
      · rw [hne', hat] at hs'
        exact (hnone hne hs hs').elim
      · rw [hbefore hne] at hs
        rw [hbefore hne'] at hs'
        exact h.one s s' hs hs'
  · intro hscheduled
    rcases halive hscheduled with htimer | hchained | ⟨hold, htimer, hunchained⟩
    · exact Or.inl htimer
    · exact Or.inr ⟨t, by rw [hat, hchained]⟩
    · rcases h.alive hold with hrunning | ⟨s, hs⟩
      · exact Or.inl (htimer.trans hrunning)
      · refine Or.inr ⟨s, ?_⟩
        rw [hbefore fun hne => ?_]
        · exact hs
        · rw [hne, hunchained] at hs
          cases hs

/-- The end of a poll. -/
theorem Traffic.endPoll (h : Traffic p) {thenSchedule : Bool}
    (hchained : (p.widget.task t).chained = true → thenSchedule = true) :
    Traffic (p.endPoll t thenSchedule) := by
  cases thenSchedule with
  | true =>
      refine h.move rfl (fun h => by cases h) (fun hfree => Or.inl hfree) fun _ => Or.inl rfl
  | false =>
      refine h.move rfl (fun h => by cases h) (fun hfree => Or.inl hfree) fun hscheduled => ?_
      right
      right
      refine ⟨?_, rfl, ?_⟩
      · rw [← hscheduled]
        exact (Bool.or_false _).symm
      · cases hold : (p.widget.task t).chained with
        | false => rfl
        | true => exact (Bool.false_ne_true (hchained hold)).elim

/-- A poll in a chain, of a page with the same tasks. -/
theorem Traffic.poll_chained (h : Traffic p) (htask : p'.widget.task = p.widget.task)
    (hsending : p'.widget.sending = p.widget.sending) :
    Traffic (p'.poll t true) := by
  unfold Page.poll
  split
  · have hmoved : (p'.endPoll t true).widget.task = Function.update p.widget.task t .idle := by
      rw [← htask]
      rfl
    exact h.move hmoved (fun h => by cases h) (fun hfree => Or.inl (hsending.symm.trans hfree))
      fun _ => Or.inl rfl
  next v _ =>
    have hmoved : Function.update p'.widget.task t (.polling v p'.widget.lastSeen true) =
        Function.update p.widget.task t (.polling v p'.widget.lastSeen true) := by
      rw [htask]
    exact h.move hmoved (fun h => by cases h) (fun hfree => Or.inl (hsending.symm.trans hfree))
      fun _ => Or.inr (Or.inl rfl)

/-- The last poll after a message was posted. -/
theorem Traffic.poll_once (h : Traffic p) (hwaiting : p.widget.task t = .waiting) :
    Traffic (p.poll t false) := by
  unfold Page.poll
  split
  · refine h.endPoll ?_
    rw [hwaiting]
    exact fun h => by cases h
  · refine h.move rfl (fun h => by cases h) (fun hfree => Or.inl hfree) fun hscheduled => ?_
    refine Or.inr (Or.inr ⟨hscheduled, rfl, ?_⟩)
    rw [hwaiting]
    rfl

/-- What goes on with a visitor, of a page with the same tasks. -/
theorem Traffic.proceed (h : Traffic p) {v : Session} {draft : Draft} {goal : Goal}
    (htask : p'.widget.task = p.widget.task) (htimer : p'.widget.timer = p.widget.timer)
    (hscheduled : p'.history.scheduled = p.history.scheduled)
    (hpoll : goal = .poll → p'.widget.sending = p.widget.sending)
    (hsend : goal ≠ .poll → p'.widget.sending = true ∧
      ((p.widget.task t).sends = true ∨ p.widget.sending = false))
    (hchained : (p.widget.task t).chained = false) : Traffic (p'.proceed t v draft goal) := by
  cases goal with
  | poll => exact h.poll_chained htask (hpoll rfl)
  | send text name =>
      obtain ⟨hsending, hfree⟩ := hsend (fun h => by cases h)
      refine h.move (t := t) (congrArg (fun f => Function.update f t _) htask)
        (fun _ => ⟨hsending, hfree⟩) ?_ fun hold => ?_
      · intro hfalse
        exact (Bool.false_ne_true (hfalse.symm.trans hsending)).elim
      · exact Or.inr (Or.inr ⟨hscheduled.symm.trans hold, htimer, hchained⟩)

theorem Traffic.ensure (h : Traffic p) {stored : Option Stored} {draft : Draft} {goal : Goal}
    (htask : p'.widget.task = p.widget.task) (htimer : p'.widget.timer = p.widget.timer)
    (hscheduled : p'.history.scheduled = p.history.scheduled)
    (hpoll : goal = .poll → p'.widget.sending = p.widget.sending)
    (hsend : goal ≠ .poll → p'.widget.sending = true ∧ p.widget.sending = false)
    (hidle : p.widget.task t = .idle) : Traffic (p'.ensure t stored draft goal) := by
  have hchained : (p.widget.task t).chained = false := by
    rw [hidle]
    rfl
  unfold Page.ensure
  split
  · exact h.proceed htask htimer hscheduled hpoll
      (fun hgoal => ⟨(hsend hgoal).1, Or.inr (hsend hgoal).2⟩) hchained
  · refine h.move (t := t) (congrArg (fun f => Function.update f t _) htask) ?_ ?_ fun hold => ?_
    · intro hsends
      have hgoal : goal ≠ .poll := by
        rintro rfl
        cases hsends
      exact ⟨(hsend hgoal).1, Or.inr (hsend hgoal).2⟩
    · intro hfalse
      left
      cases goal with
      | poll => exact (hpoll rfl).symm.trans hfalse
      | send text name => exact (hsend (fun h => by cases h)).2
    · exact Or.inr (Or.inr ⟨hscheduled.symm.trans hold, htimer, hchained⟩)

/-- The end of a submit whose task was under way. -/
theorem Traffic.endSend (h : Traffic p) (hsends : (p.widget.task t).sends = true)
    (hchained : (p.widget.task t).chained = false) (status : Option Nat) :
    Traffic (p.endSend t status) :=
  h.move rfl (fun h => by cases h) (fun _ => Or.inr hsends) fun hold =>
    Or.inr (Or.inr ⟨hold, rfl, hchained⟩)

/-- The rows of an answer change no task. -/
theorem receive_rows (p : Page) (rows : List WebchatMessage) :
    (rows.foldl Page.receive p).widget.task = p.widget.task ∧
      (rows.foldl Page.receive p).widget.sending = p.widget.sending ∧
      (rows.foldl Page.receive p).widget.timer = p.widget.timer ∧
      (rows.foldl Page.receive p).history.scheduled = p.history.scheduled := by
  induction rows generalizing p with
  | nil => exact ⟨rfl, rfl, rfl, rfl⟩
  | cons m rows ih =>
      have hone : (p.receive m).widget.task = p.widget.task ∧
          (p.receive m).widget.sending = p.widget.sending ∧
          (p.receive m).widget.timer = p.widget.timer := by
        simp only [Page.receive, Widget.receive]
        split <;> exact ⟨rfl, rfl, rfl⟩
      obtain ⟨htask, hsending, htimer, hscheduled⟩ := ih (p.receive m)
      exact ⟨htask.trans hone.1, hsending.trans hone.2.1, htimer.trans hone.2.2, hscheduled⟩

theorem Traffic.rows (h : Traffic p) (rows : List WebchatMessage) :
    Traffic (rows.foldl Page.receive p) := by
  obtain ⟨htask, hsending, htimer, hscheduled⟩ := receive_rows p rows
  constructor
  · rw [htask, hsending]
    exact h.sending
  · rw [htask]
    exact h.one
  · rw [htask, htimer, hscheduled]
    exact h.alive

theorem traffic_step {a : WidgetAction} (h : Traffic p) (hs : p.step a = some p') : Traffic p' := by
  cases moves_of_step hs with
  | configures hidle =>
      exact h.ensure rfl rfl rfl (fun _ => rfl) (fun hne => (hne rfl).elim) hidle
  | skips _ => exact h
  | @toggles t isOpen stored hidle =>
      cases isOpen with
      | true =>
          exact h.ensure rfl rfl rfl (fun _ => rfl) (fun hne => (hne rfl).elim) hidle
      | false =>
          rw [Page.toggle, if_neg Bool.false_ne_true]
          split <;> exact ⟨h.sending, h.one, h.alive⟩
  | @submits t input nameInput stored draft hidle =>
      unfold Page.submit
      simp only
      split
      · exact h
      next hready =>
        have hfree : p.widget.sending = false := by
          simp only [Bool.or_eq_true, not_or, Bool.not_eq_true] at hready
          exact hready.2
        exact h.ensure rfl rfl rfl (fun hgoal => by cases hgoal) (fun _ => ⟨rfl, hfree⟩) hidle
  | @ensures t v draft visitorId token goal htask =>
      refine h.proceed rfl rfl rfl (fun _ => rfl) (fun hgoal => ?_) ?_
      · cases goal with
        | poll => exact (hgoal rfl).elim
        | send text name =>
            have hsends : (p.widget.task t).sends = true := by
              rw [htask]
              rfl
            exact ⟨h.sending t hsends, Or.inl hsends⟩
      · rw [htask]
        rfl
  | @fails t status visitorId token htask =>
      refine h.move rfl (fun h => by cases h) (fun hfree => Or.inl hfree) fun hold => ?_
      refine Or.inr (Or.inr ⟨hold, rfl, ?_⟩)
      rw [htask]
      rfl
  | @failsToSend t status visitorId token text name htask =>
      refine h.endSend ?_ ?_ status
      · rw [htask]
        rfl
      · rw [htask]
        rfl
  | @receives t rows visitor after thenSchedule htask =>
      refine (h.rows rows).endPoll ?_
      rw [(receive_rows p rows).1, htask]
      exact id
  | @misses t visitor after thenSchedule htask =>
      refine h.endPoll ?_
      rw [htask]
      exact id
  | @posts t body token htask =>
      refine h.move rfl (fun h => by cases h) (fun _ => Or.inr ?_) fun hold => ?_
      · rw [htask]
        rfl
      · refine Or.inr (Or.inr ⟨hold, rfl, ?_⟩)
        rw [htask]
        rfl
  | @failsToPost t status body token htask =>
      refine h.endSend ?_ ?_ status
      · rw [htask]
        rfl
      · rw [htask]
        rfl
  | wakes hwaiting => exact h.poll_once hwaiting
  | ticks _ _ => exact h.poll_chained rfl rfl

end Traffic

/-! ## Whole visits -/

/-- In every run in which the server's messages have ids of their own and do not
change, the messages from the server on the screen are those that came, each once
and in the order in which they first came.  The badge counts the replies among them
that came since the widget was closed, each text that was sent is on the screen, at
most one message is being posted, and once there is a chain of polls it goes on. -/
theorem widget_shows_all {actions : List WidgetAction} {p : Page}
    (hanswers : machine.Along Answers {} actions) (hrun : machine.run {} actions = some p) :
    p.widget.fromServer = (firstComes p.history.received).map WebchatMessage.bubble ∧
      (p.widget.fromServer.map Bubble.id).Nodup ∧
      (∀ m ∈ p.history.received, ∃ x ∈ p.widget.fromServer, x.id = m.id) ∧
      (p.widget.unread = if p.widget.isOpen then 0 else
        (p.widget.fromServer.drop p.history.seen).countP fun x => x.direction = .outbound) ∧
      (∀ text ∈ p.history.sent, ∃ x ∈ p.widget.messages,
        x.direction = .inbound ∧ x.text = text) ∧
      (∀ t t', (p.widget.task t).sends = true → (p.widget.task t').sends = true → t = t') ∧
      (p.history.scheduled = true →
        p.widget.timer = true ∨ ∃ t, (p.widget.task t).chained = true) := by
  have hscreen := Machine.invariant_along (I := Screen)
    (fun _ _ _ h hs hP => screen_step h hs hP) screen_init hanswers hrun
  have htraffic := Machine.invariant (I := Traffic) (fun _ _ _ h hs => traffic_step h hs)
    traffic_init hrun
  refine ⟨hscreen.shown, ?_, fun m hm => ?_, hscreen.unread, hscreen.sent, htraffic.one,
    htraffic.alive⟩
  · rw [hscreen.shown, List.map_map]
    exact firstComes_nodup _
  · obtain ⟨x, hx, hid⟩ := exists_firstComes hm
    exact (hscreen.any_firstComes m).mp (List.any_eq_true.mpr ⟨x, hx, decide_eq_true hid⟩)

/-- A visitor. -/
def exampleSession : Session := ⟨"v_1", "token"⟩

def exampleReply (id text : String) : WebchatMessage where
  id := id
  direction := .outbound
  text := text
  senderName := some "Ada"
  createdAt := "2026-01-01T00:00:00.000Z"

/-- What the visitor sent, as it comes back. -/
def exampleEcho : WebchatMessage where
  id := "m1"
  direction := .inbound
  text := "Hello"
  senderName := none
  createdAt := "2026-01-01T00:00:00.000Z"

/-- Somebody opens the widget, says hello and closes it.  Two polls bring the same
reply. -/
def exampleVisit : List WidgetAction :=
  [.configure 0 none, .toggle 0 true none, .session 0 exampleSession ⟨"a1", ""⟩,
    .submit 1 " Hello " "" none ⟨"a2", ""⟩, .posted 1, .wake 1, .toggle 2 false none,
    .rows 1 [exampleEcho, exampleReply "m2" "Hi"], .rows 0 [exampleEcho, exampleReply "m2" "Hi"],
    .tick 0, .rows 0 [exampleReply "m3" "How can I help?"]]

theorem ne_localId {id : String} (h : "local_".toList.isPrefixOf id.toList = false)
    (clientMessageId : String) : id ≠ localId clientMessageId := by
  rintro rfl
  rw [localId, String.toList_append, List.isPrefixOf_iff_prefix.mpr (List.prefix_append _ _)] at h
  cases h

/-- A visit in which the answers are genuine by a test. -/
def answersTest (p : Page) : WidgetAction → Bool
  | .rows _ rows =>
      let received := p.history.received ++ rows
      received.all (fun m => !"local_".toList.isPrefixOf m.id.toList) &&
        received.all fun m => received.all fun m' =>
          m.id ≠ m'.id || m.direction = m'.direction && m.text = m'.text
  | _ => true

theorem answers_of_test (p : Page) (a : WidgetAction) (p' : Page) (h : answersTest p a = true) :
    Answers p a p' := by
  rintro t rows rfl
  simp only [answersTest, Bool.and_eq_true, List.all_eq_true, Bool.not_eq_true', Bool.or_eq_true,
    decide_eq_true_eq] at h
  exact ⟨fun m hm => ne_localId (h.1 m hm),
    fun m hm m' hm' hid => (h.2 m hm m' hm').resolve_left fun hne => hne hid⟩

/-- The badge of that visit shows two replies, and its screen three messages. -/
theorem visit_shows_all : ∃ p, machine.run {} exampleVisit = some p ∧
    p.widget.unread = 2 ∧ p.widget.fromServer.length = 3 ∧
      (p.widget.fromServer.map Bubble.id).Nodup ∧
      ∀ text ∈ p.history.sent, ∃ x ∈ p.widget.messages, x.direction = .inbound ∧ x.text = text := by
  have hview : (machine.run {} exampleVisit).map
      (fun p => (p.widget.unread, p.widget.fromServer.length)) = some (2, 3) := by
    decide
  obtain ⟨p, hrun, hcounts⟩ := Option.map_eq_some_iff.mp hview
  rw [Prod.mk.injEq] at hcounts
  have hchecks : machine.checks answersTest {} exampleVisit = true := by decide
  have hanswers : machine.Along Answers {} exampleVisit :=
    Machine.along_of_checks answers_of_test hchecks
  obtain ⟨_, hdistinct, _, _, hsent, _, _⟩ := widget_shows_all hanswers hrun
  exact ⟨p, hrun, hcounts.1, hcounts.2, hdistinct, hsent⟩

end Page

end Vynor.Webchat
