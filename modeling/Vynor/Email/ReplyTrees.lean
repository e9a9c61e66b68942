import Vynor.Conversations.Replies
import Vynor.Email.Normalize

/-!
# Reply trees of emails

Emails with distinct Message-IDs form a forest: a root names no other mail, and
every other one names its parent in `In-Reply-To` and, where it has references, an
ancestor first.  `normalizeInbound` makes messages of them that name the parent as
reply target and an ancestor, or the mail itself, as thread
(`posts_of_normalizeInbound`).  So two mails that are stored are in one
conversation where they are in one tree, and only there.

The length of a Message-ID is counted in code units, as the code counts it where
it cuts a thread id to its column.
-/

namespace Vynor.Email

open Lib (Machine Forest)
open Conversations (IngestRequest RepliesStart PostsInOrder)
open Inbound (InboundResult)

section Mails

variable {ι : Type*}

/-- Emails that reply to each other as a forest says. -/
structure Mails (F : Forest ι) (mail : ι → EmailPayload) (name : ι → String) : Prop where
  messageId : ∀ x, (mail x).messageId = some (name x)
  distinct : Function.Injective name
  nonempty : ∀ x, name x ≠ ""
  fits : ∀ x, (codeUnits (name x)).length ≤ 512
  inReplyTo : ∀ x, (mail x).inReplyTo = (F.parent x).map name
  references : ∀ x, (mail x).references = [] ∨
    ∃ t rest, (mail x).references = name t :: rest ∧ F.Ancestor t x

/-- What arrives on the channel are these mails, normalized at some moment, each
after its parent has been stored. -/
def MailsInOrder (js : Runtime) (emailAddress : String) (channelId : Id) (F : Forest ι)
    (mail : ι → EmailPayload) (name : ι → String) (w : Conversations.World)
    (a : Conversations.Action) (_ : Conversations.World) : Prop :=
  ∀ i request, a = .ingest i request → request.channel.id = channelId →
    ∃ x now, .message request.message ∈ normalizeInbound js emailAddress now (mail x) ∧
      ∀ p, F.parent x = some p →
        (w.db.messages.find? (.provider channelId (name p))).isSome = true

variable {js : Runtime} {emailAddress : String} {channelId : Id} {F : Forest ι}
  {mail : ι → EmailPayload} {name : ι → String} {x y : ι}

/-- The thread of a mail is an ancestor, or the mail itself where it is a root. -/
theorem threadId_of_mails (h : Mails F mail name) (x : ι) :
    ∃ t, (mail x).threadId = name t ∧ (t = x ∧ F.parent x = none ∨ F.Ancestor t x) := by
  unfold EmailPayload.threadId EmailPayload.usedReferences
  rcases h.references x with hnone | ⟨t, rest, hrefs, habove⟩
  · rw [hnone, h.inReplyTo x]
    cases hparent : F.parent x with
    | none => exact ⟨x, by simp [EmailPayload.providerMessageId, h.messageId x], Or.inl ⟨rfl, rfl⟩⟩
    | some p => exact ⟨p, rfl, Or.inr (.single hparent)⟩
  · rw [hrefs, List.filter_cons_of_pos (by simpa using h.nonempty t)]
    exact ⟨t, rfl, Or.inr habove⟩

/-- The message of a mail names its parent and its thread. -/
theorem posts_of_normalizeInbound (h : Mails F mail name) {now : Date}
    {request : IngestRequest} (hchannel : request.channel.id = channelId)
    (hmessage : .message request.message ∈ normalizeInbound js emailAddress now (mail x)) :
    request.Posts F name channelId x := by
  obtain ⟨address, _, _, _, hdata⟩ := message_mem_normalizeInbound.mp hmessage
  constructor
  case channel => exact hchannel
  case messageId =>
    rw [hdata]
    simp [normalizedMessage, EmailPayload.providerMessageId, h.messageId x]
  case reply =>
    rw [hdata]
    show truthy (mail x).inReplyTo = _
    rw [h.inReplyTo x]
    cases F.parent x with
    | none => rfl
    | some p => exact truthy_eq_some.mpr ⟨rfl, h.nonempty p⟩
  case thread =>
    obtain ⟨t, ht, hwhere⟩ := threadId_of_mails h x
    refine ⟨t, ?_, hwhere⟩
    rw [IngestRequest.thread?, hdata]
    exact truthy_eq_some.mpr ⟨congrArg some ht, h.nonempty t⟩

/-- Email threading reconstructs the reply trees: in every run in which each mail
comes after its parent, two mails are stored in the same conversation exactly
where they are in the same tree. -/
theorem threading_reconstructs_reply_trees {w w' : Conversations.World}
    {as : List Conversations.Action} (hmails : Mails F mail name)
    (hstart : RepliesStart name channelId w)
    (horder : Conversations.machine.Along
      (MailsInOrder js emailAddress channelId F mail name) w as)
    (hr : Conversations.machine.run w as = some w') {mx my : Message}
    (hx : w'.db.messages.find? (.provider channelId (name x)) = some mx)
    (hy : w'.db.messages.find? (.provider channelId (name y)) = some my) :
    mx.conversationId = my.conversationId ↔ F.SameTree x y := by
  have hposts : Conversations.machine.Along (PostsInOrder F name channelId) w as := by
    refine Machine.Along.mono (fun w a w' hgood => ?_) horder
    intro i request ha hchannel
    obtain ⟨x, now, hmessage, hparent⟩ := hgood i request ha hchannel
    exact ⟨x, posts_of_normalizeInbound hmails hchannel hmessage, hparent⟩
  have hreplied := Conversations.replied_of_run hmails.distinct hmails.fits hstart hposts hr
  exact hreplied.conversationId_iff hmails.distinct hx hy

end Mails

/-! ## Two trees -/

/-- A root, a reply, a reply to the reply, another root, and a reply further down. -/
def exampleParent : Fin 5 → Option (Fin 5)
  | 1 => some 0
  | 2 => some 1
  | 4 => some 2
  | _ => none

def exampleForest : Forest (Fin 5) where
  parent := exampleParent
  wellFounded := by
    have hlt : ∀ a b, exampleParent b = some a → a < b := by decide
    exact Subrelation.wf (fun {a b} h => hlt a b h) (measure Fin.val).wf

def exampleName (x : Fin 5) : String := ["<0@x>", "<1@x>", "<2@x>", "<3@x>", "<4@x>"].get x

/-- The last mail has references; the two replies before it have none. -/
def exampleMail (x : Fin 5) : EmailPayload where
  uid := x.val
  uidValidity := "1"
  messageId := some (exampleName x)
  inReplyTo := (exampleParent x).map exampleName
  references := if x = 4 then ["<0@x>", "<2@x>"] else []
  fromAddress := some ⟨if x.val % 2 = 0 then "a@x" else "b@x", ""⟩
  text := "Hello"

theorem mails_example : Mails exampleForest exampleMail exampleName where
  messageId _ := rfl
  distinct := by
    have hsame : ∀ x y, exampleName x = exampleName y → x = y := by decide
    exact fun x y => hsame x y
  nonempty := by decide
  fits := by decide
  inReplyTo _ := rfl
  references x := by
    by_cases hx : x = 4
    · subst hx
      refine Or.inr ⟨0, ["<2@x>"], rfl, ?_⟩
      have h1 : exampleForest.Ancestor 0 1 := .single rfl
      exact (h1.tail rfl).tail rfl
    · exact Or.inl (if_neg hx)

/-- The example's addresses are in lower case. -/
def exampleJs : Runtime := ⟨id, id⟩

/-- The request for a mail. -/
def exampleMailRequest (x : Fin 5) : IngestRequest where
  channel := { exampleChannel with provider := .emailSmtpImap }
  message := normalizedMessage (exampleMail x) (if x.val % 2 = 0 then "a@x" else "b@x") 1
  providerEventId := exampleName x
  messageId := exampleName x

/-- The first conversation after so many replies. -/
def exampleThread : Nat → Conversation
  | 0 =>
      let fresh := Conversations.newConversation (exampleMailRequest 0)
        ⟨"a@x", "contact of a@x", none⟩ "c1" 3 none
      Conversations.counted fresh 1 "Hello" fresh
  | n + 1 => Conversations.counted (exampleThread n) 1 "Hello" (exampleThread n)

/-- The mails in order.  The third finds no conversation under its thread. -/
def exampleMailRun : List Conversations.Action :=
  let read x found := Conversations.mailRead x.val (exampleMailRequest x) found
  read 0 [] ++ Conversations.mailWrite 0 "c1" ++
    read 1 [exampleThread 0] ++ Conversations.mailWrite 1 "" ++
    read 2 [] ++ [.readTarget 2, .readConversation 2] ++ Conversations.mailWrite 2 "" ++
    read 3 [] ++ Conversations.mailWrite 3 "c2" ++
    read 4 [exampleThread 2] ++ Conversations.mailWrite 4 ""

/-- Whether a mail that arrives is the next of the example. -/
def mailTest (w : Conversations.World) : Conversations.Action → Bool
  | .ingest i request =>
      (List.finRange 5).any fun x => i = x.val && request = exampleMailRequest x &&
        (exampleParent x).all fun p =>
          (w.db.messages.find? (.provider "channel" (exampleName p))).isSome
  | _ => true

theorem message_exampleMail : ∀ x, .message (exampleMailRequest x).message ∈
    normalizeInbound exampleJs "support@x" 1 (exampleMail x) := by decide

theorem mailsInOrder_of_test {w w' : Conversations.World} {a : Conversations.Action}
    (h : mailTest w a = true) :
    MailsInOrder exampleJs "support@x" "channel" exampleForest exampleMail exampleName w a w' := by
  rintro i request rfl _
  simp only [mailTest, List.any_eq_true, Bool.and_eq_true, decide_eq_true_eq] at h
  obtain ⟨x, _, ⟨_, rfl⟩, hparent⟩ := h
  refine ⟨x, 1, message_exampleMail x, fun p hp => ?_⟩
  have hp : exampleParent x = some p := hp
  rw [hp] at hparent
  exact hparent

theorem repliesStart_init {ι : Type*} (name : ι → String) (channelId : Id) :
    RepliesStart name channelId Conversations.World.init where
  idle _ := rfl
  messages _ := rfl
  conversations _ _ hc := by cases hc

/-- The theorem at that run, which stores all five mails. -/
theorem threading_reconstructs_reply_trees_example : ∃ w,
    Conversations.machine.run Conversations.World.init exampleMailRun = some w ∧
      w.db.messages.rows.map (fun m => (m.id, m.conversationId))
        = [("<0@x>", "c1"), ("<1@x>", "c1"), ("<2@x>", "c1"), ("<3@x>", "c2"), ("<4@x>", "c1")] ∧
      ∀ x y mx my, w.db.messages.find? (.provider "channel" (exampleName x)) = some mx →
        w.db.messages.find? (.provider "channel" (exampleName y)) = some my →
        (mx.conversationId = my.conversationId ↔ exampleForest.SameTree x y) := by
  have hview : (Conversations.machine.run Conversations.World.init exampleMailRun).map (fun w =>
      w.db.messages.rows.map fun m => (m.id, m.conversationId))
        = some [("<0@x>", "c1"), ("<1@x>", "c1"), ("<2@x>", "c1"), ("<3@x>", "c2"),
            ("<4@x>", "c1")] := by decide
  obtain ⟨w, hw, hrows⟩ := Option.map_eq_some_iff.mp hview
  have horder : Conversations.machine.Along
      (MailsInOrder exampleJs "support@x" "channel" exampleForest exampleMail exampleName)
      Conversations.World.init exampleMailRun :=
    Machine.along_of_checks (p := mailTest) (fun _ _ _ h => mailsInOrder_of_test h)
      (by decide)
  exact ⟨w, hw, hrows, fun x y mx my hx hy => threading_reconstructs_reply_trees mails_example
    (repliesStart_init exampleName "channel") horder hw hx hy⟩

end Vynor.Email
