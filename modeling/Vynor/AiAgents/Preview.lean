import Vynor.AiAgents.Knowledge
import Mathlib.Data.List.DropRight

/-!
# The preview engine

`runPreviewEngine` stands in for the AI runtime in the test chat of an agent's
settings: it takes the messages of a customer and the state of the
conversation, and gives the replies, the events and the state after the turn.

A turn has eight exits.  `turned` says once what each of them leaves in the
state: what the actions made of it, `Acted`, and what the turn itself adds.
-/

namespace Vynor.AiAgents

/-- `ConversationState['status']`. -/
inductive ChatStatus where
  | open
  | pending
deriving DecidableEq, Repr

/-- `ConversationState`. -/
structure ConversationState where
  status : ChatStatus
  /-- Set once a silent handoff happened. -/
  silenced : Bool
  /-- Whether a human agent picked up the pending chat. -/
  assigned : Bool
  aiMessageCount : Nat
  welcomed : Bool
  labels : List String
  pipelineStatus : Option String
deriving DecidableEq, Repr

/-- `ChatTurn`. -/
structure ChatTurn where
  fromCustomer : Bool
  text : String

inductive Temperature where
  | precise
  | balanced
  | creative
deriving DecidableEq, Repr

/-- `AiAgentGeneralSettings`, with the members the engine reads. -/
structure AiAgentGeneralSettings where
  welcomeMessage : String
  welcomeImage : Option String
  transferConditions : String
  stopAfterHandoff : Bool
  silentHandoff : Bool
  pendingAssignedMessage : String
  pendingUnassignedMessage : String
  allowedLabels : List String
  labelConditions : String
  allowedPipelineStatuses : List String
  pipelineConditions : String
  historyLimit : Nat
  contextLimit : Nat
  temperature : Temperature
  messageLimit : Nat
  timezone : String

/-- `EngineInput`. -/
structure EngineInput (R : Runtime) where
  settings : AiAgentGeneralSettings
  knowledge : AiAgentKnowledge R
  /-- The pipeline of the workspace, in order. -/
  pipeline : List String
  state : ConversationState
  /-- The messages of the customer, oldest first. -/
  incoming : List String
  /-- Earlier turns, oldest first. -/
  history : List ChatTurn
  now : Date

/-- `EngineEvent`. -/
inductive EngineEvent where
  | handoff (silent : Bool)
  | label (label : String)
  | pipeline (from_ : Option String) (to_ : String)
  | messageLimit (limit : Nat)
  | waitingForAgent
deriving DecidableEq, Repr

inductive ReplyKind where
  | welcome
  | greeting
  | answer
  | handoff
  | pending
  | fallback
deriving DecidableEq, Repr

/-- `EngineReply`, as `reply` builds it. -/
structure EngineReply where
  kind : ReplyKind
  text : CodeUnits
  sources : List CodeUnits := []
  image : Option String := none
deriving DecidableEq

/-- `EngineResult`. -/
structure EngineResult where
  replies : List EngineReply
  events : List EngineEvent
  state : ConversationState
deriving DecidableEq

/-- `initialConversationState`. -/
def initialConversationState : ConversationState where
  status := .open
  silenced := false
  assigned := false
  aiMessageCount := 0
  welcomed := false
  labels := []
  pipelineStatus := none

/-! ## Replies -/

/-- `hourIn`.  Where the zone is not known it is the hour in UTC. -/
def hourIn (R : Runtime) (timezone : String) (now : Date) : Nat :=
  (R.hourInZone timezone now).getD ((now / 3600000) % 24).toNat

/-- `greetingFor`. -/
def greetingFor (R : Runtime) (timezone : String) (now : Date) (lang : ChatLanguage) : String :=
  let hour := hourIn R timezone now
  match lang with
  | .en =>
      let part :=
        if 5 ≤ hour && hour < 12 then "morning"
        else if 12 ≤ hour && hour < 18 then "afternoon" else "evening"
      "Good " ++ part ++ "! How can I help you?"
  | .id =>
      let part :=
        if 4 ≤ hour && hour < 11 then "pagi"
        else if 11 ≤ hour && hour < 15 then "siang"
        else if 15 ≤ hour && hour < 18 then "sore" else "malam"
      "Selamat " ++ part ++ " kak! Ada yang bisa aku bantu?"

inductive Phrase where
  | handoff
  | fallback
  | thanks
  | closing
  | creativeOpen
  | creativeClose

/-- `PHRASES`. -/
def phrase : Phrase → ChatLanguage → CodeUnits
  | .handoff, .id => codeUnits
      "Baik kak, percakapan ini aku teruskan ke tim kami ya. Mohon ditunggu sebentar 🙏"
  | .handoff, .en => codeUnits
      "Sure, I'm passing this conversation to our team. Please wait a moment 🙏"
  | .fallback, .id => codeUnits <|
      "Maaf kak, aku belum punya informasi soal itu. " ++
        "Kalau perlu, aku bisa teruskan ke tim kami ya."
  | .fallback, .en => codeUnits
      "Sorry, I don't have information about that yet. I can pass this to our team if you like."
  | .thanks, .id => codeUnits "Sama-sama kak! Senang bisa membantu 😊"
  | .thanks, .en => codeUnits "You're welcome! Happy to help 😊"
  | .closing, .id => codeUnits "Ada lagi yang bisa aku bantu, kak?"
  | .closing, .en => codeUnits "Anything else I can help with?"
  | .creativeOpen, .id => codeUnits "Siap kak! 😊"
  | .creativeOpen, .en => codeUnits "Sure thing! 😊"
  | .creativeClose, .id => codeUnits "Kalau masih ada yang mau ditanyakan, bilang aja ya ✨"
  | .creativeClose, .en => codeUnits "Just let me know if there is anything else ✨"

/-- `styleAnswer`. -/
def styleAnswer (answer : CodeUnits) (settings : AiAgentGeneralSettings) (lang : ChatLanguage) :
    CodeUnits :=
  match settings.temperature with
  | .precise => answer
  | .creative =>
      phrase .creativeOpen lang ++ codeUnits "\n" ++ answer ++ codeUnits "\n\n" ++
        phrase .creativeClose lang
  | .balanced => answer ++ codeUnits "\n\n" ++ phrase .closing lang

/-! ## Actions -/

section Engine

variable {R : Runtime}

/-- The first loop of `applyActions`: one label. -/
def applyLabel (settings : AiAgentGeneralSettings) (tokens : List String)
    (acted : ConversationState × List EngineEvent) (label : String) :
    ConversationState × List EngineEvent :=
  let (state, events) := acted
  if label ∈ state.labels then acted
  else if actionMatches R label settings.labelConditions tokens then
    ({ state with labels := state.labels ++ [label] }, events ++ [.label label])
  else acted

/-- `pipeline.indexOf(status)`. -/
def indexOf (pipeline : List String) (status : String) : Int :=
  if status ∈ pipeline then (pipeline.idxOf status : Nat) else -1

/-- Where a conversation is in the pipeline.  A status that is missing or empty
counts as the first one. -/
def currentIndex (pipeline : List String) (pipelineStatus : Option String) : Int :=
  match truthy pipelineStatus with
  | some status => indexOf pipeline status
  | none => 0

/-- The second loop of `applyActions`: one status, with its index. -/
def applyStatus (settings : AiAgentGeneralSettings) (tokens : List String) (currentIndex : Int)
    (target : Option String) (entry : String × Nat) : Option String :=
  if (entry.2 : Int) ≤ currentIndex || entry.1 ∉ settings.allowedPipelineStatuses then target
  else if actionMatches R entry.1 settings.pipelineConditions tokens then some entry.1
  else target

/-- The furthest status that matches. -/
def pipelineTarget (settings : AiAgentGeneralSettings) (tokens : List String)
    (pipeline : List String) (currentIndex : Int) : Option String :=
  pipeline.zipIdx.foldl (applyStatus (R := R) settings tokens currentIndex) none

/-- `applyActions`. -/
def applyActions (input : EngineInput R) (tokens : List String) (state : ConversationState)
    (events : List EngineEvent) : ConversationState × List EngineEvent :=
  let (state, events) :=
    input.settings.allowedLabels.foldl (applyLabel (R := R) input.settings tokens) (state, events)
  match pipelineTarget (R := R) input.settings tokens input.pipeline
      (currentIndex input.pipeline state.pipelineStatus) with
  | some target =>
      ({ state with pipelineStatus := some target },
        events ++ [.pipeline (state.pipelineStatus.or input.pipeline.head?) target])
  | none => (state, events)

/-! ## A turn -/

/-- The chunks that answer a text, and where there are none or the two best are
equal, those that answer it after what the customer said before. -/
def retrieve (input : EngineInput R) (index : List KnowledgeChunk) (text : String) :
    List (RankedChunk R) :=
  let ranked := rankKnowledge R index text
  let ambiguous :=
    match ranked with
    | first :: second :: _ => R.eq first.score second.score
    | _ => false
  if ranked.isEmpty || ambiguous then
    -- `slice(-0)` is the whole history
    let limit := input.settings.historyLimit
    let recent := if limit = 0 then input.history else input.history.rtake limit
    let remembered :=
      ((recent.filter fun turn => turn.fromCustomer).rtake 2).map fun turn => turn.text
    if remembered ≠ [] then
      let withHistory := rankKnowledge R index ("\n".intercalate (remembered ++ [text]))
      if withHistory.isEmpty then ranked else withHistory
    else ranked
  else ranked

/-- The last reply of a turn: an answer from the knowledge, or that there is
none. -/
def answer (input : EngineInput R) (text : String) (lang : ChatLanguage) : EngineReply :=
  let ranked := retrieve input (buildKnowledgeIndex input.knowledge lang) text
  let retrieved := ranked.take input.settings.contextLimit
  match retrieved with
  | [] => { kind := .fallback, text := phrase .fallback lang }
  | best :: _ =>
      { kind := .answer
        text := styleAnswer best.chunk.answer input.settings lang
        sources := ((retrieved.take 3).map fun r => r.chunk.source).eraseDups }

/-- The turn of a chat that waits for a human agent. -/
def pendingTurn (input : EngineInput R) (tokens : List String) : EngineResult :=
  let (state, events) := applyActions input tokens input.state []
  let pending :=
    if state.assigned then input.settings.pendingAssignedMessage
    else input.settings.pendingUnassignedMessage
  { replies :=
      if !state.silenced && trim pending ≠ "" then
        [{ kind := .pending, text := codeUnits (trim pending) }]
      else []
    events := events ++ [.waitingForAgent]
    state }

/-- The welcome message, where the conversation has had none. -/
def welcome (settings : AiAgentGeneralSettings) (state : ConversationState) : List EngineReply :=
  if !state.welcomed && (trim settings.welcomeMessage ≠ "" || (truthy settings.welcomeImage).isSome)
  then
    [{ kind := .welcome
       text := codeUnits (trim settings.welcomeMessage)
       image := settings.welcomeImage }]
  else []

/-- A turn that ends with one more message of the AI. -/
def sends (replies : List EngineReply) (reply : EngineReply) (events : List EngineEvent)
    (state : ConversationState) : EngineResult where
  replies := replies ++ [reply]
  events
  state := { state with aiMessageCount := state.aiMessageCount + 1 }

/-- The turn of a chat that the AI still answers, after the actions. -/
def answeringTurn (input : EngineInput R) (text : String) (lang : ChatLanguage)
    (tokens : List String) (acted : ConversationState) (events : List EngineEvent) : EngineResult :=
  let settings := input.settings
  let replies := welcome settings acted
  let state := { acted with welcomed := true }
  if state.status = .open && matchesConditions R settings.transferConditions tokens then
    let state := { state with status := .pending }
    if settings.silentHandoff then
      { replies
        events := events ++ [.handoff true]
        state := { state with silenced := true } }
    else
      sends replies { kind := .handoff, text := phrase .handoff lang } (events ++ [.handoff false])
        state
  else if tokens ≠ [] && tokens.all fun t => t ∈ GREETINGS then
    if replies = [] then
      sends replies
        { kind := .greeting, text := codeUnits (greetingFor R settings.timezone input.now lang) }
        events state
    else { replies, events, state }
  else if (withoutThanks none text.toList).any fun rest =>
      contentTokens R (String.ofList rest) = [] then
    sends replies { kind := .answer, text := phrase .thanks lang } events state
  else sends replies (answer input text lang) events state

/-- `runPreviewEngine`. -/
def runPreviewEngine (input : EngineInput R) : EngineResult :=
  let settings := input.settings
  let state := input.state
  let text := trim ("\n".intercalate input.incoming)
  if text = "" then { replies := [], events := [], state }
  else
    let lang := detectLanguage R text
    let tokens := tokenize R text
    if state.status = .pending && (state.silenced || settings.stopAfterHandoff) then
      pendingTurn input tokens
    else if settings.messageLimit ≤ state.aiMessageCount then
      { replies := [], events := [.messageLimit settings.messageLimit], state }
    else
      let (acted, events) := applyActions input tokens state []
      answeringTurn input text lang tokens acted events

/-! ## What the actions change -/

/-- A status of the pipeline after an index. -/
def IsAfter (pipeline : List String) (current : Int) (target : String) : Prop :=
  ∃ i : Nat, pipeline[i]? = some target ∧ current < i

/-- What `applyActions` makes of a state: it adds labels that are allowed, and
moves the chat forward. -/
structure Acted (input : EngineInput R) (before after : ConversationState) : Prop where
  kept : after = { before with labels := after.labels, pipelineStatus := after.pipelineStatus }
  labels : before.labels <+: after.labels
  allowed : ∀ label ∈ after.labels,
    label ∈ before.labels ∨ label ∈ input.settings.allowedLabels
  distinct : before.labels.Nodup → after.labels.Nodup
  moved : after.pipelineStatus = before.pipelineStatus ∨
    ∃ target, after.pipelineStatus = some target ∧
      IsAfter input.pipeline (currentIndex input.pipeline before.pipelineStatus) target

/-- The events of the actions are no handoffs. -/
def NoHandoff (events : List EngineEvent) : Prop := ∀ silent, .handoff silent ∉ events

theorem noHandoff_nil : NoHandoff [] := fun _ => List.not_mem_nil

theorem NoHandoff.concat {events : List EngineEvent} {event : EngineEvent} (h : NoHandoff events)
    (hevent : ∀ silent, event ≠ .handoff silent) : NoHandoff (events ++ [event]) := by
  intro silent hmem
  rcases List.mem_append.mp hmem with hold | hnew
  · exact h silent hold
  · exact hevent silent (List.mem_singleton.mp hnew).symm

/-- What the labels of a list make of a state, with the events. -/
structure Labelled (allowed : List String) (before : ConversationState)
    (after : ConversationState × List EngineEvent) : Prop where
  kept : after.1 = { before with labels := after.1.labels }
  labels : before.labels <+: after.1.labels
  allowed : ∀ label ∈ after.1.labels, label ∈ before.labels ∨ label ∈ allowed
  distinct : before.labels.Nodup → after.1.labels.Nodup
  events : NoHandoff after.2

/-- One label is added only where it is not there yet. -/
theorem labelled_applyLabel {settings : AiAgentGeneralSettings} {tokens allowed : List String}
    {before : ConversationState} {acted : ConversationState × List EngineEvent} {label : String}
    (h : Labelled allowed before acted) (hlabel : label ∈ allowed) :
    Labelled allowed before (applyLabel (R := R) settings tokens acted label) := by
  obtain ⟨state, events⟩ := acted
  obtain ⟨hkept, hlabels, hallowed, hdistinct, hevents⟩ := h
  dsimp only at hkept hlabels hallowed hdistinct hevents
  unfold applyLabel
  dsimp only
  split
  · exact ⟨hkept, hlabels, hallowed, hdistinct, hevents⟩
  next hnew =>
    split
    · refine ⟨?_, hlabels.trans (List.prefix_append _ _), fun l hl => ?_, fun hnodup => ?_,
        hevents.concat fun silent h => by cases h⟩
      · rw [hkept]
      · rcases List.mem_append.mp hl with hold | hadded
        · exact hallowed l hold
        · rw [List.mem_singleton.mp hadded]
          exact Or.inr hlabel
      · refine (hdistinct hnodup).append (List.nodup_singleton _) ?_
        rw [List.disjoint_singleton]
        exact hnew
    · exact ⟨hkept, hlabels, hallowed, hdistinct, hevents⟩

theorem labelled_foldl {settings : AiAgentGeneralSettings} {tokens allowed : List String}
    {before : ConversationState} {labels : List String} (hsub : labels ⊆ allowed) :
    ∀ {acted : ConversationState × List EngineEvent}, Labelled allowed before acted →
      Labelled allowed before (labels.foldl (applyLabel (R := R) settings tokens) acted) := by
  induction labels with
  | nil =>
      intro acted h
      exact h
  | cons label labels ih =>
      intro acted h
      obtain ⟨hlabel, hrest⟩ := List.cons_subset.mp hsub
      exact ih hrest (labelled_applyLabel h hlabel)

theorem isAfter_applyStatus {settings : AiAgentGeneralSettings} {tokens pipeline : List String}
    {current : Int} {found : Option String} {entry : String × Nat} {target : String}
    (hentry : pipeline[entry.2]? = some entry.1)
    (hfound : ∀ t, found = some t → IsAfter pipeline current t)
    (h : applyStatus (R := R) settings tokens current found entry = some target) :
    IsAfter pipeline current target := by
  unfold applyStatus at h
  split at h
  · exact hfound target h
  next hskip =>
    split at h
    · cases h
      simp only [Bool.or_eq_true, decide_eq_true_eq, not_or] at hskip
      exact ⟨entry.2, hentry, Int.not_le.mp hskip.1⟩
    · exact hfound target h

/-- The target is a status of the pipeline after the current one. -/
theorem isAfter_foldl {settings : AiAgentGeneralSettings} {tokens pipeline : List String}
    {current : Int} {entries : List (String × Nat)}
    (hentries : ∀ e ∈ entries, pipeline[e.2]? = some e.1) :
    ∀ {found : Option String} {target : String},
      (∀ t, found = some t → IsAfter pipeline current t) →
      entries.foldl (applyStatus (R := R) settings tokens current) found = some target →
      IsAfter pipeline current target := by
  induction entries with
  | nil =>
      intro found target hfound h
      exact hfound target h
  | cons e entries ih =>
      intro found target hfound h
      obtain ⟨he, hrest⟩ := List.forall_mem_cons.mp hentries
      exact ih hrest (fun t ht => isAfter_applyStatus he hfound ht) h

theorem isAfter_of_pipelineTarget {settings : AiAgentGeneralSettings}
    {tokens pipeline : List String} {current : Int} {target : String}
    (h : pipelineTarget (R := R) settings tokens pipeline current = some target) :
    IsAfter pipeline current target :=
  isAfter_foldl (fun _ he => List.mk_mem_zipIdx_iff_getElem?.mp he) (fun t ht => by cases ht) h

/-- `applyActions` as a whole. -/
theorem applyActions_spec (input : EngineInput R) (tokens : List String)
    (state : ConversationState) :
    Acted input state (applyActions input tokens state []).1 ∧
      NoHandoff (applyActions input tokens state []).2 := by
  have hstart : Labelled input.settings.allowedLabels state (state, []) :=
    ⟨rfl, List.prefix_rfl, fun _ h => Or.inl h, id, noHandoff_nil⟩
  have hlabelled : Labelled input.settings.allowedLabels state
      (input.settings.allowedLabels.foldl (applyLabel (R := R) input.settings tokens) (state, [])) :=
    labelled_foldl (List.Subset.refl _) hstart
  unfold applyActions
  generalize input.settings.allowedLabels.foldl (applyLabel (R := R) input.settings tokens)
    (state, []) = labelled at hlabelled
  obtain ⟨labelled, events⟩ := labelled
  obtain ⟨hkept, hlabels, hallowed, hdistinct, hevents⟩ := hlabelled
  dsimp only at hkept hlabels hallowed hdistinct hevents
  have hstatus : labelled.pipelineStatus = state.pipelineStatus := by
    rw [hkept]
  dsimp only
  split
  next target htarget =>
    refine ⟨⟨?_, hlabels, hallowed, hdistinct, Or.inr ?_⟩, hevents.concat fun silent h => by cases h⟩
    · rw [hkept]
    · exact ⟨target, rfl, hstatus ▸ isAfter_of_pipelineTarget htarget⟩
  · refine ⟨⟨?_, hlabels, hallowed, hdistinct, Or.inl hstatus⟩, hevents⟩
    rw [hkept]

/-! ## What a turn changes -/

/-- What a turn leaves in the state. -/
structure Turned (input : EngineInput R) (result : EngineResult) : Prop where
  labels : input.state.labels <+: result.state.labels
  allowed : ∀ label ∈ result.state.labels,
    label ∈ input.state.labels ∨ label ∈ input.settings.allowedLabels
  distinct : input.state.labels.Nodup → result.state.labels.Nodup
  moved : result.state.pipelineStatus = input.state.pipelineStatus ∨
    ∃ target, result.state.pipelineStatus = some target ∧
      IsAfter input.pipeline (currentIndex input.pipeline input.state.pipelineStatus) target
  counted : result.state.aiMessageCount = input.state.aiMessageCount ∨
    input.state.aiMessageCount < input.settings.messageLimit ∧
      result.state.aiMessageCount = input.state.aiMessageCount + 1
  silent : input.state.silenced = true → input.state.status = .pending →
    result.replies = [] ∧ result.state.silenced = true ∧ result.state.status = .pending
  silences : .handoff true ∈ result.events →
    result.state.silenced = true ∧ result.state.status = .pending

/-- What the AI's own part of a turn adds to the state after the actions. -/
structure Answered (acted : ConversationState) (result : EngineResult) : Prop where
  labels : result.state.labels = acted.labels
  pipelineStatus : result.state.pipelineStatus = acted.pipelineStatus
  counted : result.state.aiMessageCount = acted.aiMessageCount ∨
    result.state.aiMessageCount = acted.aiMessageCount + 1
  silences : .handoff true ∈ result.events →
    result.state.silenced = true ∧ result.state.status = .pending

theorem answeringTurn_spec (input : EngineInput R) (text : String) (lang : ChatLanguage)
    (tokens : List String) (acted : ConversationState) {events : List EngineEvent}
    (hevents : NoHandoff events) :
    Answered acted (answeringTurn input text lang tokens acted events) := by
  unfold answeringTurn
  dsimp only
  split
  · split
    · exact ⟨rfl, rfl, Or.inl rfl, fun _ => ⟨rfl, rfl⟩⟩
    · refine ⟨rfl, rfl, Or.inr rfl, fun h => ?_⟩
      rcases List.mem_append.mp h with hold | hnew
      · exact absurd hold (hevents true)
      · cases List.mem_singleton.mp hnew
  · have hnone (state : ConversationState) (h : .handoff true ∈ events) :
        state.silenced = true ∧ state.status = .pending := absurd h (hevents true)
    split
    · split
      · exact ⟨rfl, rfl, Or.inr rfl, hnone _⟩
      · exact ⟨rfl, rfl, Or.inl rfl, hnone _⟩
    · split
      · exact ⟨rfl, rfl, Or.inr rfl, hnone _⟩
      · exact ⟨rfl, rfl, Or.inr rfl, hnone _⟩

/-- An exit that changes nothing. -/
theorem turned_refl {input : EngineInput R} {events : List EngineEvent}
    (hevents : NoHandoff events) :
    Turned input { replies := [], events, state := input.state } where
  labels := List.prefix_rfl
  allowed _ h := Or.inl h
  distinct := id
  moved := Or.inl rfl
  counted := Or.inl rfl
  silent hsilenced hpending := ⟨rfl, hsilenced, hpending⟩
  silences h := absurd h (hevents true)

/-- The exit of a pending chat. -/
theorem turned_pendingTurn {input : EngineInput R} {tokens : List String}
    (hpending : input.state.status = .pending) : Turned input (pendingTurn input tokens) := by
  obtain ⟨hacted, hevents⟩ := applyActions_spec input tokens input.state
  unfold pendingTurn
  generalize applyActions input tokens input.state [] = acted at hacted hevents
  obtain ⟨state, events⟩ := acted
  dsimp only at hacted hevents ⊢
  have hstatus : state.status = .pending := by
    rw [hacted.kept]
    exact hpending
  have hsilenced : state.silenced = input.state.silenced := by
    rw [hacted.kept]
  refine ⟨hacted.labels, hacted.allowed, hacted.distinct, hacted.moved, Or.inl ?_, ?_, fun h => ?_⟩
  · rw [hacted.kept]
  · intro hsilent _
    rw [hsilent] at hsilenced
    exact ⟨by rw [hsilenced]; rfl, hsilenced, hstatus⟩
  · exact absurd h (hevents.concat (fun silent h => by cases h) true)

/-- What one turn does, over all of its exits. -/
theorem turned (input : EngineInput R) : Turned input (runPreviewEngine input) := by
  unfold runPreviewEngine
  dsimp only
  generalize trim ("\n".intercalate input.incoming) = text
  split
  · exact turned_refl noHandoff_nil
  · split
    next hwaits =>
      simp only [Bool.and_eq_true, decide_eq_true_eq] at hwaits
      exact turned_pendingTurn hwaits.1
    next hanswers =>
      split
      · exact turned_refl (noHandoff_nil.concat fun silent h => by cases h)
      next hlimit =>
        obtain ⟨hacted, hevents⟩ := applyActions_spec input (tokenize R text) input.state
        generalize applyActions input (tokenize R text) input.state [] = acted at hacted hevents
        have hanswered := answeringTurn_spec input text (detectLanguage R text) (tokenize R text)
          acted.1 hevents
        have hcount : acted.1.aiMessageCount = input.state.aiMessageCount := by
          rw [hacted.kept]
        refine ⟨?_, ?_, ?_, ?_, ?_, ?_, hanswered.silences⟩
        · rw [hanswered.labels]
          exact hacted.labels
        · rw [hanswered.labels]
          exact hacted.allowed
        · rw [hanswered.labels]
          exact hacted.distinct
        · rw [hanswered.pipelineStatus]
          exact hacted.moved
        · rw [← hcount]
          exact hanswered.counted.imp_right fun h => ⟨by omega, h⟩
        · intro hsilenced hpending
          simp [hsilenced, hpending] at hanswers

end Engine

end Vynor.AiAgents
