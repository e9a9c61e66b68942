import Vynor.AiAgents.Preview
import Vynor.Lib.Machine

/-!
# The turns of a test chat

The test chat calls `runPreviewEngine` turn by turn and feeds the state that a
turn gives into the next one.  What `turned` says of one turn carries over to
every run of turns: the limit on the AI's messages and the labels that are
allowed hold in every state, labels stay, the chat only moves forward in the
pipeline, and after a silent handoff the AI is silent for good.

The position in the pipeline needs the statuses to be texts that are not empty:
an empty status counts as none, so a chat that has it starts again from the
first one.
-/

namespace Vynor.AiAgents

open Lib (Machine)

section Chat

variable {R : Runtime}

/-- What differs from one turn of a chat to the next. -/
structure Turn (R : Runtime) where
  knowledge : AiAgentKnowledge R
  incoming : List String
  history : List ChatTurn
  now : Date

/-- The input of a turn. -/
def Turn.input (turn : Turn R) (settings : AiAgentGeneralSettings) (pipeline : List String)
    (state : ConversationState) : EngineInput R :=
  { turn with settings, pipeline, state }

/-- One turn from a state. -/
def takeTurn (settings : AiAgentGeneralSettings) (pipeline : List String)
    (state : ConversationState) (turn : Turn R) : EngineResult :=
  runPreviewEngine (turn.input settings pipeline state)

/-- A test chat: the state after a turn is fed into the next one. -/
def chat (R : Runtime) (settings : AiAgentGeneralSettings) (pipeline : List String) :
    Machine ConversationState (Turn R) where
  step state turn := some (takeTurn settings pipeline state turn).state

/-- Where a chat is in the pipeline.  With no status it is at the begin. -/
def position (pipeline : List String) : Option String → Nat
  | none => 0
  | some status => pipeline.idxOf status

/-- What the settings allow a state to be. -/
structure Within (settings : AiAgentGeneralSettings) (pipeline : List String)
    (state : ConversationState) : Prop where
  aiMessageCount : state.aiMessageCount ≤ settings.messageLimit
  distinct : state.labels.Nodup
  allowed : state.labels ⊆ settings.allowedLabels
  known : ∀ status, state.pipelineStatus = some status → status ∈ pipeline

/-- The state of a chat after a silent handoff. -/
def Silent (state : ConversationState) : Prop :=
  state.silenced = true ∧ state.status = .pending

/-- What a chat keeps, from a state on, over every run of turns. -/
structure KeepsLimits (R : Runtime) (settings : AiAgentGeneralSettings) (pipeline : List String)
    (start : ConversationState) : Prop where
  aiMessageCount : ∀ (turns : List (Turn R)) state,
    (chat R settings pipeline).run start turns = some state →
      state.aiMessageCount ≤ settings.messageLimit
  labels : ∀ (turns : List (Turn R)) state,
    (chat R settings pipeline).run start turns = some state →
      state.labels.Nodup ∧ state.labels ⊆ settings.allowedLabels
  kept : ∀ (turns later : List (Turn R)) state state',
    (chat R settings pipeline).run start turns = some state →
    (chat R settings pipeline).run state later = some state' → state.labels ⊆ state'.labels
  forward : ∀ (turns later : List (Turn R)) state state',
    (chat R settings pipeline).run start turns = some state →
    (chat R settings pipeline).run state later = some state' →
      position pipeline state.pipelineStatus ≤ position pipeline state'.pipelineStatus
  silent : ∀ (turns : List (Turn R)) (turn : Turn R) (later : List (Turn R)) (next : Turn R)
      state state',
    (chat R settings pipeline).run start turns = some state →
    .handoff true ∈ (takeTurn settings pipeline state turn).events →
    (chat R settings pipeline).run (takeTurn settings pipeline state turn).state later =
      some state' →
      state'.status = .pending ∧ (takeTurn settings pipeline state' next).replies = [] ∧
        (takeTurn settings pipeline state' next).state.status = .pending

/-! ## One turn -/

variable {settings : AiAgentGeneralSettings} {pipeline : List String}
  {state state' : ConversationState}

theorem turned_takeTurn (settings : AiAgentGeneralSettings) (pipeline : List String)
    (state : ConversationState) (turn : Turn R) :
    Turned (turn.input settings pipeline state) (takeTurn settings pipeline state turn) :=
  turned _

theorem chat_step {turn : Turn R} :
    (chat R settings pipeline).step state turn = some state' ↔
      (takeTurn settings pipeline state turn).state = state' :=
  Option.some_inj

/-- A turn keeps what the settings allow. -/
theorem within_takeTurn (hwithin : Within settings pipeline state) (turn : Turn R) :
    Within settings pipeline (takeTurn settings pipeline state turn).state := by
  have hturned := turned_takeTurn settings pipeline state turn
  refine ⟨?_, hturned.distinct hwithin.distinct, fun label hlabel => ?_, fun status hstatus => ?_⟩
  · rcases hturned.counted with hsame | ⟨hlimit, hmore⟩
    · rw [hsame]
      exact hwithin.aiMessageCount
    · rw [hmore]
      exact hlimit
  · rcases hturned.allowed label hlabel with hold | hnew
    · exact hwithin.allowed hold
    · exact hnew
  · rcases hturned.moved with hsame | ⟨target, htarget, i, hi, _⟩
    · exact hwithin.known status (hsame.symm.trans hstatus)
    · rw [htarget, Option.some_inj] at hstatus
      exact hstatus ▸ List.mem_of_getElem? hi

/-- The index that the engine starts from is the position of the chat, where no
status is empty. -/
theorem currentIndex_eq_position (hne : "" ∉ pipeline) {status : Option String}
    (hknown : ∀ s, status = some s → s ∈ pipeline) :
    currentIndex pipeline status = position pipeline status := by
  cases status with
  | none => rfl
  | some s =>
      have hs : s ∈ pipeline := hknown s rfl
      have htruthy : truthy (some s) = some s := by
        rw [truthy_eq_some]
        exact ⟨rfl, fun h => hne (h ▸ hs)⟩
      rw [currentIndex, htruthy]
      simp only [indexOf, if_pos hs, position]

/-- A turn does not move a chat backwards. -/
theorem position_takeTurn (hnodup : pipeline.Nodup) (hne : "" ∉ pipeline)
    (hwithin : Within settings pipeline state) (turn : Turn R) :
    position pipeline state.pipelineStatus ≤
      position pipeline (takeTurn settings pipeline state turn).state.pipelineStatus := by
  rcases (turned_takeTurn settings pipeline state turn).moved with hsame | ⟨target, htarget, i, hi, hlt⟩
  · rw [hsame]
    rfl
  · obtain ⟨hlength, hget⟩ := List.getElem?_eq_some_iff.mp hi
    have hat : pipeline.idxOf target = i := by
      rw [← hget]
      exact hnodup.idxOf_getElem i hlength
    rw [htarget, position, hat]
    change currentIndex pipeline state.pipelineStatus < _ at hlt
    rw [currentIndex_eq_position hne hwithin.known] at hlt
    omega

/-- A silent chat stays silent. -/
theorem silent_takeTurn (hsilent : Silent state) (turn : Turn R) :
    (takeTurn settings pipeline state turn).replies = [] ∧
      Silent (takeTurn settings pipeline state turn).state :=
  (turned_takeTurn settings pipeline state turn).silent hsilent.1 hsilent.2

/-! ## Runs -/

theorem within_run (hwithin : Within settings pipeline state) {turns : List (Turn R)}
    (hrun : (chat R settings pipeline).run state turns = some state') :
    Within settings pipeline state' :=
  Machine.invariant (fun _ turn _ h hstep => chat_step.mp hstep ▸ within_takeTurn h turn) hwithin
    hrun

theorem silent_run (hsilent : Silent state) {turns : List (Turn R)}
    (hrun : (chat R settings pipeline).run state turns = some state') : Silent state' :=
  Machine.invariant (fun _ turn _ h hstep => chat_step.mp hstep ▸ (silent_takeTurn h turn).2)
    hsilent hrun

/-- Labels are never removed. -/
theorem labels_run {turns : List (Turn R)}
    (hrun : (chat R settings pipeline).run state turns = some state') :
    state.labels <+: state'.labels :=
  Machine.invariant (I := fun s => state.labels <+: s.labels)
    (fun s turn _ h hstep => by
      rw [← chat_step.mp hstep]
      exact h.trans (turned_takeTurn settings pipeline s turn).labels)
    List.prefix_rfl hrun

/-- A chat only moves forward. -/
theorem position_run (hnodup : pipeline.Nodup) (hne : "" ∉ pipeline)
    (hwithin : Within settings pipeline state) {turns : List (Turn R)}
    (hrun : (chat R settings pipeline).run state turns = some state') :
    position pipeline state.pipelineStatus ≤ position pipeline state'.pipelineStatus := by
  refine (Machine.invariant (I := fun s => Within settings pipeline s ∧
    position pipeline state.pipelineStatus ≤ position pipeline s.pipelineStatus) ?_
    ⟨hwithin, le_rfl⟩ hrun).2
  rintro s turn s' ⟨hs, hle⟩ hstep
  rw [← chat_step.mp hstep]
  exact ⟨within_takeTurn hs turn, hle.trans (position_takeTurn hnodup hne hs turn)⟩

/-- A test chat keeps its limits, over every run of turns. -/
theorem keepsLimits_of_within (hnodup : pipeline.Nodup) (hne : "" ∉ pipeline)
    (hwithin : Within settings pipeline state) : KeepsLimits R settings pipeline state where
  aiMessageCount _ _ hrun := (within_run hwithin hrun).aiMessageCount
  labels _ _ hrun := ⟨(within_run hwithin hrun).distinct, (within_run hwithin hrun).allowed⟩
  kept _ _ _ _ _ hlater := (labels_run hlater).subset
  forward _ _ _ _ hrun hlater := position_run hnodup hne (within_run hwithin hrun) hlater
  silent _ turn _ next s _ _ hhandoff hlater := by
    have hsilent : Silent (takeTurn settings pipeline s turn).state :=
      (turned_takeTurn settings pipeline s turn).silences hhandoff
    have hlast := silent_run hsilent hlater
    exact ⟨hlast.2, (silent_takeTurn hlast next).1, (silent_takeTurn hlast next).2.2⟩

/-! ## A chat -/

end Chat

/-- The platform on texts of ASCII letters.  An agent without knowledge ranks
nothing, so the numbers of its scores do not matter. -/
def exampleRuntime : Runtime where
  toLowerCase text := String.ofList (text.toList.map Char.toLower)
  isLetterOrNumber := Char.isAlphanum
  Number := Nat
  ofNat := id
  fourFifths := 0
  half := 0
  add := Nat.add
  mul := Nat.mul
  div := Nat.div
  log := id
  lt a b := a < b
  eq a b := a = b
  formatNumber := toString
  hourInZone _ _ := none

def exampleSettings : AiAgentGeneralSettings where
  welcomeMessage := "Hello"
  welcomeImage := none
  transferConditions := "Customer asks for a human"
  stopAfterHandoff := false
  silentHandoff := true
  pendingAssignedMessage := ""
  pendingUnassignedMessage := ""
  allowedLabels := ["vip"]
  labelConditions := ""
  allowedPipelineStatuses := ["paid"]
  pipelineConditions := ""
  historyLimit := 10
  contextLimit := 5
  temperature := .precise
  messageLimit := 20
  timezone := "Asia/Jakarta"

/-- The turn of a customer who writes one text. -/
def exampleTurn (text : String) : Turn exampleRuntime where
  knowledge := { texts := [], files := [], qna := [], products := [] }
  incoming := [text]
  history := []
  now := 0

theorem keepsLimits_exampleSettings :
    KeepsLimits exampleRuntime exampleSettings ["new", "paid"] initialConversationState :=
  keepsLimits_of_within (by decide) (by decide)
    ⟨by decide, List.nodup_nil, List.nil_subset _, fun _ h => by cases h⟩

/-- A chat that has the empty status of a pipeline moves back from it. -/
theorem not_keepsLimits :
    ¬ ∀ (settings : AiAgentGeneralSettings) (pipeline : List String) (state : ConversationState),
      pipeline.Nodup → Within settings pipeline state →
        KeepsLimits exampleRuntime settings pipeline state := by
  intro h
  have hkeeps := h exampleSettings ["new", "paid", ""]
    { initialConversationState with pipelineStatus := some "" } (by decide)
    ⟨by decide, List.nodup_nil, List.nil_subset _, fun status hstatus => by
      cases hstatus
      decide⟩
  have hmoved := hkeeps.forward [] [exampleTurn "paid"] _ _ rfl rfl
  have hback : (takeTurn exampleSettings ["new", "paid", ""]
      { initialConversationState with pipelineStatus := some "" }
      (exampleTurn "paid")).state.pipelineStatus = some "paid" := by
    decide
  rw [hback] at hmoved
  exact absurd hmoved (by decide)

end Vynor.AiAgents
