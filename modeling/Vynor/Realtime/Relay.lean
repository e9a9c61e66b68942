import Vynor.Basic
import Vynor.Lib.Machine
import Mathlib.Algebra.Group.Int.Defs
import Mathlib.Data.List.Chain
import Mathlib.Logic.Function.Basic

/-!
# The connection of the realtime relay

The relay listens for notifications on a database connection of its own.  When the
connection fails, ends or reports an error, a timer for the next attempt is set,
unless one is set already.  The delay doubles with each attempt up to 30 s and
starts again at 1 s once a connection listens.

A connection goes through `Stage`s, and the one before may still be ending when
the next one is begun.  The relay is never without a connection and without a
timer, unless it was destroyed.  Each attempt but the first waits for a timer that
was set after the one before, the timers set since a client last listened wait 1 s,
2 s, 4 s and so on up to 30 s, and there is no attempt after `onModuleDestroy`
(`relay_keeps_trying`).
-/

namespace Vynor.Realtime

open Lib (Machine)

abbrev ConnectionId := Nat

/-- Where `connect` stands with a client. -/
inductive Stage where
  | unborn
  /-- `client.connect()`. -/
  | connecting
  /-- `LISTEN`. -/
  | querying
  | listening
  /-- `client.end()` after a failure. -/
  | ending
  | done
deriving DecidableEq, Repr

/-- The client still leads to the next one. -/
def Stage.live : Stage → Bool
  | .unborn => false
  | .done => false
  | _ => true

/-- A timer, which may be cleared. -/
structure Timer where
  due : Date
  running : Bool
deriving DecidableEq, Repr

/-- When a timer was set, and when it is due. -/
structure Wait where
  since : Date
  due : Date
deriving DecidableEq, Repr

/-- The delay before the next attempt. -/
def reconnectDelay (attempt : Nat) : Date := min 30000 (1000 * 2 ^ attempt)

/-- `RealtimeRelayService` with its clients. -/
structure Relay where
  client : Option ConnectionId := none
  reconnectTimer : Option Timer := none
  stopped : Bool := false
  attempt : Nat := 0
  stage : ConnectionId → Stage := fun _ => .unborn
  now : Date := 0
  /-- When the clients were made, latest first. -/
  attempts : List Date := []
  /-- The timers that were set, latest first. -/
  waits : List Wait := []

namespace Relay

/-- The same relay with one client at another point. -/
def setStage (s : Relay) (c : ConnectionId) (stage : Stage) : Relay :=
  { s with stage := Function.update s.stage c stage }

/-- `connect`, up to its first await. -/
def connect (s : Relay) : Relay :=
  { s.setStage s.attempts.length .connecting with attempts := s.now :: s.attempts }

def scheduleReconnect (s : Relay) : Relay :=
  if s.stopped || s.reconnectTimer.isSome then s
  else
    { s with
      client := none
      reconnectTimer := some ⟨s.now + reconnectDelay s.attempt, true⟩
      attempt := s.attempt + 1
      waits := ⟨s.now, s.now + reconnectDelay s.attempt⟩ :: s.waits }

/-- `scheduleReconnect` does nothing, or it sets a timer for a delay that doubles
with `attempt` up to 30 s. -/
theorem scheduleReconnect_cases (s : Relay) :
    ((s.stopped = true ∨ s.reconnectTimer.isSome = true) ∧ s.scheduleReconnect = s) ∨
      (s.stopped = false ∧ s.reconnectTimer = none ∧ s.scheduleReconnect =
        { s with
          client := none
          reconnectTimer := some ⟨s.now + min 30000 (1000 * 2 ^ s.attempt), true⟩
          attempt := s.attempt + 1
          waits := ⟨s.now, s.now + min 30000 (1000 * 2 ^ s.attempt)⟩ :: s.waits }) := by
  unfold scheduleReconnect
  by_cases hset : s.stopped || s.reconnectTimer.isSome
  · rw [if_pos hset]
    exact Or.inl ⟨Bool.or_eq_true_iff.mp hset, rfl⟩
  · rw [if_neg hset]
    simp only [Bool.or_eq_true, not_or, Bool.not_eq_true, Option.isSome_eq_false_iff,
      Option.isNone_iff_eq_none] at hset
    exact Or.inr ⟨hset.1, hset.2, rfl⟩

/-- `onModuleDestroy`, up to its first await. -/
def onModuleDestroy (s : Relay) : Relay :=
  { s with
    stopped := true
    reconnectTimer := s.reconnectTimer.map fun timer => { timer with running := false } }

end Relay

inductive RelayAction where
  | onModuleInit
  | pass (milliseconds : Nat)
  | connects (c : ConnectionId)
  | listens (c : ConnectionId)
  /-- `connect` or `LISTEN` rejects. -/
  | fails (c : ConnectionId)
  | endSettles (c : ConnectionId)
  /-- The client emits `error`. -/
  | errs (c : ConnectionId)
  /-- The client emits `end`. -/
  | ends (c : ConnectionId)
  | fires
  | onModuleDestroy
  /-- The `end` of the last client settles after `onModuleDestroy`. -/
  | destroyed
deriving DecidableEq, Repr

namespace Relay

def step (s : Relay) : RelayAction → Option Relay
  | .onModuleInit => if s.attempts = [] && !s.stopped then some s.connect else none
  | .pass milliseconds => some { s with now := s.now + milliseconds }
  | .connects c =>
      if s.stage c = .connecting then some (s.setStage c .querying) else none
  | .listens c =>
      if s.stage c = .querying then
        some { s.setStage c .listening with client := some c, attempt := 0 }
      else none
  | .fails c =>
      if s.stage c = .connecting || s.stage c = .querying then some (s.setStage c .ending)
      else none
  | .endSettles c =>
      if s.stage c = .ending then some (s.setStage c .done).scheduleReconnect else none
  | .errs c => if c < s.attempts.length then some s.scheduleReconnect else none
  | .ends c =>
      if c < s.attempts.length then
        some (if s.stage c = .listening then (s.setStage c .done).scheduleReconnect
          else s.scheduleReconnect)
      else none
  | .fires =>
      match s.reconnectTimer with
      | some timer =>
          if timer.running && timer.due ≤ s.now then
            some ({ s with reconnectTimer := none } : Relay).connect
          else none
      | none => none
  | .onModuleDestroy => if s.stopped then none else some s.onModuleDestroy
  | .destroyed => if s.stopped then some { s with client := none } else none

def machine : Machine Relay RelayAction := { step := step }

/-! ## What a step does -/

inductive Moves (s : Relay) : RelayAction → Relay → Prop where
  | inits : s.attempts = [] → s.stopped = false → Moves s .onModuleInit s.connect
  | passes {milliseconds : Nat} :
      Moves s (.pass milliseconds) { s with now := s.now + milliseconds }
  /-- `connects` and `fails`. -/
  | goesOn {a c stage} : (∀ d, a ≠ .listens d) → (s.stage c).live = true → stage.live = true →
      Moves s a (s.setStage c stage)
  | listens {c} : s.stage c = .querying →
      Moves s (.listens c) { s.setStage c .listening with client := some c, attempt := 0 }
  /-- `errs`, and `ends` of a client that does not listen. -/
  | schedules {a} : (∀ d, a ≠ .listens d) → s.attempts ≠ [] → Moves s a s.scheduleReconnect
  /-- `endSettles`, and `ends` of a client that listens. -/
  | finishes {a c} : (∀ d, a ≠ .listens d) → (s.stage c).live = true →
      Moves s a (s.setStage c .done).scheduleReconnect
  | fires {timer : Timer} : s.reconnectTimer = some timer → timer.running = true →
      timer.due ≤ s.now → Moves s .fires ({ s with reconnectTimer := none } : Relay).connect
  | destroys : s.stopped = false → Moves s .onModuleDestroy s.onModuleDestroy
  | destroyed : s.stopped = true → Moves s .destroyed { s with client := none }

theorem moves_of_step {s s' : Relay} {a : RelayAction} (hs : s.step a = some s') :
    Moves s a s' := by
  have hborn : ∀ {c}, c < s.attempts.length → s.attempts ≠ [] := by
    intro c hc hempty
    rw [hempty] at hc
    exact Nat.not_lt_zero c hc
  cases a with
  | onModuleInit =>
      simp only [step, Option.ite_none_right_eq_some, Bool.and_eq_true, decide_eq_true_eq,
        Bool.not_eq_true'] at hs
      obtain ⟨⟨hempty, hstopped⟩, hs⟩ := hs
      cases hs
      exact .inits hempty hstopped
  | pass milliseconds =>
      cases hs
      exact .passes
  | connects c =>
      simp only [step, Option.ite_none_right_eq_some] at hs
      obtain ⟨hstage, hs⟩ := hs
      cases hs
      exact .goesOn (fun d h => by cases h) (by rw [hstage]; rfl) rfl
  | listens c =>
      simp only [step, Option.ite_none_right_eq_some] at hs
      obtain ⟨hstage, hs⟩ := hs
      cases hs
      exact .listens hstage
  | fails c =>
      simp only [step, Option.ite_none_right_eq_some, Bool.or_eq_true, decide_eq_true_eq] at hs
      obtain ⟨hstage, hs⟩ := hs
      cases hs
      refine .goesOn (fun d h => by cases h) ?_ rfl
      rcases hstage with hstage | hstage <;> rw [hstage] <;> rfl
  | endSettles c =>
      simp only [step, Option.ite_none_right_eq_some] at hs
      obtain ⟨hstage, hs⟩ := hs
      cases hs
      exact .finishes (fun d h => by cases h) (by rw [hstage]; rfl)
  | errs c =>
      simp only [step, Option.ite_none_right_eq_some] at hs
      obtain ⟨hc, hs⟩ := hs
      cases hs
      exact .schedules (fun d h => by cases h) (hborn hc)
  | ends c =>
      simp only [step, Option.ite_none_right_eq_some] at hs
      obtain ⟨hc, hs⟩ := hs
      rw [Option.some.injEq] at hs
      split at hs
      next hstage =>
        cases hs
        exact .finishes (fun d h => by cases h) (by rw [hstage]; rfl)
      next =>
        cases hs
        exact .schedules (fun d h => by cases h) (hborn hc)
  | fires =>
      simp only [step] at hs
      split at hs
      next timer htimer =>
        simp only [Option.ite_none_right_eq_some, Bool.and_eq_true, decide_eq_true_eq] at hs
        obtain ⟨⟨hrunning, hdue⟩, hs⟩ := hs
        cases hs
        exact .fires htimer hrunning hdue
      next => cases hs
  | onModuleDestroy =>
      simp only [step, Option.ite_none_left_eq_some, Bool.not_eq_true] at hs
      obtain ⟨hstopped, hs⟩ := hs
      cases hs
      exact .destroys hstopped
  | destroyed =>
      simp only [step, Option.ite_none_right_eq_some] at hs
      obtain ⟨hstopped, hs⟩ := hs
      cases hs
      exact .destroyed hstopped

/-! ## Attempts and timers -/

/-- Each attempt comes a second after the one before at least. -/
def Apart (attempts : List Date) : Prop :=
  attempts.IsChain fun later earlier => earlier + 1000 ≤ later

/-- Each attempt but the first was made when a timer was due, which was set after
the attempt before it. -/
def Led : List Date → List Wait → Prop
  | [], [] => True
  | [_], [] => True
  | later :: earlier :: attempts, wait :: waits =>
      earlier ≤ wait.since ∧ wait.due ≤ later ∧ Led (earlier :: attempts) waits
  | _, _ => False

theorem reconnectDelay_bounds (attempt : Nat) :
    1000 ≤ reconnectDelay attempt ∧ reconnectDelay attempt ≤ 30000 := by
  have hpow : (0 : Int) < 2 ^ attempt := Int.pow_pos (by decide)
  change (1000 : Int) ≤ min 30000 (1000 * 2 ^ attempt) ∧
    (min 30000 (1000 * 2 ^ attempt) : Int) ≤ 30000
  omega

/-- Attempts that wait for timers of a second are a second apart. -/
theorem Led.apart : ∀ {attempts : List Date} {waits : List Wait}, Led attempts waits →
    (∀ wait ∈ waits, wait.since + 1000 ≤ wait.due) → Apart attempts
  | [], _, _, _ => .nil
  | [_], _, _, _ => .singleton _
  | later :: earlier :: attempts, wait :: waits, hled, hwaits => by
      obtain ⟨hsince, hdue, hled⟩ := hled
      have hrest : Apart (earlier :: attempts) :=
        hled.apart fun w hw => hwaits w (List.mem_cons_of_mem wait hw)
      have hwait := hwaits wait List.mem_cons_self
      refine .cons_cons ?_ hrest
      calc earlier + 1000 ≤ wait.since + 1000 := Int.add_le_add_right hsince 1000
        _ ≤ wait.due := hwait
        _ ≤ later := hdue

/-- The timers that fired: all but the one that is still set. -/
def fired (s : Relay) : List Wait :=
  if s.reconnectTimer.isSome then s.waits.tail else s.waits

/-- What holds between the steps. -/
structure Sound (s : Relay) : Prop where
  unborn : ∀ c, s.attempts.length ≤ c → s.stage c = .unborn
  past : ∀ t ∈ s.attempts, t ≤ s.now
  led : Led s.attempts s.fired
  waits : ∀ wait ∈ s.waits, wait.since + 1000 ≤ wait.due
  /-- The timer was set after the last attempt. -/
  due : ∀ timer, s.reconnectTimer = some timer →
    ∃ last rest since waits, s.attempts = last :: rest ∧ last ≤ since ∧
      s.waits = ⟨since, timer.due⟩ :: waits
  runs : ∀ timer, s.reconnectTimer = some timer → timer.running = !s.stopped
  trying : s.attempts ≠ [] → s.stopped = false →
    s.reconnectTimer.isSome = true ∨ ∃ c, (s.stage c).live = true

theorem sound_init : Sound {} where
  unborn := fun _ _ => rfl
  past := fun t h => (List.not_mem_nil h).elim
  led := trivial
  waits := fun wait h => (List.not_mem_nil h).elim
  due := fun timer h => by cases h
  runs := fun timer h => by cases h
  trying := fun h => (h rfl).elim

section Sound

variable {s s' : Relay}

theorem Sound.born (h : Sound s) {c : ConnectionId} (hc : (s.stage c).live = true) :
    c < s.attempts.length := by
  by_contra hle
  rw [h.unborn c (Nat.le_of_not_lt hle)] at hc
  cases hc

theorem Sound.idle_of_empty (h : Sound s) (hempty : s.attempts = []) :
    s.reconnectTimer = none := by
  cases htimer : s.reconnectTimer with
  | none => rfl
  | some timer =>
      obtain ⟨last, _, _, _, hlast, _⟩ := h.due timer htimer
      rw [hempty] at hlast
      cases hlast

theorem mem_waits_of_fired {wait : Wait} (hwait : wait ∈ s.fired) : wait ∈ s.waits := by
  unfold fired at hwait
  split at hwait
  next => exact List.mem_of_mem_tail hwait
  next => exact hwait

/-- A new client, which its timer led to. -/
theorem Sound.connect (h : Sound s) (hled : Led (s.now :: s.attempts) s.waits)
    (hs' : s' = ({ s with reconnectTimer := none } : Relay).connect) : Sound s' := by
  subst hs'
  constructor
  · intro c hc
    have hne : c ≠ s.attempts.length := by
      rintro rfl
      exact Nat.not_succ_le_self _ hc
    change Function.update s.stage s.attempts.length Stage.connecting c = _
    rw [Function.update_of_ne hne]
    exact h.unborn c (Nat.le_of_succ_le hc)
  · intro t ht
    rcases List.mem_cons.mp ht with rfl | ht
    · exact Int.le_refl _
    · exact h.past t ht
  · exact hled
  · exact h.waits
  · intro timer htimer
    cases htimer
  · intro timer htimer
    cases htimer
  · intro _ _
    refine Or.inr ⟨s.attempts.length, ?_⟩
    change (Function.update s.stage s.attempts.length Stage.connecting s.attempts.length).live = _
    rw [Function.update_self]
    rfl

/-- A client that is at another point and still leads to the next one. -/
theorem Sound.setStage (h : Sound s) {c : ConnectionId} {stage : Stage}
    (hc : (s.stage c).live = true) (hlive : stage.live = true) : Sound (s.setStage c stage) where
  unborn := by
    intro d hd
    have hne : d ≠ c := by
      rintro rfl
      exact absurd (h.born hc) (Nat.not_lt_of_le hd)
    change Function.update s.stage c stage d = _
    rw [Function.update_of_ne hne]
    exact h.unborn d hd
  past := h.past
  led := h.led
  waits := h.waits
  due := h.due
  runs := h.runs
  trying := by
    intro _ _
    refine Or.inr ⟨c, ?_⟩
    change (Function.update s.stage c stage c).live = _
    rw [Function.update_self]
    exact hlive

/-- A timer is set, unless one is set or the relay is stopped.  The clients may
stand anywhere, as long as those to come are not born. -/
theorem Sound.scheduleReconnect (h : Sound s) {stage : ConnectionId → Stage}
    (hunborn : ∀ c, s.attempts.length ≤ c → stage c = .unborn) (hattempts : s.attempts ≠ []) :
    Sound { s with stage := stage }.scheduleReconnect := by
  rcases ({ s with stage := stage } : Relay).scheduleReconnect_cases with
    ⟨hset, hsame⟩ | ⟨hstopped, hnone, hsets⟩
  · rw [hsame]
    refine ⟨hunborn, h.past, h.led, h.waits, h.due, h.runs, fun _ hstarted => Or.inl ?_⟩
    refine hset.resolve_left fun hstopped => ?_
    rw [hstarted] at hstopped
    cases hstopped
  · rw [hsets]
    change s.reconnectTimer = none at hnone
    have hled := h.led
    unfold fired at hled
    rw [hnone] at hled
    refine ⟨hunborn, h.past, hled, ?_, ?_, ?_, fun _ _ => Or.inl rfl⟩
    · intro wait hwait
      rcases List.mem_cons.mp hwait with rfl | hwait
      · exact Int.add_le_add_left (reconnectDelay_bounds s.attempt).1 s.now
      · exact h.waits wait hwait
    · intro timer htimer
      cases htimer
      obtain ⟨last, rest, hlast⟩ := List.exists_cons_of_ne_nil hattempts
      exact ⟨last, rest, s.now, s.waits, hlast,
        h.past last (by rw [hlast]; exact List.mem_cons_self), rfl⟩
    · intro timer htimer
      cases htimer
      change true = !s.stopped
      rw [show s.stopped = false from hstopped]
      rfl

theorem sound_step {a : RelayAction} (h : Sound s) (hs : s.step a = some s') : Sound s' := by
  cases moves_of_step hs with
  | inits hempty _ =>
      have hnone := h.idle_of_empty hempty
      have hled := h.led
      unfold fired at hled
      rw [hempty, hnone] at hled
      refine h.connect ?_ (by rw [← hnone])
      cases hwaits : s.waits with
      | nil =>
          rw [hempty]
          trivial
      | cons wait waits =>
          rw [hwaits] at hled
          exact hled.elim
  | @passes milliseconds =>
      refine ⟨h.unborn, fun t ht => ?_, h.led, h.waits, h.due, h.runs, h.trying⟩
      exact Int.le_trans (h.past t ht) (Int.le_add_of_nonneg_right (Int.natCast_nonneg _))
  | goesOn _ hc hlive => exact h.setStage hc hlive
  | @listens c hstage =>
      have hset : Sound (s.setStage c .listening) := h.setStage (by rw [hstage]; rfl) rfl
      exact ⟨hset.unborn, hset.past, hset.led, hset.waits, hset.due, hset.runs, hset.trying⟩
  | schedules _ hattempts => exact h.scheduleReconnect h.unborn hattempts
  | @finishes a c _ hc =>
      refine h.scheduleReconnect (fun d hd => ?_) ?_
      · have hne : d ≠ c := by
          rintro rfl
          exact absurd (h.born hc) (Nat.not_lt_of_le hd)
        rw [Function.update_of_ne hne]
        exact h.unborn d hd
      · intro hempty
        have hborn := h.born hc
        rw [hempty] at hborn
        exact Nat.not_lt_zero c hborn
  | @fires timer htimer _ hdue =>
      obtain ⟨last, rest, since, waits, hlast, hsince, hwaits⟩ := h.due timer htimer
      have hled := h.led
      unfold fired at hled
      rw [htimer, hlast, hwaits] at hled
      refine h.connect ?_ rfl
      rw [hlast, hwaits]
      exact ⟨hsince, hdue, hled⟩
  | destroys hstopped =>
      refine ⟨h.unborn, h.past, ?_, h.waits, ?_, ?_, fun _ hfalse => by cases hfalse⟩
      · have hled := h.led
        unfold fired at hled ⊢
        rw [← Option.isSome_map] at hled
        exact hled
      · intro timer htimer
        obtain ⟨old, hold, rfl⟩ := Option.map_eq_some_iff.mp htimer
        exact h.due old hold
      · intro timer htimer
        obtain ⟨old, hold, rfl⟩ := Option.map_eq_some_iff.mp htimer
        rfl
  | destroyed _ => exact ⟨h.unborn, h.past, h.led, h.waits, h.due, h.runs, h.trying⟩

end Sound

/-! ## While no client listens -/

/-- Timers, latest first, that wait 1 s, 2 s, 4 s and so on up to 30 s. -/
def Doubling : List Wait → Prop
  | [] => True
  | wait :: earlier =>
      wait.due = wait.since + min 30000 (1000 * 2 ^ earlier.length) ∧ Doubling earlier

/-- Where no client has listened since `origin`, `attempt` counts the timers that
were set since then. -/
def Failing (origin s : Relay) : Prop :=
  ∃ waits, s.waits = waits ++ origin.waits ∧ Doubling waits ∧ s.attempt = waits.length

theorem Failing.start {origin : Relay} (hattempt : origin.attempt = 0) : Failing origin origin :=
  ⟨[], rfl, trivial, hattempt⟩

section Failing

variable {origin s s' : Relay} {a : RelayAction}

/-- The next timer waits twice as long as the last. -/
theorem Failing.scheduleReconnect (h : Failing origin s) : Failing origin s.scheduleReconnect := by
  rcases s.scheduleReconnect_cases with ⟨_, hsame⟩ | ⟨_, _, hsets⟩
  · rw [hsame]
    exact h
  · rw [hsets]
    obtain ⟨waits, hwaits, hdoubling, hattempt⟩ := h
    refine ⟨⟨s.now, s.now + min 30000 (1000 * 2 ^ s.attempt)⟩ :: waits, ?_, ⟨?_, hdoubling⟩, ?_⟩
    · rw [hwaits]
      rfl
    · rw [hattempt]
    · rw [hattempt]
      rfl

theorem failing_step (h : Failing origin s) (hs : s.step a = some s')
    (hlistens : ∀ c, a ≠ .listens c) : Failing origin s' := by
  cases moves_of_step hs with
  | inits _ _ => exact h
  | passes => exact h
  | goesOn _ _ _ => exact h
  | listens _ => exact absurd rfl (hlistens _)
  | schedules _ _ => exact h.scheduleReconnect
  | @finishes _ c _ _ =>
      have hdone : Failing origin (s.setStage c .done) := h
      exact hdone.scheduleReconnect
  | fires _ _ _ => exact h
  | destroys _ => exact h
  | destroyed _ => exact h

/-- A stretch of a run in which no client listens. -/
theorem Failing.run {as : List RelayAction} (h : Failing origin s)
    (hrun : machine.run s as = some s') (hnever : ∀ c, RelayAction.listens c ∉ as) :
    Failing origin s' := by
  have hnone : machine.Along (fun _ a _ => ∀ c, a ≠ .listens c) s as := by
    refine machine.along_of_forall (fun a ha _ _ _ c heq => ?_) s
    subst heq
    exact hnever c ha
  exact machine.invariant_along (fun _ _ _ hr hs hlistens => failing_step hr hs hlistens)
    h hnone hrun

/-- `attempt` starts again once a client listens. -/
theorem attempt_of_listens {c : ConnectionId} (hs : s.step (.listens c) = some s') :
    s'.attempt = 0 := by
  simp only [step, Option.ite_none_right_eq_some] at hs
  obtain ⟨_, hs⟩ := hs
  cases hs
  rfl

end Failing

/-! ## Once it is stopped -/

/-- A stopped relay makes no client, whatever its clients still do. -/
theorem stopped_step {s s' : Relay} {a : RelayAction} (hsound : Sound s) (hs : s.step a = some s')
    (hstopped : s.stopped = true) : s'.stopped = true ∧ s'.attempts = s.attempts := by
  have hskips : ∀ r : Relay, r.stopped = true → r.scheduleReconnect = r := by
    intro r hr
    unfold Relay.scheduleReconnect
    rw [if_pos (by rw [hr]; rfl)]
  cases moves_of_step hs with
  | inits _ hstarted =>
      rw [hstopped] at hstarted
      cases hstarted
  | passes => exact ⟨hstopped, rfl⟩
  | goesOn _ _ _ => exact ⟨hstopped, rfl⟩
  | listens _ => exact ⟨hstopped, rfl⟩
  | schedules _ _ =>
      rw [hskips s hstopped]
      exact ⟨hstopped, rfl⟩
  | @finishes _ c _ _ =>
      rw [hskips (s.setStage c .done) hstopped]
      exact ⟨hstopped, rfl⟩
  | @fires timer htimer hrunning _ =>
      rw [hsound.runs timer htimer, hstopped] at hrunning
      cases hrunning
  | destroys hstarted =>
      rw [hstopped] at hstarted
      cases hstarted
  | destroyed _ => exact ⟨hstopped, rfl⟩

theorem stopped_run {s s' : Relay} {as : List RelayAction} (hsound : Sound s)
    (hstopped : s.stopped = true) (hrun : machine.run s as = some s') :
    s'.attempts = s.attempts := by
  refine (machine.invariant
    (I := fun r => Sound r ∧ r.stopped = true ∧ r.attempts = s.attempts)
    (fun r a r' hr hs => ?_) ⟨hsound, hstopped, rfl⟩ hrun).2.2
  obtain ⟨hr, hhalted, hsame⟩ := hr
  obtain ⟨hhalted', hsame'⟩ := stopped_step hr hs hhalted
  exact ⟨sound_step hr hs, hhalted', hsame'.trans hsame⟩

/-- The start of a stretch in which no client listens: the start of the run, or the
moment after a client listened. -/
def StartsStretch (before : List RelayAction) : Prop :=
  before = [] ∨ ∃ earlier c, before = earlier ++ [.listens c]

/-- From its first attempt to `onModuleDestroy` the relay has a client that leads
to the next or a timer that runs, whatever order its clients connect, fail, err
and end in.  The attempts are a second apart, and each but the first waited for a
timer of its own.  The timers that are set while no client listens wait 1 s, 2 s,
4 s and so on up to 30 s, from each client that listened on anew, and after
`onModuleDestroy` there is no attempt. -/
theorem relay_keeps_trying {as : List RelayAction} {s : Relay}
    (hrun : machine.run {} as = some s) :
    (s.attempts ≠ [] → s.stopped = false →
      (∃ timer, s.reconnectTimer = some timer ∧ timer.running = true) ∨
        ∃ c, (s.stage c).live = true) ∧
      Apart s.attempts ∧ Led s.attempts s.fired ∧
      (∀ before stretch origin, as = before ++ stretch → StartsStretch before →
        machine.run {} before = some origin → (∀ c, RelayAction.listens c ∉ stretch) →
        ∃ waits, s.waits = waits ++ origin.waits ∧ Doubling waits) ∧
      (s.stopped = true → ∀ bs s', machine.run s bs = some s' → s'.attempts = s.attempts) := by
  have hsound : Sound s :=
    machine.invariant (fun _ _ _ hr hs => sound_step hr hs) sound_init hrun
  refine ⟨fun hne hstarted => ?_, hsound.led.apart ?_, hsound.led, ?_,
    fun hstopped bs s' hmore => stopped_run hsound hstopped hmore⟩
  · refine (hsound.trying hne hstarted).imp_left fun hset => ?_
    obtain ⟨timer, htimer⟩ := Option.isSome_iff_exists.mp hset
    refine ⟨timer, htimer, ?_⟩
    rw [hsound.runs timer htimer, hstarted]
    rfl
  · intro wait hwait
    exact hsound.waits wait (mem_waits_of_fired hwait)
  · rintro before stretch origin rfl hstarts horigin hnever
    obtain ⟨origin', horigin', hstretch⟩ := machine.run_append_eq_some.mp hrun
    rw [horigin, Option.some.injEq] at horigin'
    subst horigin'
    have hattempt : origin.attempt = 0 := by
      rcases hstarts with rfl | ⟨earlier, c, rfl⟩
      · cases horigin
        rfl
      · obtain ⟨r, _, hlast⟩ := machine.run_append_eq_some.mp horigin
        obtain ⟨r', hlistens, hnil⟩ := machine.run_cons_eq_some.mp hlast
        cases hnil
        exact attempt_of_listens hlistens
    obtain ⟨waits, hwaits, hdoubling, _⟩ := (Failing.start hattempt).run hstretch hnever
    exact ⟨waits, hwaits, hdoubling⟩

/-- The first two clients cannot connect and the third listens.  It reports an error
before it ends, the fourth cannot connect, and then the relay is destroyed.  The
timers wait 1 s and 2 s before the third listens and again 1 s and 2 s after. -/
theorem third_client_listens : ∃ s origin,
    machine.run {} [.onModuleInit, .fails 0, .endSettles 0, .pass 1000, .fires, .errs 1,
      .fails 1, .endSettles 1, .pass 2000, .fires, .connects 2, .listens 2] = some origin ∧
    machine.run origin [.errs 2, .ends 2, .pass 1500, .fires, .fails 3, .endSettles 3,
      .onModuleDestroy, .destroyed] = some s ∧
    s.attempts = [4500, 3000, 1000, 0] ∧ Apart s.attempts ∧ Led s.attempts s.fired ∧
    s.waits = [⟨4500, 6500⟩, ⟨3000, 4000⟩] ++ origin.waits ∧
    origin.waits = [⟨1000, 3000⟩, ⟨0, 1000⟩] ∧
    (∃ waits, s.waits = waits ++ origin.waits ∧ Doubling waits) ∧
    ∀ bs s', machine.run s bs = some s' → s'.attempts = s.attempts := by
  have hkeeps := @relay_keeps_trying ([.onModuleInit, .fails 0, .endSettles 0, .pass 1000,
    .fires, .errs 1, .fails 1, .endSettles 1, .pass 2000, .fires, .connects 2, .listens 2] ++
    [.errs 2, .ends 2, .pass 1500, .fires, .fails 3, .endSettles 3, .onModuleDestroy,
    .destroyed]) _ rfl
  refine ⟨_, _, rfl, rfl, rfl, hkeeps.2.1, hkeeps.2.2.1, rfl, rfl, ?_, hkeeps.2.2.2.2 rfl⟩
  refine hkeeps.2.2.2.1 _ _ _ rfl (Or.inr ?_) rfl (fun c => by simp)
  exact ⟨[.onModuleInit, .fails 0, .endSettles 0, .pass 1000, .fires, .errs 1, .fails 1,
    .endSettles 1, .pass 2000, .fires, .connects 2], 2, rfl⟩

end Relay

end Vynor.Realtime
