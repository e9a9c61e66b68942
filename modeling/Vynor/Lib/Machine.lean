import Mathlib.Data.List.Basic

/-!
# Machines

A *machine* is a partial step function on states: an action takes a state to
the next one, or it cannot happen there.  Everything that is open at run time
(which process moves, what a peer answers, what a clock shows) is part of the
action, so a list of actions is one interleaving, and a statement about every
list of actions is a statement about every interleaving.

`run` is the state after a list of actions.  `Along P` says that every step a
list of actions takes satisfies `P`, which speaks of the state before the
step, the action and the state after it.  The rules below are the inductions
over runs, each done once:

* `invariant`: what every step preserves holds at the end of every run;
* `invariant_along`: the same where a step needs a condition to preserve it;
* `along_of_along`: an invariant that makes every step good makes every run
  good;
* `along_iff` and `along_iff_guarded`: two readings of a good step that agree
  under an invariant agree along every run.  In the second one the invariant
  itself is only kept by good steps.
-/

namespace Lib

/-- A partial step function. -/
structure Machine (σ α : Type*) where
  /-- The state after the action, or `none` where the action cannot happen. -/
  step : σ → α → Option σ

namespace Machine

variable {σ α : Type*} (M : Machine σ α)

/-- The state after a list of actions. -/
def run : σ → List α → Option σ
  | s, [] => some s
  | s, a :: as => (M.step s a).bind fun s' => run s' as

@[simp] theorem run_nil (s : σ) : M.run s [] = some s := rfl

theorem run_cons (s : σ) (a : α) (as : List α) :
    M.run s (a :: as) = (M.step s a).bind fun s' => M.run s' as := rfl

theorem run_cons_eq_some {s s'' : σ} {a : α} {as : List α} :
    M.run s (a :: as) = some s'' ↔ ∃ s', M.step s a = some s' ∧ M.run s' as = some s'' := by
  rw [run_cons, Option.bind_eq_some_iff]

theorem run_append_eq_some {s s'' : σ} {bs : List α} :
    ∀ {as : List α}, M.run s (as ++ bs) = some s'' ↔
      ∃ s', M.run s as = some s' ∧ M.run s' bs = some s'' := by
  intro as
  induction as generalizing s with
  | nil => simp
  | cons a as ih =>
      rw [List.cons_append, run_cons_eq_some]
      constructor
      · rintro ⟨s1, h1, h2⟩
        obtain ⟨s2, h3, h4⟩ := ih.mp h2
        exact ⟨s2, (M.run_cons_eq_some).mpr ⟨s1, h1, h3⟩, h4⟩
      · rintro ⟨s2, h1, h2⟩
        obtain ⟨s1, h3, h4⟩ := (M.run_cons_eq_some).mp h1
        exact ⟨s1, h3, ih.mpr ⟨s2, h4, h2⟩⟩

/-- Every step that the actions take from here on satisfies `P`. -/
def Along (P : σ → α → σ → Prop) : σ → List α → Prop
  | _, [] => True
  | s, a :: as => ∀ s', M.step s a = some s' → P s a s' ∧ Along P s' as

variable {M} {P Q : σ → α → σ → Prop} {I : σ → Prop}

@[simp] theorem along_nil (s : σ) : M.Along P s [] := trivial

theorem Along.mono (hPQ : ∀ s a s', P s a s' → Q s a s') {as : List α} :
    ∀ {s : σ}, M.Along P s as → M.Along Q s as := by
  induction as with
  | nil => intro s _; trivial
  | cons a as ih =>
      intro s h s' hs
      exact ⟨hPQ _ _ _ (h s' hs).1, ih (h s' hs).2⟩

/-- Along a run whose first step is known. -/
theorem along_cons {a : α} {as : List α} {s s' : σ} (hs : M.step s a = some s') :
    M.Along P s (a :: as) ↔ P s a s' ∧ M.Along P s' as := by
  constructor
  · intro h
    exact h s' hs
  · intro h s'' hs''
    rw [hs, Option.some.injEq] at hs''
    exact hs'' ▸ h

/-- Two properties along one run. -/
theorem Along.and {as : List α} :
    ∀ {s : σ}, M.Along P s as → M.Along Q s as →
      M.Along (fun s a s' => P s a s' ∧ Q s a s') s as := by
  induction as with
  | nil => intro s _ _; trivial
  | cons a as ih =>
      intro s hP hQ s' hs
      exact ⟨⟨(hP s' hs).1, (hQ s' hs).1⟩, ih (hP s' hs).2 (hQ s' hs).2⟩

/-- The part of a run after a prefix is good when the run is. -/
theorem Along.of_append {as bs : List α} :
    ∀ {s s' : σ}, M.Along P s (as ++ bs) → M.run s as = some s' → M.Along P s' bs := by
  induction as with
  | nil =>
      intro s s' h hr
      cases hr
      exact h
  | cons a as ih =>
      intro s s' h hr
      obtain ⟨s1, h1, h2⟩ := (M.run_cons_eq_some).mp hr
      exact ih (h s1 h1).2 h2

/-- A run that is good is good at its last step. -/
theorem Along.last {as : List α} {a : α} {s s1 s2 : σ} (h : M.Along P s (as ++ [a]))
    (hr : M.run s as = some s1) (hs : M.step s1 a = some s2) : P s1 a s2 :=
  (h.of_append hr s2 hs).1

/-- A property that comes to hold along a run comes to hold in one of its
steps. -/
theorem exists_step_of_run {p : σ → Prop} {as : List α} :
    ∀ {s s' : σ}, M.run s as = some s' → ¬ p s → p s' →
      ∃ pre a post s1 s2, as = pre ++ a :: post ∧ M.run s pre = some s1 ∧
        M.step s1 a = some s2 ∧ ¬ p s1 ∧ p s2 := by
  induction as with
  | nil =>
      intro s s' hr h0 h1
      cases hr
      exact absurd h1 h0
  | cons a as ih =>
      intro s s' hr h0 h1
      obtain ⟨s1, hs, hr⟩ := (M.run_cons_eq_some).mp hr
      by_cases hp : p s1
      · exact ⟨[], a, as, s, s1, rfl, rfl, hs, h0, hp⟩
      · obtain ⟨pre, b, post, s2, s3, rfl, hpre, hstep, hn, hy⟩ := ih hr hp h1
        exact ⟨a :: pre, b, post, s2, s3, rfl, (M.run_cons_eq_some).mpr ⟨s1, hs, hpre⟩, hstep, hn, hy⟩

/-- A view of the last step of a run that can be computed is a view of two
states of the run. -/
theorem exists_last {β : Type*} {f : σ → σ → β} {as : List α} {a : α} {s : σ} {b : β}
    (h : ((M.run s as).bind fun s1 => (M.step s1 a).map (f s1)) = some b) :
    ∃ s1 s2, M.run s as = some s1 ∧ M.step s1 a = some s2 ∧ f s1 s2 = b := by
  obtain ⟨s1, h1, h2⟩ := Option.bind_eq_some_iff.mp h
  obtain ⟨s2, h3, h4⟩ := Option.map_eq_some_iff.mp h2
  exact ⟨s1, s2, h1, h3, h4⟩

/-! ## The history of a run -/

/-- The steps the actions take: the state before, the action, the state after. -/
def trace (M : Machine σ α) : σ → List α → List (σ × α × σ)
  | _, [] => []
  | s, a :: as =>
      match M.step s a with
      | none => []
      | some s' => (s, a, s') :: M.trace s' as

/-- A run is good when every step of its history is. -/
theorem along_of_trace {as : List α} :
    ∀ {s : σ}, (∀ e ∈ M.trace s as, P e.1 e.2.1 e.2.2) → M.Along P s as := by
  induction as with
  | nil => intro s _; trivial
  | cons a as ih =>
      intro s h s' hs
      simp only [trace, hs, List.mem_cons] at h
      exact ⟨h (s, a, s') (Or.inl rfl), ih fun e he => h e (Or.inr he)⟩

/-- What holds of the history before a step and of the state there, and is kept
when the step joins the history, holds at the end of a run. -/
theorem invariant_trace {J : List (σ × α × σ) → σ → Prop}
    (hstep : ∀ t s a s', J t s → M.step s a = some s' → J (t ++ [(s, a, s')]) s') {as : List α} :
    ∀ {t : List (σ × α × σ)} {s s' : σ}, J t s → M.run s as = some s' →
      J (t ++ M.trace s as) s' := by
  induction as with
  | nil =>
      intro t s s' hJ hr
      cases hr
      rw [trace, List.append_nil]
      exact hJ
  | cons a as ih =>
      intro t s s' hJ hr
      obtain ⟨s1, h1, h2⟩ := (M.run_cons_eq_some).mp hr
      have hrest := ih (hstep t s a s1 hJ h1) h2
      rw [List.append_assoc] at hrest
      simp only [trace, h1]
      exact hrest

/-- Actions that are good wherever they happen make a good run. -/
theorem along_of_forall {as : List α}
    (h : ∀ a ∈ as, ∀ s s', M.step s a = some s' → P s a s') (s : σ) : M.Along P s as := by
  induction as generalizing s with
  | nil => trivial
  | cons a as ih =>
      intro s' hs
      exact ⟨h a List.mem_cons_self s s' hs, ih (fun b hb => h b (List.mem_cons_of_mem a hb)) s'⟩

/-- Whether every step the actions take passes a test of the state before it. -/
def checks (M : Machine σ α) (p : σ → α → Bool) : σ → List α → Bool
  | _, [] => true
  | s, a :: as => (M.step s a).all fun s' => p s a && M.checks p s' as

/-- A run that passes a test is good where the test says so. -/
theorem along_of_checks {p : σ → α → Bool} (hp : ∀ s a s', p s a = true → P s a s')
    {as : List α} : ∀ {s : σ}, M.checks p s as = true → M.Along P s as := by
  induction as with
  | nil => intro s _; trivial
  | cons a as ih =>
      intro s h s' hs
      rw [checks, hs, Option.all_some, Bool.and_eq_true] at h
      exact ⟨hp s a s' h.1, ih h.2⟩

/-! ## Invariants of runs -/

/-- What every step preserves holds at the end of every run. -/
theorem invariant (hstep : ∀ s a s', I s → M.step s a = some s' → I s') {as : List α} :
    ∀ {s s' : σ}, I s → M.run s as = some s' → I s' := by
  induction as with
  | nil =>
      intro s s' hI hr
      cases hr
      exact hI
  | cons a as ih =>
      intro s s' hI hr
      obtain ⟨s1, h1, h2⟩ := (M.run_cons_eq_some).mp hr
      exact ih (hstep s a s1 hI h1) h2

/-- What every good step preserves holds at the end of every run of good
steps. -/
theorem invariant_along (hstep : ∀ s a s', I s → M.step s a = some s' → P s a s' → I s')
    {as : List α} :
    ∀ {s s' : σ}, I s → M.Along P s as → M.run s as = some s' → I s' := by
  induction as with
  | nil =>
      intro s s' hI _ hr
      cases hr
      exact hI
  | cons a as ih =>
      intro s s' hI hA hr
      obtain ⟨s1, h1, h2⟩ := (M.run_cons_eq_some).mp hr
      exact ih (hstep s a s1 hI h1 (hA s1 h1).1) (hA s1 h1).2 h2

/-- An invariant that good steps keep, and under which a step that is good in
one sense is good in another. -/
theorem along_of_along (hstep : ∀ s a s', I s → M.step s a = some s' → P s a s' → I s' ∧ Q s a s')
    {as : List α} : ∀ {s : σ}, I s → M.Along P s as → M.Along Q s as := by
  induction as with
  | nil => intro s _ _; trivial
  | cons a as ih =>
      intro s hI hA s' hs
      obtain ⟨hI', hQ⟩ := hstep s a s' hI hs (hA s' hs).1
      exact ⟨hQ, ih hI' (hA s' hs).2⟩

/-- Two readings of a good step that agree under an invariant agree along
every run. -/
theorem along_iff (hstep : ∀ s a s', I s → M.step s a = some s' → I s')
    (hPQ : ∀ s a s', I s → M.step s a = some s' → (P s a s' ↔ Q s a s')) {as : List α} {s : σ}
    (hI : I s) : M.Along P s as ↔ M.Along Q s as := by
  constructor
  · exact along_of_along (fun s a s' hI hs hP => ⟨hstep s a s' hI hs, (hPQ s a s' hI hs).mp hP⟩) hI
  · exact along_of_along (fun s a s' hI hs hQ => ⟨hstep s a s' hI hs, (hPQ s a s' hI hs).mpr hQ⟩) hI

/-- The same where only good steps keep the invariant. -/
theorem along_iff_guarded
    (hPQ : ∀ s a s', I s → M.step s a = some s' → (P s a s' ↔ Q s a s'))
    (hstep : ∀ s a s', I s → M.step s a = some s' → Q s a s' → I s') {as : List α} {s : σ}
    (hI : I s) : M.Along P s as ↔ M.Along Q s as := by
  constructor
  · refine along_of_along (fun s a s' hI hs hP => ?_) hI
    have hQ := (hPQ s a s' hI hs).mp hP
    exact ⟨hstep s a s' hI hs hQ, hQ⟩
  · exact along_of_along (fun s a s' hI hs hQ => ⟨hstep s a s' hI hs hQ, (hPQ s a s' hI hs).mpr hQ⟩) hI

end Machine

end Lib
