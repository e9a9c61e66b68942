import Mathlib.Data.List.TakeWhile
import Mathlib.Order.Lattice

/-!
# Fixed windows

A window starts with its first hit and lasts `width`; the first hit past its end
starts the next one.  `windows` cuts a list of hits into their windows.  A
counter does so without the list: `hit` counts a hit in the window it falls into.

`accepted_of_counted` is the rule for limits on top of a counter: where a hit is
accepted as long as its number is within the limit, each window accepts exactly
its first hits.
-/

namespace Lib.FixedWindow

variable {α τ : Type*} [LinearOrder τ] [Add τ]

/-! ## Windows -/

/-- The hits of each window, one list for each. -/
def windows (width : τ) (time : α → τ) : List α → List (List α)
  | [] => []
  | a :: rest =>
      (a :: rest.takeWhile fun b => time b ≤ time a + width) ::
        windows width time (rest.dropWhile fun b => time b ≤ time a + width)
termination_by hits => hits.length
decreasing_by
  exact Nat.lt_succ_of_le (List.dropWhile_sublist _).length_le

/-- Of `n` hits, the first `limit` and no others. -/
def firstOf (limit n : Nat) : List Bool :=
  List.replicate (min limit n) true ++ List.replicate (n - limit) false

/-- In each window, exactly the first hits up to the limit are accepted. -/
def Limited (limit : Nat) (width : τ) (time : α → τ) (accepted : α → Bool) (hits : List α) : Prop :=
  ∀ window ∈ windows width time hits, window.map accepted = firstOf limit window.length

/-- All hits of one window. -/
theorem windows_of_all {width : τ} {time : α → τ} {a : α} {rest : List α}
    (h : ∀ b ∈ rest, time b ≤ time a + width) : windows width time (a :: rest) = [a :: rest] := by
  have hall : ∀ b ∈ rest, decide (time b ≤ time a + width) = true := fun b hb => by simpa using h b hb
  rw [windows, List.takeWhile_eq_self_iff.mpr hall, List.dropWhile_eq_nil_iff.mpr hall, windows]

/-! ## Counters -/

/-- A window under way: its end, and the hits it has counted. -/
structure Window (τ : Type*) where
  deadline : τ
  count : Nat
deriving DecidableEq, Repr

/-- The window after a hit. -/
def hit (width : τ) (window : Option (Window τ)) (t : τ) : Window τ :=
  match window with
  | some w => if t ≤ w.deadline then ⟨w.deadline, w.count + 1⟩ else ⟨t + width, 1⟩
  | none => ⟨t + width, 1⟩

/-- The number of each hit in its window. -/
def counts (width : τ) : Option (Window τ) → List τ → List Nat
  | _, [] => []
  | window, t :: ts => (hit width window t).count :: counts width (some (hit width window t)) ts

/-- A hit is accepted as long as its number is within the limit. -/
def Counted (limit : Nat) (width : τ) (time : α → τ) (accepted : α → Bool)
    (window : Option (Window τ)) (hits : List α) : Prop :=
  hits.map accepted = (counts width window (hits.map time)).map fun n => decide (n ≤ limit)

section Counted

variable {limit : Nat} {width : τ} {time : α → τ} {accepted : α → Bool}

theorem counted_nil (window : Option (Window τ)) : Counted limit width time accepted window [] := rfl

theorem counted_cons {window : Option (Window τ)} {a : α} {rest : List α} :
    Counted limit width time accepted window (a :: rest) ↔
      accepted a = decide ((hit width window (time a)).count ≤ limit) ∧
        Counted limit width time accepted (some (hit width window (time a))) rest := by
  simp [Counted, counts]

/-- The numbers of a window that goes on: those after the ones it has counted. -/
theorem counted_takeWhile {hits : List α} : ∀ {w : Window τ},
    Counted limit width time accepted (some w) hits →
      ((hits.takeWhile fun b => time b ≤ w.deadline).map accepted =
        (List.range' (w.count + 1) (hits.takeWhile fun b => time b ≤ w.deadline).length).map
          fun n => decide (n ≤ limit)) ∧
      Counted limit width time accepted none (hits.dropWhile fun b => time b ≤ w.deadline) := by
  induction hits with
  | nil =>
      intro w _
      exact ⟨rfl, rfl⟩
  | cons a rest ih =>
      intro w h
      obtain ⟨ha, hrest⟩ := counted_cons.mp h
      by_cases hin : time a ≤ w.deadline
      · rw [hit, if_pos hin] at ha hrest
        obtain ⟨htake, hdrop⟩ := ih hrest
        rw [List.takeWhile_cons_of_pos (by simpa using hin),
          List.dropWhile_cons_of_pos (by simpa using hin)]
        refine ⟨?_, hdrop⟩
        rw [List.map_cons, List.length_cons, List.range'_succ, List.map_cons, ha, htake]
      · rw [List.takeWhile_cons_of_neg (by simpa using hin),
          List.dropWhile_cons_of_neg (by simpa using hin)]
        refine ⟨rfl, counted_cons.mpr ?_⟩
        rw [hit, if_neg hin] at ha hrest
        exact ⟨ha, hrest⟩

/-- Numbers from one on are within the limit for the first hits. -/
theorem map_range'_le (limit n : Nat) :
    ((List.range' 1 n).map fun m => decide (m ≤ limit)) = firstOf limit n := by
  induction n with
  | zero => simp [firstOf]
  | succ n ih =>
      rw [List.range'_1_concat, List.map_append, ih, List.map_singleton, firstOf, firstOf]
      by_cases hn : n + 1 ≤ limit
      · have hle : n ≤ limit := Nat.le_of_succ_le hn
        rw [Nat.min_eq_right hn, Nat.min_eq_right hle, Nat.sub_eq_zero_of_le hn,
          Nat.sub_eq_zero_of_le hle]
        simp [List.replicate_succ', Nat.add_comm 1 n, hn]
      · have hle : limit ≤ n := Nat.lt_succ_iff.mp (Nat.lt_of_not_le hn)
        rw [Nat.min_eq_left (Nat.le_succ_of_le hle), Nat.min_eq_left hle, Nat.succ_sub hle,
          List.replicate_succ', List.append_assoc]
        simp [Nat.add_comm 1 n, hn]

/-- A counter keeps its limit. -/
theorem accepted_of_counted {hits : List α} (h : Counted limit width time accepted none hits) :
    Limited limit width time accepted hits := by
  induction hits using windows.induct width time with
  | case1 =>
      intro window hw
      rw [windows] at hw
      cases hw
  | case2 a rest ih =>
      obtain ⟨ha, hrest⟩ := counted_cons.mp h
      obtain ⟨htake, hdrop⟩ := counted_takeWhile hrest
      intro window hw
      rw [windows] at hw
      rcases List.mem_cons.mp hw with rfl | hw
      · rw [List.map_cons, List.length_cons, ← map_range'_le, List.range'_succ, List.map_cons, ha]
        exact congrArg _ htake
      · exact ih hdrop window hw

end Counted

end Lib.FixedWindow
