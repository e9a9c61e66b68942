import Vynor.RateLimit.Store
import Mathlib.Algebra.Group.Nat.Defs

/-!
# What the limits hold for

Both stores follow one counter for each subject, as long as their keys are apart
(`Follows`).  So a window accepts its first hits, whatever other subjects do.

The memory store stops following when it clears its map: the subject that brought
the map over its size is counted from zero again, in a window that has begun.
That happens exactly where there are more than 10,000 subjects.
-/

namespace Vynor.RateLimit

open Lib (OrderedMap.set OrderedMap.get?)
open Lib.FixedWindow (Window Counted Limited firstOf windows)

/-! ## One counter for each subject -/

/-- The windows under way. -/
abbrev Counters := Subject → Option (Window Date)

/-- The counters after a hit. -/
def Counters.hit (counters : Counters) (limit : Limit) (subject : Subject) (now : Date) : Counters :=
  Function.update counters subject
    (some (Lib.FixedWindow.hit (limit.windowMs : Int) (counters subject) now))

/-- A store whose states can be read as counters of some subjects, and whose hits
are those of the counters. -/
structure Follows (S : RateLimitStore) (subjects : Finset Subject) where
  Reads : S.State → Counters → Prop
  empty : Reads S.empty fun _ => none
  hit : ∀ {s : S.State} {counters : Counters} {subject : Subject} (limit : Limit) (now : Date),
    Reads s counters → subject ∈ subjects →
      Reads (S.hit s subject limit now).1 (counters.hit limit subject now) ∧
        (S.hit s subject limit now).2 =
          decide ((Lib.FixedWindow.hit (limit.windowMs : Int) (counters subject) now).count ≤
            limit.limit)

section Follows

variable {S : RateLimitStore} {subjects : Finset Subject} {limits : String → Limit}

/-- The hits of a subject are counted by its own counter. -/
theorem Follows.counted (F : Follows S subjects) {hits : List Hit} (subject : Subject) :
    ∀ {s : S.State} {counters : Counters}, F.Reads s counters →
      (∀ h ∈ hits, h.subject ∈ subjects) →
        Counted (limits subject.scope).limit ((limits subject.scope).windowMs : Int)
          (fun e : Hit × Bool => e.1.now) Prod.snd (counters subject)
          (ownHits subject (S.answers limits s hits)) := by
  induction hits with
  | nil =>
      intro s counters _ _
      exact Lib.FixedWindow.counted_nil _
  | cons h hits ih =>
      intro s counters hreads hmem
      obtain ⟨hreads', hanswer⟩ := F.hit (limits h.subject.scope) h.now hreads
        (hmem h List.mem_cons_self)
      have hrest := ih hreads' fun h' hh' => hmem h' (List.mem_cons_of_mem h hh')
      rw [ownHits, RateLimitStore.answers]
      by_cases hown : h.subject = subject
      · rw [List.filter_cons_of_pos (by simpa using hown), Lib.FixedWindow.counted_cons]
        rw [Counters.hit, hown, Function.update_self] at hrest
        refine ⟨?_, ?_⟩
        · rw [hanswer, hown]
        · rw [hown]
          exact hrest
      · rw [List.filter_cons_of_neg (by simpa using hown)]
        rw [Counters.hit, Function.update_of_ne fun heq => hown heq.symm] at hrest
        exact hrest

/-- A store that follows its counters keeps the limit of every subject. -/
theorem Follows.keepsLimit (F : Follows S subjects) {hits : List Hit}
    (h : ∀ h ∈ hits, h.subject ∈ subjects) : S.KeepsLimit limits hits :=
  fun subject => Lib.FixedWindow.accepted_of_counted (F.counted subject F.empty h)

end Follows

/-! ## Keys -/

/-- Subjects without a collision have keys of their own. -/
theorem Digest.key_injective {subjects : Finset Subject} (d : Digest subjects) {s s' : Subject}
    (hs : s ∈ subjects) (hs' : s' ∈ subjects)
    (h : rateLimitKey d.sha256 s = rateLimitKey d.sha256 s') : s = s' := by
  have hlists := congrArg String.toList h
  simp only [rateLimitKey, String.toList_append, List.append_assoc, List.append_cancel_left_eq] at hlists
  have hlength : (d.sha256 s.identity).toList.length = (d.sha256 s'.identity).toList.length := by
    rw [String.length_toList, String.length_toList, d.length_sha256, d.length_sha256]
  rw [← List.append_assoc, ← List.append_assoc] at hlists
  obtain ⟨hleft, hdigest⟩ := List.append_inj' hlists hlength
  have hscope := List.append_cancel_right hleft
  obtain ⟨scope, identity⟩ := s
  obtain ⟨scope', identity'⟩ := s'
  rw [Subject.mk.injEq]
  exact ⟨String.toList_injective hscope, d.apart _ hs _ hs' (String.toList_injective hdigest)⟩

/-! ## Redis -/

/-- A window as a counter in Redis. -/
def redisCounter (w : Window Date) : RedisCounter := ⟨w.count, some w.deadline⟩

/-- A counter is found until its window is over. -/
theorem get_redisCounter {db : RedisCounters} {key : String} {w : Window Date}
    (h : db key = some (redisCounter w)) (now : Date) :
    db.get now key = if now ≤ w.deadline then some (redisCounter w) else none := by
  by_cases hlive : now ≤ w.deadline
  · simp [RedisCounters.get, h, redisCounter, hlive]
  · simp [RedisCounters.get, h, redisCounter, hlive]

/-- The script counts a window on, or starts one. -/
theorem hitScript_eq {db : RedisCounters} {key : String} {window : Option (Window Date)}
    (h : db key = window.map redisCounter) (hcount : ∀ w ∈ window, 1 ≤ w.count) (now : Date)
    (windowMs : Nat) :
    hitScript db now key windowMs =
      (Function.update db key
          (some (redisCounter (Lib.FixedWindow.hit (windowMs : Int) window now))),
        (Lib.FixedWindow.hit (windowMs : Int) window now).count) := by
  cases window with
  | none =>
      have hget : db.get now key = none := by
        rw [RedisCounters.get, h]
        rfl
      simp [hitScript, RedisCounters.incr, hget, Lib.FixedWindow.hit, redisCounter]
  | some w =>
      have hget := get_redisCounter h now
      by_cases hlive : now ≤ w.deadline
      · have hfirst : w.count ≠ 0 := Nat.one_le_iff_ne_zero.mp (hcount w rfl)
        have httl : ¬ w.deadline - now < 0 := Int.not_lt.mpr (Int.sub_nonneg.mpr hlive)
        rw [if_pos hlive] at hget
        simp [hitScript, RedisCounters.incr, hget, Lib.FixedWindow.hit, redisCounter, hlive,
          RedisCounter.pttl, hfirst, httl]
      · rw [if_neg hlive] at hget
        simp [hitScript, RedisCounters.incr, hget, Lib.FixedWindow.hit, redisCounter, hlive]

/-- A window has counted the hit that started it. -/
theorem one_le_count_hit (width : Int) (window : Option (Window Date)) (now : Date) :
    1 ≤ (Lib.FixedWindow.hit width window now).count := by
  unfold Lib.FixedWindow.hit
  split
  · split
    · exact Nat.le_add_left 1 _
    · exact Nat.le_refl 1
  · exact Nat.le_refl 1

/-- The counters in Redis, under the keys of their subjects. -/
def RedisReads {subjects : Finset Subject} (d : Digest subjects) (db : RedisCounters)
    (counters : Counters) : Prop :=
  ∀ s ∈ subjects, db (rateLimitKey d.sha256 s) = (counters s).map redisCounter ∧
    ∀ w ∈ counters s, 1 ≤ w.count

theorem redisReads_hit {subjects : Finset Subject} {d : Digest subjects} {db : RedisCounters}
    {counters : Counters} {subject : Subject} (h : RedisReads d db counters)
    (hsubject : subject ∈ subjects) (limit : Limit) (now : Date) :
    RedisReads d (Function.update db (rateLimitKey d.sha256 subject)
        (some (redisCounter (Lib.FixedWindow.hit (limit.windowMs : Int) (counters subject) now))))
      (counters.hit limit subject now) := by
  intro s hs
  by_cases hown : s = subject
  · subst hown
    rw [Counters.hit, Function.update_self, Function.update_self]
    refine ⟨rfl, fun w hw => ?_⟩
    cases hw
    exact one_le_count_hit _ _ _
  · have hapart : rateLimitKey d.sha256 s ≠ rateLimitKey d.sha256 subject :=
      fun heq => hown (d.key_injective hs hsubject heq)
    rw [Counters.hit, Function.update_of_ne hown, Function.update_of_ne hapart]
    exact h s hs

/-- Redis follows the counters of all subjects whose keys are apart. -/
def followsRedis {subjects : Finset Subject} (d : Digest subjects) :
    Follows (RedisRateLimitStore d.sha256) subjects where
  Reads := RedisReads d
  empty := fun _ _ => ⟨rfl, fun _ hw => by cases hw⟩
  hit := by
    intro db counters subject limit now hreads hsubject
    obtain ⟨hkey, hcount⟩ := hreads subject hsubject
    simp only [RedisRateLimitStore, hitScript_eq hkey hcount now limit.windowMs]
    exact ⟨redisReads_hit hreads hsubject limit now, trivial⟩

/-! ## Memory -/

/-- A window as an entry of the map. -/
def memoryCounter (w : Window Date) : MemoryCounter := ⟨w.count, w.deadline⟩

/-- What a hit does to the map where the map is not cleared. -/
theorem memory_hit_eq {sha256 : String → String} {hits : MemoryCounters} {subject : Subject}
    {window : Option (Window Date)}
    (h : OrderedMap.get? hits (rateLimitKey sha256 subject) = window.map memoryCounter)
    (limit : Limit) (now : Date)
    (hroom : ∀ entry, (OrderedMap.set hits (rateLimitKey sha256 subject) entry).length ≤ 10000) :
    (MemoryRateLimitStore sha256).hit hits subject limit now =
      (OrderedMap.set hits (rateLimitKey sha256 subject)
          (memoryCounter (Lib.FixedWindow.hit (limit.windowMs : Int) window now)),
        decide ((Lib.FixedWindow.hit (limit.windowMs : Int) window now).count ≤ limit.limit)) := by
  have hsmall : ∀ entry,
      ¬ 10000 < (OrderedMap.set hits (rateLimitKey sha256 subject) entry).length :=
    fun entry => Nat.not_lt.mpr (hroom entry)
  cases window with
  | none =>
      have hcurrent : MemoryCounters.current hits now (rateLimitKey sha256 subject) = none := by
        rw [MemoryCounters.current, h]
        rfl
      simp [MemoryRateLimitStore, hcurrent, Lib.FixedWindow.hit, memoryCounter, hsmall,
        limit.limit_pos]
  | some w =>
      by_cases hlive : now ≤ w.deadline
      · have hcurrent : MemoryCounters.current hits now (rateLimitKey sha256 subject) =
            some (memoryCounter w) := by
          simp [MemoryCounters.current, h, memoryCounter, Int.not_lt.mpr hlive]
        simp [MemoryRateLimitStore, hcurrent, Lib.FixedWindow.hit, memoryCounter, hlive]
      · have hcurrent : MemoryCounters.current hits now (rateLimitKey sha256 subject) = none := by
          simp [MemoryCounters.current, h, memoryCounter, Int.not_le.mp hlive]
        simp [MemoryRateLimitStore, hcurrent, Lib.FixedWindow.hit, memoryCounter, hsmall, hlive,
          limit.limit_pos]

/-- The counters in the map, which has no other keys than those of the subjects. -/
structure MemoryReads {subjects : Finset Subject} (d : Digest subjects) (hits : MemoryCounters)
    (counters : Counters) : Prop where
  entry : ∀ s ∈ subjects,
    OrderedMap.get? hits (rateLimitKey d.sha256 s) = (counters s).map memoryCounter
  nodup : (hits.map Prod.fst).Nodup
  keys : ∀ key ∈ hits.map Prod.fst, ∃ s ∈ subjects, key = rateLimitKey d.sha256 s

/-- A map with no other keys is no larger than the subjects are many. -/
theorem MemoryReads.length_le {subjects : Finset Subject} {d : Digest subjects}
    {hits : MemoryCounters} {counters : Counters} (h : MemoryReads d hits counters) :
    hits.length ≤ subjects.card := by
  have hsub : (hits.map Prod.fst).toFinset ⊆ subjects.image (rateLimitKey d.sha256) := by
    intro key hkey
    obtain ⟨s, hs, rfl⟩ := h.keys key (List.mem_toFinset.mp hkey)
    exact Finset.mem_image_of_mem _ hs
  calc hits.length = (hits.map Prod.fst).length := by rw [List.length_map]
    _ = (hits.map Prod.fst).toFinset.card := (List.toFinset_card_of_nodup h.nodup).symm
    _ ≤ (subjects.image (rateLimitKey d.sha256)).card := Finset.card_le_card hsub
    _ ≤ subjects.card := Finset.card_image_le

theorem memoryReads_set {subjects : Finset Subject} {d : Digest subjects} {hits : MemoryCounters}
    {counters : Counters} {subject : Subject} (h : MemoryReads d hits counters)
    (hsubject : subject ∈ subjects) (w : Window Date) :
    MemoryReads d (OrderedMap.set hits (rateLimitKey d.sha256 subject) (memoryCounter w))
      (Function.update counters subject (some w)) := by
  refine ⟨fun s hs => ?_, Lib.OrderedMap.nodup_keys_set h.nodup _ _, fun key hkey => ?_⟩
  · rw [Lib.OrderedMap.get?_set]
    by_cases hown : s = subject
    · subst hown
      rw [if_pos rfl, Function.update_self]
      rfl
    · have hapart : rateLimitKey d.sha256 s ≠ rateLimitKey d.sha256 subject :=
        fun heq => hown (d.key_injective hs hsubject heq)
      rw [if_neg hapart, Function.update_of_ne hown]
      exact h.entry s hs
  · rcases Lib.OrderedMap.mem_keys_set.mp hkey with rfl | hold
    · exact ⟨subject, hsubject, rfl⟩
    · exact h.keys key hold

/-- The memory store follows the counters of up to 10,000 subjects. -/
def followsMemory {subjects : Finset Subject} (d : Digest subjects)
    (hfew : subjects.card ≤ 10000) : Follows (MemoryRateLimitStore d.sha256) subjects where
  Reads := MemoryReads d
  empty := ⟨fun _ _ => rfl, List.nodup_nil, fun _ hkey => by cases hkey⟩
  hit := by
    intro hits counters subject limit now hreads hsubject
    have hroom : ∀ entry,
        (OrderedMap.set hits (rateLimitKey d.sha256 subject) entry).length ≤ 10000 := by
      intro entry
      have hset := memoryReads_set hreads hsubject ⟨entry.resetAt, entry.count⟩
      exact hset.length_le.trans hfew
    rw [memory_hit_eq (hreads.entry subject hsubject) limit now hroom]
    exact ⟨memoryReads_set hreads hsubject _, rfl⟩

/-! ## More subjects than the map holds -/

section TooMany

variable {limits : String → Limit}

theorem RateLimitStore.answers_append (S : RateLimitStore) (limits : String → Limit)
    {as bs : List Hit} : ∀ {s : S.State},
      S.answers limits s (as ++ bs) =
        S.answers limits s as ++ S.answers limits (S.after limits s as) bs := by
  induction as with
  | nil =>
      intro s
      rfl
  | cons h as ih =>
      intro s
      rw [List.cons_append, answers, answers, after, ih, List.cons_append]

/-- The hits in a run of answers are those of the run. -/
theorem RateLimitStore.map_fst_answers (S : RateLimitStore) (limits : String → Limit)
    (hits : List Hit) : ∀ s : S.State, (S.answers limits s hits).map Prod.fst = hits := by
  induction hits with
  | nil =>
      intro s
      rfl
  | cons h hits ih =>
      intro s
      rw [answers, List.map_cons, ih]

/-- A run in which a subject does not occur. -/
theorem ownHits_answers_nil (S : RateLimitStore) (limits : String → Limit) {hits : List Hit}
    {subject : Subject} (h : ∀ h ∈ hits, h.subject ≠ subject) (s : S.State) :
    ownHits subject (S.answers limits s hits) = [] := by
  rw [ownHits, List.filter_eq_nil_iff]
  intro e he hown
  have hmem : e.1 ∈ hits := by
    rw [← S.map_fst_answers limits hits s]
    exact List.mem_map_of_mem he
  exact h e.1 hmem (by simpa using hown)

/-- One hit of each subject, at one moment. -/
def eachOnce (subjects : List Subject) : List Hit := subjects.map fun s => ⟨s, 0⟩

/-- Hits of new subjects fill the map, as long as it has room for them. -/
theorem keys_after_eachOnce {sha256 : String → String} {subjects : List Subject} :
    ∀ {hits : MemoryCounters}, (hits.map Prod.fst ++ subjects.map (rateLimitKey sha256)).Nodup →
      hits.length + subjects.length ≤ 10000 →
        ((MemoryRateLimitStore sha256).after limits hits (eachOnce subjects)).map Prod.fst =
          hits.map Prod.fst ++ subjects.map (rateLimitKey sha256) := by
  induction subjects with
  | nil =>
      intro hits _ _
      rw [List.map_nil, List.append_nil]
      rfl
  | cons s subjects ih =>
      intro hits hnodup hroom
      have hnew : rateLimitKey sha256 s ∉ hits.map Prod.fst := by
        intro hold
        exact (List.nodup_append.mp hnodup).2.2 _ hold _ List.mem_cons_self rfl
      rw [List.length_cons] at hroom
      have hset : ∀ entry, (OrderedMap.set hits (rateLimitKey sha256 s) entry).length ≤ 10000 := by
        intro entry
        rw [Lib.OrderedMap.set_of_not_mem hnew, List.length_append, List.length_singleton]
        omega
      have hnone : OrderedMap.get? hits (rateLimitKey sha256 s) =
          (none : Option (Window Date)).map memoryCounter := Lib.OrderedMap.get?_of_not_mem hnew
      have hhit := memory_hit_eq hnone (limits s.scope) 0 hset
      change ((MemoryRateLimitStore sha256).after limits
        ((MemoryRateLimitStore sha256).hit hits s (limits s.scope) 0).1
        (eachOnce subjects)).map Prod.fst = _
      rw [hhit, Lib.OrderedMap.set_of_not_mem hnew, ih]
      · simp
      · simpa using hnodup
      · rw [List.length_append, List.length_singleton]
        omega

/-- A new subject that does not fit clears the map, and is accepted. -/
theorem memory_hit_clears {sha256 : String → String} {hits : MemoryCounters} {subject : Subject}
    (hnew : rateLimitKey sha256 subject ∉ hits.map Prod.fst) (hfull : 10000 ≤ hits.length)
    (limit : Limit) (now : Date) :
    (MemoryRateLimitStore sha256).hit hits subject limit now = (([] : MemoryCounters), true) := by
  have hcurrent : MemoryCounters.current hits now (rateLimitKey sha256 subject) = none := by
    rw [MemoryCounters.current, Lib.OrderedMap.get?_of_not_mem hnew]
    rfl
  simp only [MemoryRateLimitStore, hcurrent, Lib.OrderedMap.set_of_not_mem hnew,
    List.length_append, List.length_singleton]
  rw [if_pos (Nat.lt_succ_of_le hfull)]

/-- A subject alone in the map is accepted up to its limit. -/
theorem answers_alone {sha256 : String → String} {subject : Subject} {n : Nat} :
    ∀ {window : Window Date}, 0 ≤ window.deadline →
      window.count + n ≤ (limits subject.scope).limit →
        (MemoryRateLimitStore sha256).answers limits
            [(rateLimitKey sha256 subject, memoryCounter window)]
            (List.replicate n ⟨subject, 0⟩) =
          List.replicate n (⟨subject, 0⟩, true) := by
  induction n with
  | zero =>
      intro window _ _
      rfl
  | succ n ih =>
      intro window hopen hroom
      have hentry : OrderedMap.get? [(rateLimitKey sha256 subject, memoryCounter window)]
          (rateLimitKey sha256 subject) = (some window).map memoryCounter := by
        simp [OrderedMap.get?]
      have hset : ∀ entry, OrderedMap.set [(rateLimitKey sha256 subject, memoryCounter window)]
          (rateLimitKey sha256 subject) entry = [(rateLimitKey sha256 subject, entry)] := by
        intro entry
        simp [OrderedMap.set]
      have hnext : Lib.FixedWindow.hit ((limits subject.scope).windowMs : Int) (some window) 0 =
          ⟨window.deadline, window.count + 1⟩ := by
        simp [Lib.FixedWindow.hit, hopen]
      have hhit := memory_hit_eq hentry (limits subject.scope) 0 fun entry => by
        rw [hset]
        exact Nat.le_of_ble_eq_true rfl
      rw [hset, hnext] at hhit
      have hwithin : window.count + 1 ≤ (limits subject.scope).limit := by omega
      have hrest : (MemoryRateLimitStore sha256).answers limits
          [(rateLimitKey sha256 subject, memoryCounter ⟨window.deadline, window.count + 1⟩)]
          (List.replicate n ⟨subject, 0⟩) = List.replicate n (⟨subject, 0⟩, true) :=
        ih hopen (by
          show window.count + 1 + n ≤ _
          omega)
      rw [List.replicate_succ, List.replicate_succ]
      change (_, ((MemoryRateLimitStore sha256).hit _ subject (limits subject.scope) 0).2) ::
        (MemoryRateLimitStore sha256).answers limits
          ((MemoryRateLimitStore sha256).hit _ subject (limits subject.scope) 0).1 _ = _
      rw [hhit, hrest]
      simp [hwithin]

/-- From an empty map a subject is accepted up to its limit. -/
theorem answers_fresh {sha256 : String → String} {subject : Subject} {n : Nat}
    (hroom : n ≤ (limits subject.scope).limit) :
    (MemoryRateLimitStore sha256).answers limits (([] : MemoryCounters))
        (List.replicate n ⟨subject, 0⟩) =
      List.replicate n (⟨subject, 0⟩, true) := by
  cases n with
  | zero => rfl
  | succ n =>
      have hnone : OrderedMap.get? ([] : MemoryCounters) (rateLimitKey sha256 subject) =
          (none : Option (Window Date)).map memoryCounter := rfl
      have hhit := memory_hit_eq hnone (limits subject.scope) 0 fun entry =>
        Nat.le_of_ble_eq_true rfl
      have hrest : (MemoryRateLimitStore sha256).answers limits
          [(rateLimitKey sha256 subject,
            memoryCounter ⟨0 + ((limits subject.scope).windowMs : Int), 1⟩)]
          (List.replicate n ⟨subject, 0⟩) = List.replicate n (⟨subject, 0⟩, true) := by
        refine answers_alone ?_ ?_
        · show (0 : Int) ≤ 0 + (limits subject.scope).windowMs
          omega
        · show 1 + n ≤ _
          omega
      rw [List.replicate_succ, List.replicate_succ]
      change (_, ((MemoryRateLimitStore sha256).hit ([] : MemoryCounters) subject
          (limits subject.scope) 0).2) ::
        (MemoryRateLimitStore sha256).answers limits
          ((MemoryRateLimitStore sha256).hit ([] : MemoryCounters) subject
            (limits subject.scope) 0).1 _ = _
      rw [hhit]
      simp only [Lib.FixedWindow.hit, OrderedMap.set]
      rw [hrest]
      simp [(limits subject.scope).limit_pos]

/-- A subject is accepted once more than its limit allows. -/
theorem not_limited_of_all (subject : Subject) {answers : List (Hit × Bool)} {limit : Limit}
    (h : answers = List.replicate (limit.limit + 1) (⟨subject, 0⟩, true)) :
    ¬ Limited limit.limit (limit.windowMs : Int) (fun e : Hit × Bool => e.1.now) Prod.snd answers := by
  intro hlimited
  rw [List.replicate_succ] at h
  have hone : windows (limit.windowMs : Int) (fun e : Hit × Bool => e.1.now) answers = [answers] := by
    rw [h]
    refine Lib.FixedWindow.windows_of_all fun e he => ?_
    rw [List.eq_of_mem_replicate he]
    show (0 : Int) ≤ 0 + limit.windowMs
    omega
  have hwindow := hlimited answers (by rw [hone]; exact List.mem_singleton_self answers)
  have hfalse : false ∈ firstOf limit.limit answers.length := by
    have hlength : answers.length = limit.limit + 1 := by
      rw [h, List.length_cons, List.length_replicate]
    rw [firstOf, hlength, Nat.add_sub_cancel_left]
    simp
  rw [← hwindow, h] at hfalse
  simp at hfalse

/-- Hits of 10,000 subjects, then of one more, and again up to its limit. -/
def flood (limits : String → Limit) (subjects : List Subject) (subject : Subject) : List Hit :=
  eachOnce subjects ++ ⟨subject, 0⟩ :: List.replicate (limits subject.scope).limit ⟨subject, 0⟩

theorem subject_of_mem_flood {subjects : List Subject} {subject : Subject} {h : Hit}
    (hh : h ∈ flood limits subjects subject) : h.subject ∈ subject :: subjects := by
  rw [flood, ← List.replicate_succ, List.mem_append] at hh
  rcases hh with hh | hh
  · obtain ⟨s, hs, rfl⟩ := List.mem_map.mp hh
    exact List.mem_cons_of_mem _ hs
  · rw [List.eq_of_mem_replicate hh]
    exact List.mem_cons_self

/-- The subject that clears the map is accepted beyond its limit. -/
theorem not_keepsLimit_flood (limits : String → Limit) {sha256 : String → String} {subjects : List Subject}
    {subject : Subject} (hlength : subjects.length = 10000)
    (hkeys : ((subjects ++ [subject]).map (rateLimitKey sha256)).Nodup) :
    ¬ (MemoryRateLimitStore sha256).KeepsLimit limits (flood limits subjects subject) := by
  intro hkeeps
  rw [List.map_append, List.map_singleton] at hkeys
  obtain ⟨hnodup, _, hapart⟩ := List.nodup_append.mp hkeys
  have hnew : rateLimitKey sha256 subject ∉ subjects.map (rateLimitKey sha256) :=
    fun hold => hapart _ hold _ (List.mem_singleton_self _) rfl
  have hfull : ((MemoryRateLimitStore sha256).after limits ([] : MemoryCounters)
      (eachOnce subjects)).map Prod.fst = subjects.map (rateLimitKey sha256) :=
    keys_after_eachOnce (by simpa using hnodup) (by simp [hlength])
  obtain ⟨full, hafter⟩ : ∃ full : MemoryCounters, (MemoryRateLimitStore sha256).after limits
      ([] : MemoryCounters) (eachOnce subjects) = full := ⟨_, rfl⟩
  rw [hafter] at hfull
  have hsize : full.length = 10000 := by
    rw [← hlength, ← List.length_map (rateLimitKey sha256), ← hfull, List.length_map]
  rw [← hfull] at hnew
  have hclear := memory_hit_clears hnew hsize.ge (limits subject.scope) 0
  have hother : ∀ h ∈ eachOnce subjects, h.subject ≠ subject := by
    rintro h hh rfl
    obtain ⟨s, hs, rfl⟩ := List.mem_map.mp hh
    rw [hfull] at hnew
    exact hnew (List.mem_map_of_mem hs)
  have hbefore := ownHits_answers_nil (MemoryRateLimitStore sha256) limits hother
    ([] : MemoryCounters)
  have hlast : (MemoryRateLimitStore sha256).answers limits full
      (⟨subject, 0⟩ :: List.replicate (limits subject.scope).limit ⟨subject, 0⟩) =
      List.replicate ((limits subject.scope).limit + 1) (⟨subject, 0⟩, true) := by
    change (_, ((MemoryRateLimitStore sha256).hit full subject (limits subject.scope) 0).2) ::
      (MemoryRateLimitStore sha256).answers limits
        ((MemoryRateLimitStore sha256).hit full subject (limits subject.scope) 0).1 _ = _
    rw [hclear, answers_fresh (Nat.le_refl _), List.replicate_succ]
  refine not_limited_of_all subject ?_ (hkeeps subject)
  have hanswers : (MemoryRateLimitStore sha256).answers limits ([] : MemoryCounters)
      (flood limits subjects subject) =
      (MemoryRateLimitStore sha256).answers limits ([] : MemoryCounters) (eachOnce subjects) ++
        List.replicate ((limits subject.scope).limit + 1) (⟨subject, 0⟩, true) := by
    refine (RateLimitStore.answers_append _ limits).trans (congrArg (_ ++ ·) ?_)
    exact (congrArg (fun s => RateLimitStore.answers _ limits s _) hafter).trans hlast
  refine (congrArg (ownHits subject) hanswers).trans ?_
  rw [ownHits, List.filter_append]
  refine (congrArg (· ++ _) hbefore).trans ?_
  rw [List.nil_append, List.filter_eq_self]
  intro e he
  rw [List.eq_of_mem_replicate he]
  simp

end TooMany

/-! ## The limits -/

/-- Redis keeps every limit in every run.  The memory store keeps it in every run
of some subjects exactly when they are no more than the map holds. -/
theorem keepsLimit_iff (limits : String → Limit) {subjects : Finset Subject}
    (d : Digest subjects) :
    (∀ hits : List Hit, (∀ h ∈ hits, h.subject ∈ subjects) →
      (RedisRateLimitStore d.sha256).KeepsLimit limits hits) ∧
    ((∀ hits : List Hit, (∀ h ∈ hits, h.subject ∈ subjects) →
      (MemoryRateLimitStore d.sha256).KeepsLimit limits hits) ↔ subjects.card ≤ 10000) := by
  refine ⟨fun hits h => (followsRedis d).keepsLimit h, ?_, fun hfew hits h =>
    (followsMemory d hfew).keepsLimit h⟩
  intro hkeeps
  by_contra hmany
  -- 10,001 of the subjects, one after the other, and the last one again.
  obtain ⟨chosen, hsub, hcard⟩ := Finset.exists_subset_card_eq (Nat.lt_of_not_le hmany)
  have hlength : chosen.toList.length = 10001 := by rw [Finset.length_toList, hcard]
  obtain ⟨subject, rest, hlist⟩ : ∃ subject rest, chosen.toList = subject :: rest := by
    cases hlist : chosen.toList with
    | nil => rw [hlist] at hlength; cases hlength
    | cons subject rest => exact ⟨subject, rest, rfl⟩
  have hmem : ∀ s ∈ subject :: rest, s ∈ subjects := by
    intro s hs
    rw [← hlist, Finset.mem_toList] at hs
    exact hsub hs
  have hnodup : (subject :: rest).Nodup := hlist ▸ chosen.nodup_toList
  have hkeys : ((rest ++ [subject]).map (rateLimitKey d.sha256)).Nodup := by
    refine List.Nodup.map_on (fun s hs s' hs' heq => ?_) ?_
    · have hback : ∀ t ∈ rest ++ [subject], t ∈ subjects := by
        intro t ht
        exact hmem t ((List.perm_append_singleton subject rest).mem_iff.mp ht)
      exact d.key_injective (hback s hs) (hback s' hs') heq
    · exact (List.perm_append_singleton subject rest).nodup_iff.mpr hnodup
  refine not_keepsLimit_flood limits ?_ hkeys (hkeeps (flood limits rest subject) fun h hh => ?_)
  · rw [hlist, List.length_cons] at hlength
    exact Nat.succ.inj hlength
  · exact hmem _ (subject_of_mem_flood hh)

/-! ## One visitor too many -/

/-- Visitors who are told apart by the length of their identity. -/
def visitor (i : Nat) : Subject := ⟨"webchat-message", String.ofList (List.replicate i 'a')⟩

/-- A digest that tells these visitors apart: the length of the identity, in 64
binary digits. -/
def lengthDigest (identity : String) : String :=
  String.ofList ((List.range 64).map fun k => if identity.length.testBit k then '1' else '0')

theorem lengthDigest_injective {s s' : String} (hs : s.length < 2 ^ 64) (hs' : s'.length < 2 ^ 64)
    (h : lengthDigest s = lengthDigest s') : s.length = s'.length := by
  have hbits := String.ofList_injective h
  refine Nat.eq_of_testBit_eq fun k => ?_
  by_cases hk : k < 64
  · have hbit := List.map_inj_left.mp hbits k (List.mem_range.mpr hk)
    cases hb : s.length.testBit k <;> cases hb' : s'.length.testBit k <;> simp_all
  · have hpow : 2 ^ 64 ≤ 2 ^ k := Nat.pow_le_pow_right (by decide) (Nat.le_of_not_lt hk)
    rw [Nat.testBit_lt_two_pow (hs.trans_le hpow), Nat.testBit_lt_two_pow (hs'.trans_le hpow)]

theorem visitor_injective : Function.Injective visitor := by
  intro i j h
  have hidentity := String.ofList_injective (congrArg Subject.identity h)
  simpa using congrArg List.length hidentity

/-- The visitors of the run. -/
def visitors : Finset Subject := (Finset.range 10001).map ⟨visitor, visitor_injective⟩

theorem length_identity_visitors {s : Subject} (hs : s ∈ visitors) :
    s.identity.length < 2 ^ 64 ∧ s = visitor s.identity.length := by
  obtain ⟨i, hi, rfl⟩ := Finset.mem_map.mp hs
  have hlength : (visitor i).identity.length = i := by simp [visitor]
  refine ⟨?_, by rw [Function.Embedding.coeFn_mk, hlength]⟩
  rw [Function.Embedding.coeFn_mk, hlength]
  exact (Finset.mem_range.mp hi).trans (by decide)

def visitorDigest : Digest visitors where
  sha256 := lengthDigest
  length_sha256 identity := by simp [lengthDigest]
  apart s hs s' hs' h := by
    obtain ⟨hlt, heq⟩ := length_identity_visitors hs
    obtain ⟨hlt', heq'⟩ := length_identity_visitors hs'
    rw [heq, heq', lengthDigest_injective hlt hlt' h]

/-- With 10,000 visitors in the map, the next one sends 31 messages in one
window, where 30 are allowed. -/
theorem not_keepsLimit : ¬ ∀ (limits : String → Limit) (subjects : Finset Subject)
    (d : Digest subjects) (hits : List Hit), (∀ h ∈ hits, h.subject ∈ subjects) →
      (MemoryRateLimitStore d.sha256).KeepsLimit limits hits := by
  intro hall
  have hmem : ∀ t ∈ (List.range 10001).map visitor, t ∈ visitors := by
    intro t ht
    obtain ⟨i, hi, rfl⟩ := List.mem_map.mp ht
    exact Finset.mem_map_of_mem _ (Finset.mem_range.mpr (List.mem_range.mp hi))
  have hlist : (List.range 10000).map visitor ++ [visitor 10000] =
      (List.range 10001).map visitor := by
    rw [← List.map_singleton, ← List.map_append, ← List.range_succ]
  have hkeys : (((List.range 10000).map visitor ++ [visitor 10000]).map
      (rateLimitKey visitorDigest.sha256)).Nodup := by
    rw [hlist]
    refine List.Nodup.map_on (fun s hs s' hs' heq => ?_) (List.nodup_range.map visitor_injective)
    exact visitorDigest.key_injective (hmem s hs) (hmem s' hs') heq
  refine not_keepsLimit_flood (fun _ => MESSAGE_LIMIT) ?_ hkeys
    (hall (fun _ => MESSAGE_LIMIT) visitors visitorDigest _ fun h hh => ?_)
  · rw [List.length_map, List.length_range]
  · refine hmem h.subject ?_
    rw [← hlist]
    exact (List.perm_append_singleton _ _).mem_iff.mpr (subject_of_mem_flood hh)

end Vynor.RateLimit
