import Vynor.Credentials.Presentation

/-!
# Secrecy of presented credentials

A presentation is the credentials without their secret paths, and the hints.  A
hint depends on its secret only by the hint class of the secret: nothing of a
password, the part before the colon and the mask of the rest of the token of a
bot, and the mask of any other secret.  So two accepted credentials that differ in
their secrets alone, and not in the classes of these, are presented alike
(`presentCredentials_secret`).
-/

namespace Vynor.Credentials

open Lib (Heap Memory Units Value Field Under Without unit)
open Connection (Primitive Kind Runtime PROVIDER_SECRET_FIELDS SecretAt HasOneColon secretPaths
  segmentsOf credentialsSchema)

variable {ν : Type}

/-! ## Hint classes -/

/-- What the mask of a secret shows: whether it is longer than eight code units,
and the last four if it is. -/
inductive Mask where
  | short
  | long (lastFour : Units)
deriving DecidableEq

def maskOf (secret : Units) : Mask :=
  if 8 < secret.length then .long (secret.drop (secret.length - 4)) else .short

/-- What may be known of a secret. -/
inductive HintClass where
  | password
  | botToken (botId : Units) (rest : Mask)
  | token (mask : Mask)
deriving DecidableEq

def hintClass (provider : ChannelProviderType) (path : List Units) (secret : Units) : HintClass :=
  if path.getLast? = some (codeUnits "password") then .password
  else if provider = .telegramBot ∧ path = [codeUnits "botToken"] then
    .botToken (secret.takeWhile fun u => u ≠ unit ':')
      (maskOf (secret.dropWhile fun u => u ≠ unit ':').tail)
  else .token (maskOf secret)

/-- Two credentials differ in their secrets alone, and these have the same
classes. -/
structure SameButSecrets (provider : ChannelProviderType) (heap : Heap (Primitive ν) Kind)
    (value : Value (Primitive ν)) (heap' : Heap (Primitive ν) Kind) (value' : Value (Primitive ν)) :
    Prop where
  fields : ∀ path, ¬Under (secretPaths provider) path →
    heap.fieldAt value path = heap'.fieldAt value' path
  classes : ∀ path ∈ secretPaths provider, ∀ secret secret',
    heap.fieldAt value path = some (.atom (.string secret)) →
      heap'.fieldAt value' path = some (.atom (.string secret')) →
        hintClass provider path secret = hintClass provider path secret'

/-! ## Hints -/

/-- How a mask is shown. -/
def Mask.text : Mask → Units
  | .short => codeUnits "••••"
  | .long lastFour => codeUnits "••••" ++ lastFour

theorem maskSecret_eq (secret : Units) : maskSecret secret = (maskOf secret).text := by
  rw [maskSecret, maskOf]
  by_cases hshort : secret.length ≤ 8
  · rw [if_pos hshort, if_neg (Nat.not_lt.mpr hshort), Mask.text]
  · rw [if_neg hshort, if_pos (Nat.lt_of_not_le hshort), Mask.text]

theorem split_of_hasOneColon {secret : Units} (h : HasOneColon secret) :
    split ':' secret = [secret.takeWhile fun u => u ≠ unit ':',
      (secret.dropWhile fun u => u ≠ unit ':').tail] := by
  obtain ⟨before, after, rfl, hbefore, hafter⟩ := h
  have hother : ∀ u ∈ before, decide (u ≠ unit ':') = true := fun u hu =>
    decide_eq_true fun heq => hbefore (heq ▸ hu)
  have htake : (unit ':' :: after).takeWhile (fun u => decide (u ≠ unit ':')) = [] := by
    rw [List.takeWhile_cons, if_neg (by decide)]
  have hdrop : (unit ':' :: after).dropWhile (fun u => decide (u ≠ unit ':')) =
      unit ':' :: after := by
    rw [List.dropWhile_cons, if_neg (by decide)]
  rw [split, List.splitOn_append_cons_self_of_not_mem hbefore, List.splitOn_eq_singleton hafter,
    List.takeWhile_append_of_pos hother, List.dropWhile_append_of_pos hother, htake, hdrop,
    List.append_nil, List.tail_cons]

/-- The secret fields that are passwords, and the one that is the token of a bot,
are told by their last names. -/
theorem path_iff {provider : ChannelProviderType} {path : String}
    (hpath : path ∈ PROVIDER_SECRET_FIELDS provider) :
    (codeUnits "password" <:+ codeUnits path ↔
        (segmentsOf path).getLast? = some (codeUnits "password")) ∧
      (codeUnits path = codeUnits "botToken" ↔ segmentsOf path = [codeUnits "botToken"]) := by
  have hall : (PROVIDER_SECRET_FIELDS provider).all (fun path =>
      decide (codeUnits "password" <:+ codeUnits path ↔
        (segmentsOf path).getLast? = some (codeUnits "password")) &&
      decide (codeUnits path = codeUnits "botToken" ↔
        segmentsOf path = [codeUnits "botToken"])) = true := by
    cases provider <;> decide
  obtain ⟨hpassword, htoken⟩ := Bool.and_eq_true_iff.mp (List.all_eq_true.mp hall path hpath)
  exact ⟨of_decide_eq_true hpassword, of_decide_eq_true htoken⟩

/-- A hint depends on the class of the secret alone. -/
theorem hintOf_congr {provider : ChannelProviderType} {path : String}
    (hpath : path ∈ PROVIDER_SECRET_FIELDS provider) {secret secret' : Units}
    (hcolon : provider = .telegramBot → HasOneColon secret)
    (hcolon' : provider = .telegramBot → HasOneColon secret')
    (hclass : hintClass provider (segmentsOf path) secret =
      hintClass provider (segmentsOf path) secret') :
    hintOf provider (codeUnits path) secret = hintOf provider (codeUnits path) secret' := by
  obtain ⟨hpassword, htoken⟩ := path_iff hpath
  rw [hintClass, hintClass] at hclass
  rw [hintOf, hintOf]
  by_cases hlast : codeUnits "password" <:+ codeUnits path
  · rw [if_pos hlast, if_pos hlast]
  · rw [if_neg (hlast ∘ hpassword.mpr), if_neg (hlast ∘ hpassword.mpr)] at hclass
    rw [if_neg hlast, if_neg hlast]
    by_cases hbot : provider = .telegramBot ∧ codeUnits path = codeUnits "botToken"
    · have hbot' := hbot.imp_right htoken.mp
      rw [if_pos hbot', if_pos hbot'] at hclass
      rw [if_pos hbot, if_pos hbot]
      injection hclass with hid hrest
      rw [split_of_hasOneColon (hcolon hbot.1), split_of_hasOneColon (hcolon' hbot.1)]
      simp only [List.getElem?_cons_zero, List.getElem?_cons_succ, Option.getD_some, maskSecret_eq,
        hid, hrest]
    · have hother := mt (And.imp_right htoken.mpr) hbot
      rw [if_neg hother, if_neg hother] at hclass
      rw [if_neg hbot, if_neg hbot]
      injection hclass with hmask
      rw [maskSecret_eq, maskSecret_eq, hmask]

/-- `getPath` finds what there is at a path. -/
theorem getPath_eq (heap : Heap (Primitive ν) Kind) (source : Value (Primitive ν)) (path : Units) :
    getPath heap source path = (heap.valueAt source (split '.' path)).getD (.atom .undefined) := by
  rw [getPath]
  induction split '.' path generalizing source with
  | nil => rfl
  | cons key path ih =>
      rw [List.foldl_cons, ih, Heap.valueAt]
      have hundefined : ∀ path, (heap.valueAt (.atom .undefined) path).getD (.atom .undefined) =
          (.atom .undefined : Value (Primitive ν)) := by
        intro path
        cases path <;> rfl
      cases source with
      | atom value => exact hundefined path
      | ref a =>
          cases hget : heap.get? (.ref a) key with
          | none =>
              simp only [hget]
              exact hundefined path
          | some value => simp only [hget, Option.getD_some, Option.bind_some]

theorem getPath_of_secretAt {heap : Heap (Primitive ν) Kind} {source : Value (Primitive ν)}
    {path : String} {secret : Units} (h : SecretAt heap source (segmentsOf path) secret) :
    getPath heap source (codeUnits path) = .atom (.string secret) := by
  obtain ⟨value, hvalue, hdescribe⟩ := Option.bind_eq_some_iff.mp h.text
  have hpath : heap.valueAt source (split '.' (codeUnits path)) = some value := hvalue
  rw [getPath_eq, hpath, Option.getD_some]
  cases value with
  | atom atom =>
      injection hdescribe with hfield
      injection hfield with hatom
      rw [hatom]
  | ref a =>
      obtain ⟨o, _, hobject⟩ := Option.map_eq_some_iff.mp hdescribe
      cases hobject

/-! ## The loop -/

/-- Some paths have been removed. -/
structure Progress (memory : Memory (Primitive ν) Kind) (credentials : Nat)
    (done : List (List Units)) (state : Heap (Primitive ν) Kind × Presentation) : Prop where
  unchanged : memory.heap <+: state.1
  closed : state.1.Closed
  address : state.2.details < state.1.length
  without : Without done memory.heap (.ref credentials) state.1 (.ref state.2.details)

section Loop

variable {provider : ChannelProviderType} {memory : Memory (Primitive ν) Kind} {credentials : Nat}
  {done : List (List Units)} {state : Heap (Primitive ν) Kind × Presentation}

/-- One round removes one path more. -/
theorem Progress.presentField (hprogress : Progress memory credentials done state) {path : String}
    (hpath : path ∈ PROVIDER_SECRET_FIELDS provider)
    (hrecords : ThroughRecords memory.heap (.ref credentials) (segmentsOf path)) :
    Progress memory credentials (done ++ [segmentsOf path])
      (presentField provider credentials state path) := by
  have hall : (PROVIDER_SECRET_FIELDS provider).all (fun path =>
      (segmentsOf path).all fun segment => !segment.isEmpty) = true := by
    cases provider <;> decide
  have hnames : ∀ segment ∈ segmentsOf path, segment ≠ [] := by
    intro segment hsegment hnil
    have hne := List.all_eq_true.mp (List.all_eq_true.mp hall path hpath) segment hsegment
    rw [hnil] at hne
    cases hne
  have hcopied : Copied state.1 state.2.details (segmentsOf path)
      (withoutPath state.1 state.2.details (codeUnits path)) := by
    refine copied_withoutSegments (List.splitOn_ne_nil _ _) hnames hprogress.closed
      hprogress.address fun start kind hstart hproper hfield => ?_
    by_cases hunder : Under done start
    · rw [hprogress.without.removed start hunder] at hfield
      cases hfield
    · rw [hprogress.without.kept start hunder] at hfield
      exact hrecords start kind hstart hproper hfield
  exact ⟨hprogress.unchanged.trans hcopied.unchanged, hcopied.closed, hcopied.address,
    hprogress.without.concat hcopied.without⟩

/-- One round adds the hint of what the credentials had at first. -/
theorem Progress.hints_presentField (hprogress : Progress memory credentials done state)
    (haddress : credentials < memory.heap.length) (path : String) :
    (Credentials.presentField provider credentials state path).2.hints =
      addHint provider (getPath memory.heap (.ref credentials) (codeUnits path)) (codeUnits path)
        state.2.hints := by
  have hbelow : (Value.ref credentials : Value (Primitive ν)).Below memory.heap.length := by
    rintro a ⟨⟩
    exact haddress
  have hsame := ((Heap.agreeOn_of_prefix memory.closed hprogress.unchanged).valueAt hbelow
    (split '.' (codeUnits path))).1
  have hpath : getPath state.1 (.ref credentials) (codeUnits path) =
      getPath memory.heap (.ref credentials) (codeUnits path) := by
    rw [getPath_eq, getPath_eq, hsame]
  rw [← hpath]
  rfl

/-- All rounds remove all paths and add the hints of all secrets. -/
theorem Progress.foldl_presentField (haddress : credentials < memory.heap.length)
    {fields : List String} (hfields : ∀ path ∈ fields, path ∈ PROVIDER_SECRET_FIELDS provider ∧
      ThroughRecords memory.heap (.ref credentials) (segmentsOf path))
    (hprogress : Progress memory credentials done state) :
    Progress memory credentials (done ++ fields.map segmentsOf)
        (fields.foldl (Credentials.presentField provider credentials) state) ∧
      (fields.foldl (Credentials.presentField provider credentials) state).2.hints =
        fields.foldl (fun hints path =>
          addHint provider (getPath memory.heap (.ref credentials) (codeUnits path))
            (codeUnits path) hints) state.2.hints := by
  induction fields generalizing done state with
  | nil =>
      rw [List.map_nil, List.append_nil]
      exact ⟨hprogress, rfl⟩
  | cons path fields ih =>
      obtain ⟨hfirst, hrest⟩ := List.forall_mem_cons.mp hfields
      obtain ⟨hend, hhints⟩ := ih hrest (hprogress.presentField hfirst.1 hfirst.2)
      rw [List.append_assoc] at hend
      rw [hprogress.hints_presentField haddress path] at hhints
      exact ⟨hend, hhints⟩

end Loop

/-! ## The presentation -/

/-- The presentation of credentials: no object that there was is changed, and the
details are the credentials without the secret paths. -/
structure Presented (provider : ChannelProviderType) (memory : Memory (Primitive ν) Kind)
    (credentials : Nat) (result : Heap (Primitive ν) Kind × Presentation) : Prop where
  unchanged : memory.heap <+: result.1
  details : Without (secretPaths provider) memory.heap (.ref credentials) result.1
    (.ref result.2.details)

/-- Two presentations cannot be told apart. -/
structure SamePresentation (result result' : Heap (Primitive ν) Kind × Presentation) : Prop where
  details : ∀ path, result.1.fieldAt (.ref result.2.details) path =
    result'.1.fieldAt (.ref result'.2.details) path
  hints : result.2.hints = result'.2.hints

section Accepted

variable {rt : Runtime ν} {provider : ChannelProviderType} {memory : Memory (Primitive ν) Kind}
  {credentials : Nat}

theorem presented_of_accepted
    (h : credentialsSchema rt provider memory.heap (.ref credentials) = true) :
    Presented provider memory credentials
        (presentCredentials memory.heap provider credentials) ∧
      (presentCredentials memory.heap provider credentials).2.hints =
        (PROVIDER_SECRET_FIELDS provider).foldl (fun hints path =>
          addHint provider (getPath memory.heap (.ref credentials) (codeUnits path))
            (codeUnits path) hints) [] := by
  have haddress := Heap.lt_of_describe (Connection.describe_of_credentials h)
  have hfields : ∀ path ∈ PROVIDER_SECRET_FIELDS provider,
      path ∈ PROVIDER_SECRET_FIELDS provider ∧
        ThroughRecords memory.heap (.ref credentials) (segmentsOf path) := by
    intro path hpath
    obtain ⟨secret, hsecret, _⟩ := Connection.exists_secretAt h path hpath
    exact ⟨hpath, hsecret.records⟩
  have hstart : Progress memory credentials [] (memory.heap, ⟨credentials, []⟩) :=
    ⟨List.prefix_rfl, memory.closed, haddress, Lib.without_nil _ _⟩
  obtain ⟨hend, hhints⟩ := hstart.foldl_presentField haddress hfields
  exact ⟨⟨hend.unchanged, hend.without⟩, hhints⟩

end Accepted

/-- Credentials that differ in their secrets alone are presented alike, without
their secrets, and are left as they are. -/
theorem presentCredentials_secret (rt : Runtime ν) (provider : ChannelProviderType)
    (memory memory' : Memory (Primitive ν) Kind) (credentials credentials' : Nat)
    (h : credentialsSchema rt provider memory.heap (.ref credentials) = true)
    (h' : credentialsSchema rt provider memory'.heap (.ref credentials') = true)
    (hagree : SameButSecrets provider memory.heap (.ref credentials) memory'.heap
      (.ref credentials')) :
    Presented provider memory credentials (presentCredentials memory.heap provider credentials) ∧
      Presented provider memory' credentials'
        (presentCredentials memory'.heap provider credentials') ∧
      SamePresentation (presentCredentials memory.heap provider credentials)
        (presentCredentials memory'.heap provider credentials') := by
  obtain ⟨hpresented, hhints⟩ := presented_of_accepted h
  obtain ⟨hpresented', hhints'⟩ := presented_of_accepted h'
  refine ⟨hpresented, hpresented', fun path => ?_, ?_⟩
  · by_cases hunder : Under (secretPaths provider) path
    · rw [hpresented.details.removed path hunder, hpresented'.details.removed path hunder]
    · rw [hpresented.details.kept path hunder, hpresented'.details.kept path hunder]
      exact hagree.fields path hunder
  · rw [hhints, hhints']
    refine List.foldl_ext _ _ _ fun hints path hpath => ?_
    obtain ⟨secret, hsecret, hcolon⟩ := Connection.exists_secretAt h path hpath
    obtain ⟨secret', hsecret', hcolon'⟩ := Connection.exists_secretAt h' path hpath
    have hclass := hagree.classes (segmentsOf path) (List.mem_map_of_mem hpath) secret secret'
      hsecret.text hsecret'.text
    have hhint := hintOf_congr hpath hcolon hcolon' hclass
    rw [getPath_of_secretAt hsecret, getPath_of_secretAt hsecret', addHint, addHint, hint?, hint?,
      if_pos (List.length_pos_iff.mpr hsecret.ne_nil),
      if_pos (List.length_pos_iff.mpr hsecret'.ne_nil), hhint]

/-! ### Two tokens -/

/-- The checks of a runtime that knows texts of ASCII. -/
def asciiRuntime : Runtime Nat where
  toLowerCase := fun text => text.map fun u => if Connection.isUpperUnit u then u + 32 else u
  isEmail := fun text => unit '@' ∈ text
  isUrl := Connection.startsWithHttp
  toNumber := fun _ value =>
    match value with
    | .atom (.number n) => .finite n
    | _ => .nan

/-- The credentials of a bot. -/
def botCredentials (token : String) : Memory (Primitive Nat) Kind where
  heap :=
    [{ kind := .record
       properties := [(codeUnits "botToken", .atom (.string (codeUnits token)))]
       distinct := List.nodup_singleton _ }]
  closed := by
    intro o ho p hp a ha
    rw [List.mem_singleton.mp ho] at hp
    rw [List.mem_singleton.mp hp] at ha
    cases ha

theorem fieldAt_botToken (token : String) :
    (botCredentials token).heap.fieldAt (.ref 0) [codeUnits "botToken"] =
      some (.atom (.string (codeUnits token))) := rfl

theorem get?_botCredentials {name : Units} (hname : name ≠ codeUnits "botToken") (token : String) :
    (botCredentials token).heap.get? (.ref 0) name = none := by
  rw [Heap.get?, botCredentials, List.getElem?_cons_zero, Option.bind_some,
    Lib.Object.get?_eq_none]
  exact fun hmem => hname (List.mem_singleton.mp hmem)

theorem sameButSecrets_botCredentials {token token' : String}
    (hclass : hintClass .telegramBot [codeUnits "botToken"] (codeUnits token) =
      hintClass .telegramBot [codeUnits "botToken"] (codeUnits token')) :
    SameButSecrets .telegramBot (botCredentials token).heap (.ref 0) (botCredentials token').heap
      (.ref 0) := by
  have hpaths : secretPaths .telegramBot = [[codeUnits "botToken"]] := by decide
  constructor
  · intro path hunder
    cases path with
    | nil => rfl
    | cons name path =>
        by_cases hname : name = codeUnits "botToken"
        · refine absurd ⟨[codeUnits "botToken"], ?_, ?_⟩ hunder
          · rw [hpaths]
            exact List.mem_singleton_self _
          · exact List.cons_prefix_cons.mpr ⟨hname.symm, List.nil_prefix⟩
        · rw [Heap.fieldAt_cons, Heap.fieldAt_cons, get?_botCredentials hname,
            get?_botCredentials hname, Option.bind_none, Option.bind_none]
  · intro path hpath secret secret' hsecret hsecret'
    rw [hpaths, List.mem_singleton] at hpath
    rw [hpath, fieldAt_botToken] at hsecret hsecret'
    cases hsecret
    cases hsecret'
    rw [hpath]
    exact hclass

theorem presentCredentials_secret_botCredentials :
    let token := "123456789:AAAAAAAAAAAAAAAAAAAAAAAAAAAAAAA4K-c"
    let token' := "123456789:BBBBBBBBBBBBBBBBBBBBBBBBBBBBBBB4K-c"
    Presented .telegramBot (botCredentials token) 0
        (presentCredentials (botCredentials token).heap .telegramBot 0) ∧
      Presented .telegramBot (botCredentials token') 0
        (presentCredentials (botCredentials token').heap .telegramBot 0) ∧
      SamePresentation (presentCredentials (botCredentials token).heap .telegramBot 0)
        (presentCredentials (botCredentials token').heap .telegramBot 0) := by
  refine presentCredentials_secret asciiRuntime .telegramBot _ _ 0 0 (by decide) (by decide) ?_
  exact sameButSecrets_botCredentials (by decide)

end Vynor.Credentials
