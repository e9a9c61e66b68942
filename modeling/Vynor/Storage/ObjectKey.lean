import Vynor.Basic
import Vynor.Lib.IsoDate
import Vynor.Lib.OrderedMap

/-!
# Object keys

`buildObjectKey` puts a workspace, a purpose, a day and an opaque name into the
key of an object, and `parseObjectKey` takes a key apart.  A key is parsed to what
it was built from, if its year has four digits and is none of the first hundred,
and is built again from what it is parsed to (`objectKeys_roundTrip`).
-/

namespace Vynor.Storage

open Lib.IsoDate (Fields fields utc msPerDay pad pad_zero pad_foldl)

/-! ## Building -/

/-- `AttachmentPurpose`. -/
inductive AttachmentPurpose where
  | messageInbound
  | messageOutbound
  | knowledgeSource
  | bulkImport
  | reportExport
  | avatar
  | automationArtifact
deriving DecidableEq, Repr

/-- `ATTACHMENT_PURPOSE_SEGMENTS`, as its entries. -/
def ATTACHMENT_PURPOSE_SEGMENTS : List (AttachmentPurpose × String) :=
  [(.messageInbound, "message-inbound"), (.messageOutbound, "message-outbound"),
    (.knowledgeSource, "knowledge-source"), (.bulkImport, "bulk-import"),
    (.reportExport, "report-export"), (.avatar, "avatar"),
    (.automationArtifact, "automation-artifact")]

/-- `ATTACHMENT_PURPOSE_SEGMENTS[purpose]`. -/
def AttachmentPurpose.segment (purpose : AttachmentPurpose) : String :=
  (Lib.OrderedMap.get? ATTACHMENT_PURPOSE_SEGMENTS purpose).getD "undefined"

/-- `PURPOSE_BY_SEGMENT`. -/
def PURPOSE_BY_SEGMENT : List (String × AttachmentPurpose) :=
  Lib.OrderedMap.ofPairs (ATTACHMENT_PURPOSE_SEGMENTS.map fun entry => (entry.2, entry.1))

/-- `[A-Za-z0-9_-]`. -/
def isSegmentChar (c : Char) : Bool := c.isAlphanum || c = '_' || c = '-'

/-- `KEY_SEGMENT_PATTERN`. -/
def isOpaqueSegment (value : String) : Bool :=
  !value.toList.isEmpty && value.toList.all isSegmentChar

def assertOpaqueSegment (name value : String) : Except String Unit :=
  if isOpaqueSegment value then .ok ()
  else .error (name ++ " must be opaque and contain only letters, numbers, underscores, or hyphens")

/-- `BuildObjectKeyInput`.  An invalid date has no moment. -/
structure BuildObjectKeyInput where
  workspaceId : String
  purpose : AttachmentPurpose
  createdAt : Option Date
  opaqueObjectId : String

/-- `String(value)` of a whole number. -/
def numeral (value : Int) : List Char :=
  if value < 0 then '-' :: Nat.toDigits 10 value.natAbs else Nat.toDigits 10 value.natAbs

/-- `padStart(width, '0')`. -/
def padStart (width : Nat) (text : List Char) : List Char :=
  List.replicate (width - text.length) '0' ++ text

/-- The segments of a key. -/
def keySegments (workspaceId : String) (purpose : AttachmentPurpose) (date : Fields)
    (opaqueObjectId : String) : List (List Char) :=
  ["workspaces".toList, workspaceId.toList, purpose.segment.toList,
    padStart 4 (numeral date.year), padStart 2 (numeral date.month),
    padStart 2 (numeral date.day), opaqueObjectId.toList]

def buildObjectKey (input : BuildObjectKeyInput) : Except String String := do
  assertOpaqueSegment "workspaceId" input.workspaceId
  assertOpaqueSegment "opaqueObjectId" input.opaqueObjectId
  match input.createdAt with
  | none => .error "createdAt must be a valid date"
  | some createdAt =>
      .ok (String.ofList (['/'].intercalate
        (keySegments input.workspaceId input.purpose (fields createdAt) input.opaqueObjectId)))

/-! ## Parsing -/

/-- `ParsedObjectKey`. -/
structure ParsedObjectKey where
  workspaceId : String
  purpose : AttachmentPurpose
  year : Nat
  month : Nat
  day : Nat
  opaqueObjectId : String
deriving DecidableEq, Repr

/-- The number of a text that matches `/^\d{width}$/`. -/
def digits? (width : Nat) (text : List Char) : Option Nat :=
  if text.length = width then Lib.digitsValue? 10 text else none

/-- `Date.UTC(year, month, day)`.  The first month is 0, and the years before 100
are those of the twentieth century. -/
def dateUTC (year month : Int) (day : Nat) : Date :=
  let year := if 0 ≤ year ∧ year ≤ 99 then 1900 + year else year
  utc
    { year := year + month / 12
      month := (month % 12).toNat + 1
      day := day
      hour := 0
      minute := 0
      second := 0
      millisecond := 0 }

/-- A date whose fields are the ones it was made from. -/
def isDatePartition (year month day : Nat) : Bool :=
  let date := fields (dateUTC year (month - 1) day)
  date.year = year && date.month = month && date.day = day

def parseObjectKey (key : String) : Except String ParsedObjectKey :=
  match key.toList.splitOn '/' with
  | [workspaces, workspaceId, purposeSegment, yearSegment, monthSegment, daySegment,
      opaqueObjectId] =>
      if workspaces ≠ "workspaces".toList then
        .error "Object key does not match the VYNOR storage convention"
      else do
        assertOpaqueSegment "workspaceId" (String.ofList workspaceId)
        assertOpaqueSegment "opaqueObjectId" (String.ofList opaqueObjectId)
        match Lib.OrderedMap.get? PURPOSE_BY_SEGMENT (String.ofList purposeSegment) with
        | none => .error "Object key contains an unsupported purpose"
        | some purpose =>
            match digits? 4 yearSegment, digits? 2 monthSegment, digits? 2 daySegment with
            | some year, some month, some day =>
                if isDatePartition year month day then
                  .ok
                    { workspaceId := String.ofList workspaceId
                      purpose := purpose
                      year := year
                      month := month
                      day := day
                      opaqueObjectId := String.ofList opaqueObjectId }
                else .error "Object key contains an invalid UTC date partition"
            | _, _, _ => .error "Object key contains an invalid UTC date partition"
  | _ => .error "Object key does not match the VYNOR storage convention"

/-! ## Purposes -/

theorem get?_segment (purpose : AttachmentPurpose) :
    Lib.OrderedMap.get? PURPOSE_BY_SEGMENT purpose.segment = some purpose := by
  cases purpose <;> decide

/-- No two purposes have the same segment. -/
theorem segment_of_get? {text : String} {purpose : AttachmentPurpose}
    (h : Lib.OrderedMap.get? PURPOSE_BY_SEGMENT text = some purpose) : purpose.segment = text := by
  have hall : PURPOSE_BY_SEGMENT.all (fun entry => entry.2.segment = entry.1) = true := by decide
  exact of_decide_eq_true (List.all_eq_true.mp hall _ (Lib.OrderedMap.mem_of_get? h))

theorem slash_not_mem_segment (purpose : AttachmentPurpose) : '/' ∉ purpose.segment.toList := by
  cases purpose <;> decide

/-! ## Numbers -/

/-- A number that is not too long is padded to its width. -/
theorem padStart_toDigits {width n : Nat} (hwidth : 0 < width) (h : n < 10 ^ width) :
    padStart width (Nat.toDigits 10 n) = pad width n := by
  induction width generalizing n with
  | zero => exact absurd hwidth (Nat.lt_irrefl 0)
  | succ width ih =>
      by_cases hsmall : n < 10
      · rw [Nat.toDigits_of_lt_base hsmall, padStart, pad, Nat.div_eq_of_lt hsmall, pad_zero,
          Nat.mod_eq_of_lt hsmall, List.length_singleton, Nat.add_sub_cancel]
      · have hten : 10 ≤ n := Nat.not_lt.mp hsmall
        have hdiv : n / 10 < 10 ^ width := Nat.div_lt_of_lt_mul (by rwa [pow_succ'] at h)
        have hpositive : 0 < width := by
          by_contra hzero
          rw [Nat.eq_zero_of_not_pos hzero] at h
          omega
        rw [Nat.toDigits_of_base_le (by decide) hten, pad, ← ih hpositive hdiv, padStart, padStart,
          List.length_append, List.length_singleton, Nat.add_sub_add_right, List.append_assoc]

theorem padStart_numeral {width n : Nat} (hwidth : 0 < width) (h : n < 10 ^ width) :
    padStart width (numeral n) = pad width n := by
  have hpositive : ¬(n : Int) < 0 := by omega
  rw [numeral, if_neg hpositive, Int.natAbs_natCast, padStart_toDigits hwidth h]

theorem digits?_pad {width n : Nat} (h : n < 10 ^ width) :
    digits? width (pad width n) = some n := by
  rw [digits?, if_pos (Lib.IsoDate.length_pad width n), Lib.digitsValue?,
    if_pos (Lib.IsoDate.all_pad width n), Lib.IsoDate.foldl_pad width n h]

/-- A number that is read is written with the same digits. -/
theorem pad_of_digits? {width n : Nat} {text : List Char} (h : digits? width text = some n) :
    pad width n = text ∧ n < 10 ^ width := by
  rw [digits?] at h
  split at h
  · next hlength =>
      rw [Lib.digitsValue?] at h
      split at h
      · next hall =>
          have hdigits : ∀ c ∈ text, Lib.digitValue c < 10 :=
            fun c hc => of_decide_eq_true (List.all_eq_true.mp hall c hc)
          have hbound := Lib.foldl_digits_lt hdigits 0
          cases h
          rw [Nat.zero_add, Nat.one_mul, hlength] at hbound
          exact ⟨hlength ▸ pad_foldl hdigits, hbound⟩
      · cases h
  · cases h

/-! ## Dates -/

/-- The midnight before a moment is on the same day. -/
theorem fields_midnight (t : Date) :
    (fields (t / msPerDay * msPerDay)).year = (fields t).year ∧
      (fields (t / msPerDay * msPerDay)).month = (fields t).month ∧
      (fields (t / msPerDay * msPerDay)).day = (fields t).day := by
  have hday : t / msPerDay * msPerDay / msPerDay = t / msPerDay :=
    Int.mul_ediv_cancel _ (by decide)
  simp only [fields, hday, and_self]

/-- `Date.UTC` of the day of a moment, after the first hundred years. -/
theorem dateUTC_fields {t : Date} (h : 100 ≤ (fields t).year) :
    dateUTC (fields t).year ((fields t).month - 1) (fields t).day = t / msPerDay * msPerDay := by
  obtain ⟨hday, -, hmonth, hmonth', -⟩ := Lib.IsoDate.fields_spec t
  have hyear : ¬(0 ≤ (fields t).year ∧ (fields t).year ≤ 99) := by omega
  have hover : ((fields t).month - 1 : Int) / 12 = 0 := by omega
  have hindex : (((fields t).month - 1 : Int) % 12).toNat + 1 = (fields t).month := by omega
  simp only [dateUTC, if_neg hyear, hover, hindex, Int.add_zero, utc]
  rw [hday]
  simp

/-- A moment is on the day of a parsed key. -/
def ParsedObjectKey.OnDay (parsed : ParsedObjectKey) (createdAt : Date) : Prop :=
  (fields createdAt).year = parsed.year ∧ (fields createdAt).month = parsed.month ∧
    (fields createdAt).day = parsed.day

instance (parsed : ParsedObjectKey) (createdAt : Date) : Decidable (parsed.OnDay createdAt) :=
  inferInstanceAs (Decidable (_ ∧ _ ∧ _))

theorem isDatePartition_iff {year month day : Nat} :
    isDatePartition year month day = true ↔
      (fields (dateUTC year (month - 1) day)).year = year ∧
        (fields (dateUTC year (month - 1) day)).month = month ∧
        (fields (dateUTC year (month - 1) day)).day = day := by
  simp only [isDatePartition, Bool.and_eq_true, decide_eq_true_eq, and_assoc]

/-- Days after the first hundred years are accepted. -/
theorem isDatePartition_of_fields {t : Date} {year month day : Nat} (h : 100 ≤ (fields t).year)
    (hyear : (fields t).year = year) (hmonth : (fields t).month = month)
    (hday : (fields t).day = day) : isDatePartition year month day = true := by
  rw [isDatePartition_iff]
  subst hmonth hday
  rw [← hyear, dateUTC_fields h]
  exact fields_midnight t

/-! ## Segments -/

theorem assertOpaqueSegment_eq_ok {name value : String} :
    assertOpaqueSegment name value = .ok () ↔ isOpaqueSegment value = true := by
  rw [assertOpaqueSegment]
  split
  · next h => exact ⟨fun _ => h, fun _ => rfl⟩
  · next h =>
      constructor
      · intro heq
        cases heq
      · intro heq
        exact absurd heq h

theorem slash_not_mem_of_isOpaqueSegment {value : String} (h : isOpaqueSegment value = true) :
    '/' ∉ value.toList := by
  intro hmem
  have hall := (Bool.and_eq_true_iff.mp h).2
  exact absurd (List.all_eq_true.mp hall '/' hmem) (by decide)

theorem slash_not_mem_pad (width n : Nat) : '/' ∉ pad width n := by
  intro hmem
  have hdigit := List.all_eq_true.mp (Lib.IsoDate.all_pad width n) '/' hmem
  exact absurd hdigit (by decide)

/-- The segments of a key that is parsed to the given fields. -/
def ParsedObjectKey.segments (parsed : ParsedObjectKey) : List (List Char) :=
  ["workspaces".toList, parsed.workspaceId.toList, parsed.purpose.segment.toList,
    pad 4 parsed.year, pad 2 parsed.month, pad 2 parsed.day, parsed.opaqueObjectId.toList]

/-- The fields that a key can have. -/
structure ParsedObjectKey.Valid (parsed : ParsedObjectKey) : Prop where
  workspaceId : isOpaqueSegment parsed.workspaceId = true
  opaqueObjectId : isOpaqueSegment parsed.opaqueObjectId = true
  year : parsed.year < 10 ^ 4
  month : parsed.month < 10 ^ 2
  day : parsed.day < 10 ^ 2
  partition : isDatePartition parsed.year parsed.month parsed.day = true

theorem slash_not_mem_segments {parsed : ParsedObjectKey} (h : parsed.Valid) :
    ∀ segment ∈ parsed.segments, '/' ∉ segment := by
  simp only [ParsedObjectKey.segments, List.forall_mem_cons, List.not_mem_nil, false_implies,
    implies_true, and_true]
  exact ⟨by decide, slash_not_mem_of_isOpaqueSegment h.workspaceId,
    slash_not_mem_segment parsed.purpose, slash_not_mem_pad 4 parsed.year,
    slash_not_mem_pad 2 parsed.month, slash_not_mem_pad 2 parsed.day,
    slash_not_mem_of_isOpaqueSegment h.opaqueObjectId⟩

/-! ## Keys -/

/-- The keys that are built. -/
theorem buildObjectKey_eq_ok {input : BuildObjectKeyInput} {key : String} :
    buildObjectKey input = .ok key ↔
      isOpaqueSegment input.workspaceId = true ∧ isOpaqueSegment input.opaqueObjectId = true ∧
        ∃ createdAt, input.createdAt = some createdAt ∧
          key = String.ofList (['/'].intercalate
            (keySegments input.workspaceId input.purpose (fields createdAt)
              input.opaqueObjectId)) := by
  rw [buildObjectKey]
  by_cases hworkspace : isOpaqueSegment input.workspaceId = true
  · rw [assertOpaqueSegment_eq_ok.mpr hworkspace]
    by_cases hobject : isOpaqueSegment input.opaqueObjectId = true
    · rw [assertOpaqueSegment_eq_ok.mpr hobject]
      cases hcreated : input.createdAt with
      | none => simp [bind, Except.bind]
      | some createdAt => simp [bind, Except.bind, hworkspace, hobject, eq_comm]
    · simp [assertOpaqueSegment, hobject, bind, Except.bind]
  · simp [assertOpaqueSegment, hworkspace, bind, Except.bind]

/-- The keys that are parsed are those with valid fields, written out. -/
theorem parseObjectKey_eq_ok {key : String} {parsed : ParsedObjectKey} :
    parseObjectKey key = .ok parsed ↔
      parsed.Valid ∧ key = String.ofList (['/'].intercalate parsed.segments) := by
  constructor
  · intro h
    have hkey : ['/'].intercalate (key.toList.splitOn '/') = key.toList :=
      List.intercalate_splitOn '/'
    rw [parseObjectKey] at h
    split at h
    · next workspaces workspaceId purposeSegment yearSegment monthSegment daySegment opaqueObjectId
          hsplit =>
        rw [hsplit] at hkey
        split at h
        · cases h
        · next hworkspaces =>
            obtain ⟨_, hworkspace, h⟩ := exists_of_bind_ok h
            obtain ⟨_, hobject, h⟩ := exists_of_bind_ok h
            split at h
            · cases h
            · next purpose hpurpose =>
                split at h
                · next year month day hyear hmonth hday =>
                    split at h
                    · next hpartition =>
                        cases h
                        obtain ⟨hyear, hyear'⟩ := pad_of_digits? hyear
                        obtain ⟨hmonth, hmonth'⟩ := pad_of_digits? hmonth
                        obtain ⟨hday, hday'⟩ := pad_of_digits? hday
                        refine ⟨⟨assertOpaqueSegment_eq_ok.mp hworkspace,
                          assertOpaqueSegment_eq_ok.mp hobject, hyear', hmonth', hday',
                          hpartition⟩, ?_⟩
                        simp only [ParsedObjectKey.segments, hyear, hmonth, hday,
                          segment_of_get? hpurpose, String.toList_ofList,
                          ← Decidable.not_not.mp hworkspaces, hkey, String.ofList_toList]
                    · cases h
                · cases h
    · cases h
  · rintro ⟨hvalid, rfl⟩
    have hsplit := List.splitOn_intercalate '/' (slash_not_mem_segments hvalid)
      (List.cons_ne_nil _ _)
    rw [parseObjectKey, String.toList_ofList, hsplit]
    simp only [ParsedObjectKey.segments, ne_eq, not_true, if_false, String.ofList_toList,
      assertOpaqueSegment_eq_ok.mpr hvalid.workspaceId,
      assertOpaqueSegment_eq_ok.mpr hvalid.opaqueObjectId, get?_segment, digits?_pad hvalid.year,
      digits?_pad hvalid.month, digits?_pad hvalid.day, hvalid.partition, if_true]
    rfl

/-- The segments that are built on a day are those that are parsed to it. -/
theorem keySegments_eq {parsed : ParsedObjectKey} {createdAt : Date} (hyear : parsed.year < 10 ^ 4)
    (hmonth : parsed.month < 10 ^ 2) (hday : parsed.day < 10 ^ 2) (h : parsed.OnDay createdAt) :
    keySegments parsed.workspaceId parsed.purpose (fields createdAt) parsed.opaqueObjectId =
      parsed.segments := by
  obtain ⟨hyear', hmonth', hday'⟩ := h
  rw [keySegments, ParsedObjectKey.segments, hyear', hmonth', hday',
    padStart_numeral (by decide) hyear, padStart_numeral (by decide) hmonth,
    padStart_numeral (by decide) hday]

/-- The day of a key that is parsed is one that a `Date` can hold. -/
theorem exists_onDay {parsed : ParsedObjectKey} (h : parsed.Valid) :
    ∃ createdAt, Lib.IsoDate.isTimeValue createdAt = true ∧ parsed.OnDay createdAt := by
  have honDay := isDatePartition_iff.mp h.partition
  refine ⟨dateUTC parsed.year (parsed.month - 1) parsed.day, ?_, honDay⟩
  have hyear := h.year
  generalize dateUTC parsed.year (parsed.month - 1) parsed.day = t at honDay
  have hlength := Lib.IsoDate.yearFromDay_spec (t / msPerDay)
  have hlow := Lib.IsoDate.dayFromYear_bounds (fields t).year
  have hhigh := Lib.IsoDate.dayFromYear_bounds ((fields t).year + 1)
  rw [Lib.IsoDate.isTimeValue, Bool.and_eq_true, decide_eq_true_eq, decide_eq_true_eq]
  simp only [fields, msPerDay] at *
  omega

/-- A key that is built in a year of three or four digits is parsed to the day on
which it was built, and a key that is parsed is built on the day it is parsed to.
No two keys are parsed to the same. -/
theorem objectKeys_roundTrip :
    (∀ (input : BuildObjectKeyInput) (createdAt : Date) (key : String),
      input.createdAt = some createdAt → 100 ≤ (fields createdAt).year →
      (fields createdAt).year ≤ 9999 → buildObjectKey input = .ok key →
      ∃ parsed, parseObjectKey key = .ok parsed ∧ parsed.workspaceId = input.workspaceId ∧
        parsed.purpose = input.purpose ∧ parsed.opaqueObjectId = input.opaqueObjectId ∧
        parsed.OnDay createdAt) ∧
    (∀ (key : String) (parsed : ParsedObjectKey), parseObjectKey key = .ok parsed →
      (∃ createdAt, Lib.IsoDate.isTimeValue createdAt = true ∧ parsed.OnDay createdAt) ∧
      ∀ createdAt, parsed.OnDay createdAt →
        buildObjectKey
          { workspaceId := parsed.workspaceId
            purpose := parsed.purpose
            createdAt := some createdAt
            opaqueObjectId := parsed.opaqueObjectId } = .ok key) ∧
    ∀ (key key' : String) (parsed : ParsedObjectKey), parseObjectKey key = .ok parsed →
      parseObjectKey key' = .ok parsed → key = key' := by
  refine ⟨?_, ?_, ?_⟩
  · intro input createdAt key hcreated hlow hhigh hbuild
    obtain ⟨hworkspace, hobject, created, hsome, rfl⟩ := buildObjectKey_eq_ok.mp hbuild
    cases hcreated.symm.trans hsome
    obtain ⟨-, -, -, hmonth, -, hday, -⟩ := Lib.IsoDate.fields_spec createdAt
    have hyear : (fields createdAt).year = ((fields createdAt).year.toNat : Int) := by omega
    let parsed : ParsedObjectKey :=
      { workspaceId := input.workspaceId
        purpose := input.purpose
        year := (fields createdAt).year.toNat
        month := (fields createdAt).month
        day := (fields createdAt).day
        opaqueObjectId := input.opaqueObjectId }
    have honDay : parsed.OnDay createdAt := ⟨hyear, rfl, rfl⟩
    have hvalid : parsed.Valid :=
      { workspaceId := hworkspace
        opaqueObjectId := hobject
        year := show (fields createdAt).year.toNat < 10 ^ 4 by omega
        month := show (fields createdAt).month < 10 ^ 2 by omega
        day := show (fields createdAt).day < 10 ^ 2 by omega
        partition := isDatePartition_of_fields hlow hyear rfl rfl }
    refine ⟨parsed, parseObjectKey_eq_ok.mpr ⟨hvalid, ?_⟩, rfl, rfl, rfl, honDay⟩
    exact congrArg (fun segments => String.ofList (['/'].intercalate segments))
      (keySegments_eq hvalid.year hvalid.month hvalid.day honDay)
  · intro key parsed hparse
    obtain ⟨hvalid, rfl⟩ := parseObjectKey_eq_ok.mp hparse
    refine ⟨exists_onDay hvalid, ?_⟩
    intro createdAt honDay
    refine buildObjectKey_eq_ok.mpr
      ⟨hvalid.workspaceId, hvalid.opaqueObjectId, createdAt, rfl, ?_⟩
    rw [keySegments_eq hvalid.year hvalid.month hvalid.day honDay]
  · intro key key' parsed hparse hparse'
    rw [(parseObjectKey_eq_ok.mp hparse).2, (parseObjectKey_eq_ok.mp hparse').2]

theorem objectKeys_roundTrip_leapDay :
    (∃ parsed, parseObjectKey "workspaces/ws_1/avatar/2024/02/29/obj-1" = .ok parsed ∧
      parsed.workspaceId = "ws_1" ∧ parsed.purpose = .avatar ∧ parsed.opaqueObjectId = "obj-1" ∧
      parsed.OnDay 1709209845006) ∧
    buildObjectKey
      { workspaceId := "ws_1"
        purpose := .avatar
        createdAt := some 1709209845006
        opaqueObjectId := "obj-1" } = .ok "workspaces/ws_1/avatar/2024/02/29/obj-1" := by
  have hbuild : buildObjectKey ⟨"ws_1", .avatar, some 1709209845006, "obj-1"⟩ =
      .ok "workspaces/ws_1/avatar/2024/02/29/obj-1" := by decide
  have hparse : parseObjectKey "workspaces/ws_1/avatar/2024/02/29/obj-1" =
      .ok ⟨"ws_1", .avatar, 2024, 2, 29, "obj-1"⟩ := by decide
  exact ⟨objectKeys_roundTrip.1 _ 1709209845006 _ rfl (by decide) (by decide) hbuild,
    (objectKeys_roundTrip.2.1 _ _ hparse).2 1709209845006 (by decide)⟩

end Vynor.Storage
