import Vynor.Storage.S3Adapter

/-!
# The canonical form of requests

SigV4 has names and values percent-encoded except for letters, digits and
`-._~`, and the encoded names in ascending order.  `encodeURIComponent` also
keeps `!'()*`, and the adapter sorts the names of headers before it makes them
lower-case.  So a request has the canonical form unless one of these marks is in
what the adapter encodes, or the names of the metadata change their order when
they become lower-case (`canonicalForm_iff`).
-/

namespace Vynor.Storage

/-! ## The form that the server computes -/

namespace SigV4

/-- The characters that are not encoded. -/
def isUnreserved (c : Char) : Bool := c.isAlphanum || c ∈ "-._~".toList

def uriEncode (text : String) : String := Lib.Percent.encode isUnreserved text

/-- The path of an object, with every segment encoded. -/
def canonicalUri (bucket key : String) : String :=
  "/" ++ uriEncode bucket ++ "/" ++
    "/".intercalate (((key.toList.splitOn '/').map String.ofList).map uriEncode)

/-- The query, with names and values encoded and sorted by encoded name. -/
def canonicalQueryString (params : List (String × String)) : String :=
  "&".intercalate (((params.map fun p => (uriEncode p.1, uriEncode p.2)).mergeSort
    fun p q => decide (p.1 ≤ q.1)).map fun p => p.1 ++ "=" ++ p.2)

/-- Names in ascending order, as the runtime compares texts. -/
def Ascending (names : List String) : Prop :=
  names.Pairwise fun a b => codeUnits a ≤ codeUnits b

end SigV4

section Form

variable (rt : Runtime) (adapter : RustFsStorageAdapter) (now : Date)
  (download : SignedDownloadInput) (upload : PutObjectInput)

/-- The requests are signed over their canonical form. -/
structure CanonicalForm : Prop where
  query : ∀ r, downloadRequest rt adapter now download = .ok r →
    r.canonicalQueryString = SigV4.canonicalQueryString (queryParams adapter r.isoDate download)
  uri : ∀ r, downloadRequest rt adapter now download = .ok r →
    r.canonicalUri = SigV4.canonicalUri r.bucket r.key
  headers : ∀ url, rt.parseUrl (putUrl adapter upload.location) = some url →
    SigV4.Ascending (signedHeaderNames rt
      (requestHeaders (putHeaders upload) url.host (isoDateOf now)))

/-- The marks that `encodeURIComponent` keeps and SigV4 encodes. -/
def isMark (c : Char) : Bool := c ∈ "!'()*".toList

/-- A text without these marks. -/
def Unmarked (text : String) : Prop := ∀ c ∈ text.toList, isMark c = false

/-- Nothing that is encoded has a mark, and the names of the metadata are in one
order with their own letters and in lower case. -/
structure FormCondition (bucket : String) : Prop where
  accessKeyId : Unmarked adapter.accessKeyId
  region : Unmarked adapter.region
  bucket : Unmarked bucket
  key : Unmarked download.location.key
  filename : ∀ filename ∈ download.downloadFilename, Unmarked filename
  metadata : ∀ p ∈ upload.metadata.getD [], ∀ q ∈ upload.metadata.getD [],
    codeUnits p.1 < codeUnits q.1 →
      codeUnits (rt.toLowerCase p.1) ≤ codeUnits (rt.toLowerCase q.1)

end Form

/-! ## Marks -/

theorem isComponentChar_eq (c : Char) :
    isComponentChar c = (SigV4.isUnreserved c || isMark c) := by
  have hperm : componentMarks.Perm ("-._~".toList ++ "!'()*".toList) := by decide
  have hmarks : c ∈ componentMarks ↔ c ∈ "-._~".toList ∨ c ∈ "!'()*".toList :=
    hperm.mem_iff.trans List.mem_append
  rw [isComponentChar, SigV4.isUnreserved, isMark, Bool.or_assoc, ← Bool.decide_or,
    decide_eq_decide.mpr hmarks]

theorem isUnreserved_of_isMark {c : Char} (h : isMark c = true) :
    SigV4.isUnreserved c = false := by
  have hall : "!'()*".toList.all (fun c => !SigV4.isUnreserved c) = true := by decide
  exact Bool.not_eq_true' _ ▸ List.all_eq_true.mp hall c (of_decide_eq_true h)

theorem isComponentChar_of_isUnreserved (c : Char) (h : SigV4.isUnreserved c = true) :
    isComponentChar c = true := by
  rw [isComponentChar_eq, h, Bool.true_or]

/-- Both encoders treat a character alike unless it is a mark. -/
theorem isUnreserved_eq_iff (c : Char) :
    SigV4.isUnreserved c = isComponentChar c ↔ isMark c = false := by
  rw [isComponentChar_eq]
  cases hmark : isMark c with
  | true => simp [isUnreserved_of_isMark hmark]
  | false => simp

/-- A text is encoded alike unless it has a mark. -/
theorem encodeURIComponent_eq_iff (text : String) :
    encodeURIComponent text = SigV4.uriEncode text ↔ Unmarked text := by
  rw [encodeURIComponent, SigV4.uriEncode, Lib.Percent.encode, Lib.Percent.encode,
    String.ofList_inj, Lib.Percent.encodeChars_eq_iff isComponentChar_of_isUnreserved]
  exact forall₂_congr fun c _ => isUnreserved_eq_iff c

/-- A text with a mark is encoded longer by SigV4. -/
theorem length_encodeURIComponent (text : String) :
    (encodeURIComponent text).toList.length ≤ (SigV4.uriEncode text).toList.length ∧
      ((encodeURIComponent text).toList.length = (SigV4.uriEncode text).toList.length →
        Unmarked text) := by
  have hlength := Lib.Percent.length_encodeChars_le isComponentChar_of_isUnreserved text.toList
  rw [encodeURIComponent, SigV4.uriEncode, Lib.Percent.encode, Lib.Percent.encode,
    String.toList_ofList, String.toList_ofList]
  exact ⟨hlength.1, fun heq c hc => (isUnreserved_eq_iff c).mp (hlength.2 heq c hc)⟩

theorem unmarked_append {s t : String} : Unmarked (s ++ t) ↔ Unmarked s ∧ Unmarked t := by
  simp only [Unmarked, String.toList_append, List.mem_append, or_imp, forall_and]

theorem unmarked_of_all {text : String} (h : text.toList.all (fun c => !isMark c) = true) :
    Unmarked text := fun c hc => Bool.not_eq_true' _ ▸ List.all_eq_true.mp h c hc

/-! ## Texts without marks -/

/-- A digit is no mark. -/
theorem isMark_digitChar {n : Nat} (h : n < 10) : isMark (Nat.digitChar n) = false := by
  have hall : ∀ n < 10, isMark (Nat.digitChar n) = false := by decide
  exact hall n h

theorem isMark_of_mem_pad {width n : Nat} {c : Char} (hc : c ∈ Lib.IsoDate.pad width n) :
    isMark c = false := by
  induction width generalizing n with
  | zero => cases hc
  | succ width ih =>
      rcases List.mem_append.mp hc with hfirst | hlast
      · exact ih hfirst
      · rw [List.mem_singleton.mp hlast]
        exact isMark_digitChar (Nat.mod_lt n (by decide))

theorem isMark_of_mem_yearChars {y : Int} {c : Char} (hc : c ∈ Lib.IsoDate.yearChars y) :
    isMark c = false := by
  unfold Lib.IsoDate.yearChars at hc
  split at hc
  · exact isMark_of_mem_pad hc
  · rcases List.mem_cons.mp hc with rfl | hc
    · split <;> decide
    · exact isMark_of_mem_pad hc

theorem unmarked_toISOString (now : Date) : Unmarked (Lib.IsoDate.toISOString now) := by
  have hdash : isMark '-' = false ∧ isMark 'T' = false ∧ isMark ':' = false ∧ isMark '.' = false ∧
      isMark 'Z' = false := by decide
  intro c hc
  rw [Lib.IsoDate.toISOString, String.toList_ofList, Lib.IsoDate.isoChars] at hc
  simp only [List.mem_append, List.mem_cons, List.not_mem_nil, or_false] at hc
  rcases hc with hc | rfl | hc | rfl | hc | rfl | hc | rfl | hc | rfl | hc | rfl | hc | rfl
  · exact isMark_of_mem_yearChars hc
  · exact hdash.1
  · exact isMark_of_mem_pad hc
  · exact hdash.1
  · exact isMark_of_mem_pad hc
  · exact hdash.2.1
  · exact isMark_of_mem_pad hc
  · exact hdash.2.2.1
  · exact isMark_of_mem_pad hc
  · exact hdash.2.2.1
  · exact isMark_of_mem_pad hc
  · exact hdash.2.2.2.1
  · exact isMark_of_mem_pad hc
  · exact hdash.2.2.2.2

theorem mem_of_mem_compact {cs : List Char} {c : Char} (h : c ∈ compact cs) : c ∈ cs := by
  induction cs using compact.induct with
  | case1 a b d cs hdigits ih =>
      rw [compact, if_pos hdigits] at h
      simp only [List.mem_cons]
      exact Or.inr (Or.inr (Or.inr (Or.inr (ih h))))
  | case2 a b d cs hdigits ih =>
      rw [compact, if_neg hdigits] at h
      rcases List.mem_cons.mp h with rfl | h
      · exact List.mem_cons_self
      · exact List.mem_cons_of_mem _ (ih h)
  | case3 d cs hdot hseparator ih =>
      rw [compact, if_pos hseparator] at h
      · exact List.mem_cons_of_mem _ (ih h)
      · exact hdot
  | case4 d cs hdot hseparator ih =>
      rw [compact, if_neg hseparator] at h
      · rcases List.mem_cons.mp h with rfl | h
        · exact List.mem_cons_self
        · exact List.mem_cons_of_mem _ (ih h)
      · exact hdot
  | case5 => cases h

theorem unmarked_isoDateOf (now : Date) : Unmarked (isoDateOf now) := by
  intro c hc
  rw [isoDateOf, String.toList_ofList] at hc
  exact unmarked_toISOString now c (mem_of_mem_compact hc)

theorem unmarked_dateStampOf {isoDate : String} (h : Unmarked isoDate) :
    Unmarked (dateStampOf isoDate) := by
  intro c hc
  rw [dateStampOf, String.toList_ofList] at hc
  exact h c (List.mem_of_mem_take hc)

theorem unmarked_numberText (d : Lib.Double) : Unmarked (Lib.numberText d.value) := by
  intro c hc
  have hnumber := Lib.isNumberChar_numberText d c hc
  rw [Bool.eq_false_iff]
  intro hmark
  have hall : "!'()*".toList.all (fun c => !Lib.Json.isNumberChar c) = true := by decide
  have hnot := List.all_eq_true.mp hall c (of_decide_eq_true hmark)
  rw [hnumber] at hnot
  cases hnot

theorem unmarked_sanitizeFilename {filename : String} :
    Unmarked (sanitizeFilename filename) ↔ Unmarked filename := by
  have hreplaced : "\"\r\n\\".toList.all (fun c => !isMark c) = true := by decide
  have hmark : ∀ c, isMark (if c ∈ "\"\r\n\\".toList then '_' else c) = isMark c := by
    intro c
    split
    next hc =>
      have hc' := List.all_eq_true.mp hreplaced c hc
      rw [Bool.not_eq_true'] at hc'
      rw [hc']
      decide
    · rfl
  rw [Unmarked, sanitizeFilename, String.toList_ofList, List.forall_mem_map]
  simp only [hmark]
  rfl

/-- Leading slashes are no marks. -/
theorem unmarked_objectKey {location : StorageObjectLocation} :
    Unmarked (objectKey location) ↔ Unmarked location.key := by
  have hslash : ∀ cs : List Char, (∀ c ∈ cs.dropWhile (· = '/'), isMark c = false) ↔
      ∀ c ∈ cs, isMark c = false := by
    intro cs
    induction cs with
    | nil => rfl
    | cons d cs ih =>
        rw [List.dropWhile_cons]
        split
        next hd =>
          have hmark : isMark d = false := by
            rw [of_decide_eq_true hd]
            decide
          rw [ih, List.forall_mem_cons]
          exact (and_iff_right hmark).symm
        · rfl
  rw [Unmarked, objectKey, String.toList_ofList]
  exact hslash _

/-! ## The query -/

/-- The names that a query may have, in their order. -/
def queryNames : List String :=
  ["X-Amz-Algorithm", "X-Amz-Credential", "X-Amz-Date", "X-Amz-Expires", "X-Amz-SignedHeaders",
    "response-content-disposition"]

/-- Names and values, encoded one by one. -/
def queryText (encode : String → String) (params : List (String × String)) : String :=
  "&".intercalate (params.map fun p => encode p.1 ++ "=" ++ encode p.2)

section Query

variable {adapter : RustFsStorageAdapter} {isoDate : String} {download : SignedDownloadInput}

theorem names_queryParams :
    ((queryParams adapter isoDate download).map Prod.fst).Sublist queryNames := by
  rw [queryParams, List.map_append]
  cases truthy download.downloadFilename with
  | none => exact List.sublist_append_left _ ["response-content-disposition"]
  | some filename => exact List.Sublist.refl _

/-- The parameters are listed in the order of their names. -/
theorem pairwise_queryParams {le : String → String → Prop} (h : queryNames.Pairwise le) :
    (queryParams adapter isoDate download).Pairwise fun p q => le p.1 q.1 :=
  List.pairwise_map.mp (h.sublist names_queryParams)

theorem unmarked_of_mem_queryNames {name : String} (h : name ∈ queryNames) : Unmarked name := by
  have hall : queryNames.all (fun name => name.toList.all fun c => !isMark c) = true := by decide
  exact unmarked_of_all (List.all_eq_true.mp hall name h)

theorem uriEncode_of_mem_queryNames {name : String} (h : name ∈ queryNames) :
    SigV4.uriEncode name = name := by
  have hall : queryNames.all (fun name => name.toList.all SigV4.isUnreserved) = true := by decide
  exact Lib.Percent.encode_eq_self (List.all_eq_true.mp hall name h)

theorem sortedEntries_queryParams :
    sortedEntries (queryParams adapter isoDate download) =
      queryParams adapter isoDate download := by
  have hnames : queryNames.Pairwise fun a b => decide (codeUnits a ≤ codeUnits b) = true := by
    decide
  exact List.mergeSort_of_pairwise (pairwise_queryParams hnames)

theorem canonicalQueryString_queryParams :
    canonicalQueryString (queryParams adapter isoDate download) =
      queryText encodeURIComponent (queryParams adapter isoDate download) := by
  rw [canonicalQueryString, sortedEntries_queryParams, queryText]

/-- The encoded names are in the order of the names. -/
theorem sigV4_canonicalQueryString_queryParams :
    SigV4.canonicalQueryString (queryParams adapter isoDate download) =
      queryText SigV4.uriEncode (queryParams adapter isoDate download) := by
  have hnames : queryNames.Pairwise fun a b => a ≤ b := by decide
  have hencoded : queryNames.Pairwise fun a b =>
      decide (SigV4.uriEncode a ≤ SigV4.uriEncode b) = true := by
    refine hnames.imp_of_mem fun {a b} ha hb hle => ?_
    rw [uriEncode_of_mem_queryNames ha, uriEncode_of_mem_queryNames hb]
    exact decide_eq_true hle
  rw [SigV4.canonicalQueryString, List.mergeSort_of_pairwise, List.map_map]
  · rfl
  · rw [List.pairwise_map]
    exact pairwise_queryParams hencoded

/-- Two texts of parameters are the same where no name and no value has a mark. -/
theorem queryText_eq_iff (params : List (String × String)) :
    queryText encodeURIComponent params = queryText SigV4.uriEncode params ↔
      ∀ p ∈ params, Unmarked p.1 ∧ Unmarked p.2 := by
  constructor
  · intro heq p hp
    have hlist : ∀ encode : String → String, (queryText encode params).toList =
        "&".toList.intercalate
          (params.map fun p => (encode p.1).toList ++ '=' :: (encode p.2).toList) := by
      intro encode
      rw [queryText, String.toList_intercalate, List.map_map]
      refine congrArg _ (List.map_congr_left fun p _ => ?_)
      rw [Function.comp_apply, String.toList_append, String.toList_append, List.append_assoc]
      rfl
    have hle : ∀ p ∈ params,
        ((encodeURIComponent p.1).toList ++ '=' :: (encodeURIComponent p.2).toList).length ≤
          ((SigV4.uriEncode p.1).toList ++ '=' :: (SigV4.uriEncode p.2).toList).length := by
      intro p _
      have hname := (length_encodeURIComponent p.1).1
      have hvalue := (length_encodeURIComponent p.2).1
      simp only [List.length_append, List.length_cons]
      omega
    have hlength := congrArg (fun s => s.toList.length) heq
    simp only [hlist] at hlength
    have hparts := (Lib.Percent.length_intercalate_le _ hle).2 hlength p hp
    have hname := length_encodeURIComponent p.1
    have hvalue := length_encodeURIComponent p.2
    simp only [List.length_append, List.length_cons] at hparts
    exact ⟨hname.2 (by omega), hvalue.2 (by omega)⟩
  · intro hunmarked
    rw [queryText, queryText]
    refine congrArg "&".intercalate (List.map_congr_left fun p hp => ?_)
    rw [(encodeURIComponent_eq_iff p.1).mpr (hunmarked p hp).1,
      (encodeURIComponent_eq_iff p.2).mpr (hunmarked p hp).2]

/-- What of a query may have marks. -/
theorem unmarked_queryParams_iff (hdate : Unmarked isoDate) :
    (∀ p ∈ queryParams adapter isoDate download, Unmarked p.1 ∧ Unmarked p.2) ↔
      Unmarked adapter.accessKeyId ∧ Unmarked adapter.region ∧
        ∀ filename ∈ download.downloadFilename, Unmarked filename := by
  have hnames : ∀ p ∈ queryParams adapter isoDate download, Unmarked p.1 := fun p hp =>
    unmarked_of_mem_queryNames (names_queryParams.subset (List.mem_map_of_mem hp))
  have hliteral : ∀ text ∈ ["AWS4-HMAC-SHA256", "/", "/s3/aws4_request", "host",
      "attachment; filename=\"", "\""], Unmarked text := by
    intro text htext
    have hall : ["AWS4-HMAC-SHA256", "/", "/s3/aws4_request", "host", "attachment; filename=\"",
        "\""].all (fun text => text.toList.all fun c => !isMark c) = true := by decide
    exact unmarked_of_all (List.all_eq_true.mp hall text htext)
  simp only [List.forall_mem_cons, List.not_mem_nil, false_imp_iff, implies_true, and_true]
    at hliteral
  obtain ⟨halgorithm, hslash, hscope, hhost, hopen, hclose⟩ := hliteral
  have hvalues : (∀ p ∈ queryParams adapter isoDate download, Unmarked p.1 ∧ Unmarked p.2) ↔
      ∀ p ∈ queryParams adapter isoDate download, Unmarked p.2 :=
    ⟨fun h p hp => (h p hp).2, fun h p hp => ⟨hnames p hp, h p hp⟩⟩
  have hfile : (∀ p ∈ ((truthy download.downloadFilename).map fun filename =>
      ("response-content-disposition",
        "attachment; filename=\"" ++ sanitizeFilename filename ++ "\"")).toList, Unmarked p.2) ↔
      ∀ filename ∈ download.downloadFilename, Unmarked filename := by
    cases hname : download.downloadFilename with
    | none => simp [truthy]
    | some filename =>
        by_cases hempty : filename = ""
        · subst hempty
          have hnone : Unmarked "" := unmarked_of_all rfl
          simp [truthy, hnone]
        · have hpresent : truthy (some filename) = some filename :=
            truthy_eq_some.mpr ⟨rfl, hempty⟩
          rw [hpresent]
          simp [unmarked_append, unmarked_sanitizeFilename, hopen, hclose]
  rw [hvalues, queryParams, List.forall_mem_append, hfile]
  simp [unmarked_append, credentialScope, halgorithm, hslash, hscope, hhost, hdate,
    unmarked_dateStampOf hdate, unmarked_numberText, and_assoc]

end Query

/-! ## The path -/

/-- The segments of a key, encoded one by one. -/
theorem join_segments (keep : Char → Bool) (key : String) :
    "/".intercalate (((key.toList.splitOn '/').map String.ofList).map (Lib.Percent.encode keep)) =
      String.ofList (Lib.Percent.encodeChars (fun c => c == '/' || keep c) key.toList) := by
  have hsegments : (((key.toList.splitOn '/').map String.ofList).map
      (Lib.Percent.encode keep)).map String.toList =
      (key.toList.splitOn '/').map (Lib.Percent.encodeChars keep) := by
    rw [List.map_map, List.map_map]
    refine List.map_congr_left fun segment _ => ?_
    simp only [Function.comp_apply, Lib.Percent.encode, String.toList_ofList]
  rw [← String.toList_inj, String.toList_intercalate, hsegments]
  exact (Lib.Percent.join_encodeChars_splitOn keep '/' key.toList).trans
    String.toList_ofList.symm

theorem slash_or_isUnreserved_eq_iff (c : Char) :
    (c == '/' || SigV4.isUnreserved c) = (c == '/' || isComponentChar c) ↔ isMark c = false := by
  cases hslash : c == '/' with
  | true =>
      rw [beq_iff_eq.mp hslash]
      decide
  | false =>
      rw [Bool.false_or, Bool.false_or]
      exact isUnreserved_eq_iff c

/-- A path is canonical where the bucket and the key have no marks. -/
theorem canonicalUri_eq_iff (bucket key : String) :
    canonicalUri bucket key = SigV4.canonicalUri bucket key ↔ Unmarked bucket ∧ Unmarked key := by
  have hcode : encodedKey key =
      String.ofList (Lib.Percent.encodeChars (fun c => c == '/' || isComponentChar c) key.toList) :=
    join_segments isComponentChar key
  have hform : "/".intercalate (((key.toList.splitOn '/').map String.ofList).map SigV4.uriEncode) =
      String.ofList
        (Lib.Percent.encodeChars (fun c => c == '/' || SigV4.isUnreserved c) key.toList) :=
    join_segments SigV4.isUnreserved key
  have hwider : ∀ c, (c == '/' || SigV4.isUnreserved c) = true →
      (c == '/' || isComponentChar c) = true := by
    intro c hc
    rw [Bool.or_eq_true] at hc ⊢
    exact hc.imp_right (isComponentChar_of_isUnreserved c)
  rw [canonicalUri, SigV4.canonicalUri, hcode, hform]
  constructor
  · intro heq
    have hboth := congrArg (fun s => s.toList.length) heq
    simp only [String.toList_append, List.length_append, String.toList_ofList] at hboth
    have hbucket := length_encodeURIComponent bucket
    have hlength := Lib.Percent.length_encodeChars_le hwider key.toList
    refine ⟨hbucket.2 (by omega), fun c hc => ?_⟩
    exact (slash_or_isUnreserved_eq_iff c).mp (hlength.2 (by omega) c hc)
  · rintro ⟨hbucket, hunmarked⟩
    have hkeys := (Lib.Percent.encodeChars_eq_iff hwider key.toList).mpr fun c hc =>
      (slash_or_isUnreserved_eq_iff c).mpr (hunmarked c hc)
    rw [(encodeURIComponent_eq_iff bucket).mpr hbucket, hkeys]

/-! ## The headers -/

/-- What the lower-case form of a text is, as far as names of headers need it:
that of a text in ASCII, and that a dash parts a text. -/
structure LowersCase (toLowerCase : String → String) : Prop where
  ascii : ∀ text, text.toList.all (fun c => c.toNat < 128) = true →
    toLowerCase text = String.ofList (text.toList.map Char.toLower)
  dash : ∀ s t, toLowerCase (s ++ "-" ++ t) = toLowerCase s ++ "-" ++ toLowerCase t

/-- The names of headers that carry no metadata. -/
def fixedNames : List String :=
  ["content-type", "content-length", "x-amz-content-sha256", "host", "x-amz-date"]

section Headers

variable {rt : Runtime} {upload : PutObjectInput} {host isoDate : String}

/-- The names of the headers of an upload. -/
theorem mem_names_requestHeaders {name : String} :
    name ∈ (requestHeaders (putHeaders upload) host isoDate).map Prod.fst ↔
      name ∈ fixedNames ∨ ∃ p ∈ upload.metadata.getD [], name = metadataPrefix ++ p.1 := by
  have hfold : ∀ (entries headers : List (String × String)),
      name ∈ (entries.foldl (fun headers p =>
          Lib.OrderedMap.set headers (metadataPrefix ++ p.1) p.2) headers).map Prod.fst ↔
        name ∈ headers.map Prod.fst ∨ ∃ p ∈ entries, name = metadataPrefix ++ p.1 := by
    intro entries
    induction entries with
    | nil => simp
    | cons p entries ih =>
        intro headers
        rw [List.foldl_cons, ih, Lib.OrderedMap.mem_keys_set, List.exists_mem_cons_iff]
        tauto
  rw [requestHeaders, Lib.OrderedMap.mem_keys_set, Lib.OrderedMap.mem_keys_set, putHeaders, hfold]
  simp only [List.map_cons, List.map_nil, List.mem_cons, List.not_mem_nil, or_false, fixedNames]
  tauto

/-- Sorted names are in order after they are changed where every pair of them
is. -/
theorem ascending_signedHeaderNames_iff (headers : List (String × String)) :
    SigV4.Ascending (signedHeaderNames rt headers) ↔
      ∀ a ∈ headers.map Prod.fst, ∀ b ∈ headers.map Prod.fst, codeUnits a < codeUnits b →
        codeUnits (rt.toLowerCase a) ≤ codeUnits (rt.toLowerCase b) := by
  have hsorted : (sortedHeaderKeys headers).Pairwise fun a b => codeUnits a ≤ codeUnits b := by
    refine (List.pairwise_mergeSort (fun a b c hab hbc => ?_) (fun a b => ?_) _).imp
      of_decide_eq_true
    · exact decide_eq_true (List.le_trans (of_decide_eq_true hab) (of_decide_eq_true hbc))
    · rw [Bool.or_eq_true, decide_eq_true_eq, decide_eq_true_eq]
      exact List.le_total _ _
  have hmem : ∀ name, name ∈ sortedHeaderKeys headers ↔ name ∈ headers.map Prod.fst := fun name =>
    (List.mergeSort_perm _ _).mem_iff
  rw [SigV4.Ascending, signedHeaderNames, List.pairwise_map]
  constructor
  · intro hlower a ha b hb hlt
    have hboth := (hsorted.and hlower).imp (S := fun x y =>
      (codeUnits x ≤ codeUnits y ∧
        codeUnits (rt.toLowerCase x) ≤ codeUnits (rt.toLowerCase y)) ∨
      (codeUnits y ≤ codeUnits x ∧
        codeUnits (rt.toLowerCase y) ≤ codeUnits (rt.toLowerCase x))) fun {x y} h => Or.inl h
    have hsymm : Std.Symm fun x y : String =>
        (codeUnits x ≤ codeUnits y ∧
          codeUnits (rt.toLowerCase x) ≤ codeUnits (rt.toLowerCase y)) ∨
        (codeUnits y ≤ codeUnits x ∧
          codeUnits (rt.toLowerCase y) ≤ codeUnits (rt.toLowerCase x)) :=
      ⟨fun _ _ h => h.symm⟩
    have hne : a ≠ b := by
      rintro rfl
      exact List.lt_irrefl _ hlt
    rcases hboth.forall ((hmem a).mpr ha) ((hmem b).mpr hb) hne with h | h
    · exact h.2
    · exact absurd hlt h.1
  · intro hlower
    refine hsorted.imp_of_mem fun {a b} ha hb hle => ?_
    rcases List.le_iff_lt_or_eq.mp hle with hlt | heq
    · exact hlower a ((hmem a).mp ha) b ((hmem b).mp hb) hlt
    · rw [codeUnits_injective heq]
      exact List.le_refl _

theorem toLowerCase_fixedName (hcase : LowersCase rt.toLowerCase) {name : String}
    (h : name ∈ fixedNames) : rt.toLowerCase name = name := by
  have hall : fixedNames.all (fun name => name.toList.all (fun c => c.toNat < 128) &&
      decide (String.ofList (name.toList.map Char.toLower) = name)) = true := by decide
  obtain ⟨hascii, hlower⟩ := Bool.and_eq_true_iff.mp (List.all_eq_true.mp hall name h)
  exact (hcase.ascii name hascii).trans (of_decide_eq_true hlower)

theorem toLowerCase_metadataName (hcase : LowersCase rt.toLowerCase) (k : String) :
    rt.toLowerCase (metadataPrefix ++ k) = metadataPrefix ++ rt.toLowerCase k := by
  have hsplit : metadataPrefix = "x-amz-meta" ++ "-" := by decide
  have hlower : String.ofList ("x-amz-meta".toList.map Char.toLower) = "x-amz-meta" := by decide
  rw [hsplit, hcase.dash, hcase.ascii "x-amz-meta" (by decide), hlower]

/-- The names that carry no metadata come before the others. -/
theorem codeUnits_fixedName_lt {name : String} (h : name ∈ fixedNames) :
    codeUnits name < codeUnits metadataPrefix := by
  have hall : fixedNames.all (fun name => decide (codeUnits name < codeUnits metadataPrefix)) =
      true := by decide
  exact of_decide_eq_true (List.all_eq_true.mp hall name h)

theorem codeUnits_metadataName_lt_iff (k k' : String) :
    codeUnits (metadataPrefix ++ k) < codeUnits (metadataPrefix ++ k') ↔
      codeUnits k < codeUnits k' := by
  rw [codeUnits_append, codeUnits_append]
  constructor
  · intro hlt
    by_contra hnot
    exact (List.append_left_le hnot : codeUnits metadataPrefix ++ codeUnits k' ≤ _) hlt
  · exact List.append_left_lt

/-- The order of all names depends on that of the metadata alone. -/
theorem ascending_putHeaders_iff (hcase : LowersCase rt.toLowerCase) :
    SigV4.Ascending (signedHeaderNames rt (requestHeaders (putHeaders upload) host isoDate)) ↔
      ∀ p ∈ upload.metadata.getD [], ∀ q ∈ upload.metadata.getD [],
        codeUnits p.1 < codeUnits q.1 →
          codeUnits (rt.toLowerCase p.1) ≤ codeUnits (rt.toLowerCase q.1) := by
  rw [ascending_signedHeaderNames_iff]
  constructor
  · intro hnames p hp q hq hlt hgt
    refine hnames (metadataPrefix ++ p.1) (mem_names_requestHeaders.mpr (Or.inr ⟨p, hp, rfl⟩))
      (metadataPrefix ++ q.1) (mem_names_requestHeaders.mpr (Or.inr ⟨q, hq, rfl⟩))
      ((codeUnits_metadataName_lt_iff p.1 q.1).mpr hlt) ?_
    rw [toLowerCase_metadataName hcase, toLowerCase_metadataName hcase]
    exact (codeUnits_metadataName_lt_iff _ _).mpr hgt
  · intro hmetadata a ha b hb hlt
    rcases mem_names_requestHeaders.mp ha with hfixed | ⟨p, hp, rfl⟩
    · rw [toLowerCase_fixedName hcase hfixed]
      rcases mem_names_requestHeaders.mp hb with hfixed' | ⟨q, hq, rfl⟩
      · rw [toLowerCase_fixedName hcase hfixed']
        exact List.le_of_lt hlt
      · rw [toLowerCase_metadataName hcase, codeUnits_append]
        exact List.le_trans (List.le_of_lt (codeUnits_fixedName_lt hfixed)) List.le_append_left
    · rcases mem_names_requestHeaders.mp hb with hfixed' | ⟨q, hq, rfl⟩
      · have hbefore : codeUnits b ≤ codeUnits (metadataPrefix ++ p.1) := by
          rw [codeUnits_append]
          exact List.le_trans (List.le_of_lt (codeUnits_fixedName_lt hfixed')) List.le_append_left
        exact absurd hlt hbefore
      · rw [toLowerCase_metadataName hcase, toLowerCase_metadataName hcase]
        intro hgt
        exact hmetadata p hp q hq ((codeUnits_metadataName_lt_iff p.1 q.1).mp hlt)
          ((codeUnits_metadataName_lt_iff _ _).mp hgt)

end Headers

/-! ## The condition -/

section Condition

variable {rt : Runtime} {adapter : RustFsStorageAdapter} {now : Date}
  {download : SignedDownloadInput} {upload : PutObjectInput}

/-- What is signed for a download. -/
theorem downloadRequest_eq (now : Date) {bucket : String}
    (hbucket : adapter.bucketOf download.location = some bucket) {endpoint : ParsedUrl}
    (hendpoint : rt.parseUrl adapter.endpoint = some endpoint) :
    downloadRequest rt adapter now download = .ok
      { bucket := bucket
        key := objectKey download.location
        isoDate := isoDateOf now
        host := endpoint.host
        canonicalUri := canonicalUri bucket (objectKey download.location)
        canonicalQueryString :=
          canonicalQueryString (queryParams adapter (isoDateOf now) download) } := by
  simp only [downloadRequest, hbucket, hendpoint]

/-- A query is canonical where its credential and its filename have no marks. -/
theorem canonicalQueryString_eq_iff (now : Date) :
    canonicalQueryString (queryParams adapter (isoDateOf now) download) =
        SigV4.canonicalQueryString (queryParams adapter (isoDateOf now) download) ↔
      Unmarked adapter.accessKeyId ∧ Unmarked adapter.region ∧
        ∀ filename ∈ download.downloadFilename, Unmarked filename := by
  rw [canonicalQueryString_queryParams, sigV4_canonicalQueryString_queryParams,
    queryText_eq_iff, unmarked_queryParams_iff (unmarked_isoDateOf now)]

/-- The requests have the canonical form exactly where nothing that is encoded
has one of the marks, and the names of the metadata are in one order with their
own letters and in lower case. -/
theorem canonicalForm_iff (hcase : LowersCase rt.toLowerCase) {bucket : String}
    (hbucket : adapter.bucketOf download.location = some bucket) {endpoint url : ParsedUrl}
    (hendpoint : rt.parseUrl adapter.endpoint = some endpoint)
    (hurl : rt.parseUrl (putUrl adapter upload.location) = some url) :
    CanonicalForm rt adapter now download upload ↔
      FormCondition rt adapter download upload bucket := by
  have hrequest := downloadRequest_eq now hbucket hendpoint
  have hquery : canonicalQueryString (queryParams adapter (isoDateOf now) download) =
      SigV4.canonicalQueryString (queryParams adapter (isoDateOf now) download) ↔
      Unmarked adapter.accessKeyId ∧ Unmarked adapter.region ∧
        ∀ filename ∈ download.downloadFilename, Unmarked filename :=
    canonicalQueryString_eq_iff now
  have huri := canonicalUri_eq_iff bucket (objectKey download.location)
  rw [unmarked_objectKey] at huri
  have hheaders : SigV4.Ascending (signedHeaderNames rt
      (requestHeaders (putHeaders upload) url.host (isoDateOf now))) ↔
      ∀ p ∈ upload.metadata.getD [], ∀ q ∈ upload.metadata.getD [],
        codeUnits p.1 < codeUnits q.1 →
          codeUnits (rt.toLowerCase p.1) ≤ codeUnits (rt.toLowerCase q.1) :=
    ascending_putHeaders_iff hcase
  constructor
  · intro hform
    obtain ⟨haccess, hregion, hfilename⟩ := hquery.mp (hform.query _ hrequest)
    obtain ⟨hplain, hkey⟩ := huri.mp (hform.uri _ hrequest)
    exact ⟨haccess, hregion, hplain, hkey, hfilename, hheaders.mp (hform.headers url hurl)⟩
  · intro hcondition
    refine ⟨fun r hr => ?_, fun r hr => ?_, fun url' hurl' => ?_⟩
    · rw [hrequest] at hr
      cases hr
      exact hquery.mpr ⟨hcondition.accessKeyId, hcondition.region, hcondition.filename⟩
    · rw [hrequest] at hr
      cases hr
      exact huri.mpr ⟨hcondition.bucket, hcondition.key⟩
    · rw [hurl] at hurl'
      cases hurl'
      exact hheaders.mpr hcondition.metadata

/-! ## Some requests -/

/-- The lower-case form of a text in ASCII. -/
def asciiLowerCase (text : String) : String := String.ofList (text.toList.map Char.toLower)

theorem lowersCase_asciiLowerCase : LowersCase asciiLowerCase where
  ascii := fun _ _ => rfl
  dash := by
    intro s t
    have hdash : asciiLowerCase "-" = "-" := by decide
    have happend : ∀ a b, asciiLowerCase (a ++ b) = asciiLowerCase a ++ asciiLowerCase b := by
      intro a b
      rw [asciiLowerCase, String.toList_append, List.map_append, String.ofList_append]
      rfl
    rw [happend, happend, hdash]

def endpointUrl : ParsedUrl where
  host := "localhost:9000"
  pathname := "/"
  search := ""

def reportUrl : ParsedUrl where
  host := "localhost:9000"
  pathname := "/media/org/report.pdf"
  search := ""

/-- A server on this machine.  No canonical form reads the hashes. -/
def localRuntime : Runtime where
  sha256 := id
  hmac := fun key text => key ++ Lib.Utf8.encode text
  parseUrl := fun url =>
    if url = "http://localhost:9000" then some endpointUrl
    else if url = "http://localhost:9000/media/org/report.pdf" then some reportUrl
    else none
  toLowerCase := asciiLowerCase

def localAdapter : RustFsStorageAdapter :=
  createStorageClient
    { endpoint := "http://localhost:9000/"
      region := ""
      accessKeyId := "rustfsadmin"
      secretAccessKey := "secret"
      defaultBucket := some "media" }

def sixty : Lib.Double := ⟨60, by decide +kernel⟩

/-- A download that is saved under a name. -/
def downloadOf (key filename : String) : SignedDownloadInput where
  location := { bucket := "media", key := key }
  expiresInSeconds := sixty
  downloadFilename := some filename

/-- An upload with two names of metadata. -/
def uploadWith (name name' : String) : PutObjectInput where
  location := { bucket := "media", key := "org/report.pdf" }
  contentType := "application/pdf"
  contentLength := sixty
  checksumSha256 := "UNSIGNED-PAYLOAD"
  metadata := some [(name, "1"), (name', "2")]

theorem bucketOf_downloadOf (key filename : String) :
    localAdapter.bucketOf (downloadOf key filename).location = some "media" := by
  have hbucket : truthy (some "media") = some "media" := by decide
  simp only [RustFsStorageAdapter.bucketOf, downloadOf, hbucket, Option.some_or]

theorem parseUrl_localEndpoint :
    localRuntime.parseUrl localAdapter.endpoint = some endpointUrl := by
  have hendpoint : localAdapter.endpoint = "http://localhost:9000" := by decide
  rw [hendpoint]
  simp only [localRuntime, if_true]

theorem parseUrl_uploadWith (name name' : String) :
    localRuntime.parseUrl (putUrl localAdapter (uploadWith name name').location) =
      some reportUrl := by
  have hurl : putUrl localAdapter (uploadWith "" "").location =
      "http://localhost:9000/media/org/report.pdf" := by decide
  have hlocation : (uploadWith name name').location = (uploadWith "" "").location := rfl
  have hother : ¬ "http://localhost:9000/media/org/report.pdf" = "http://localhost:9000" := by
    decide
  rw [hlocation, hurl]
  simp only [localRuntime, if_neg hother, if_true]

theorem canonicalForm_report :
    CanonicalForm localRuntime localAdapter 0 (downloadOf "org/report.pdf" "report.pdf")
      (uploadWith "owner" "source") := by
  have hcondition : FormCondition localRuntime localAdapter
      (downloadOf "org/report.pdf" "report.pdf") (uploadWith "owner" "source") "media" := by
    have haccess : Unmarked "rustfsadmin" := unmarked_of_all (by decide)
    have hregion : Unmarked "us-east-1" := unmarked_of_all (by decide)
    have hbucket : Unmarked "media" := unmarked_of_all (by decide)
    have hkey : Unmarked "org/report.pdf" := unmarked_of_all (by decide)
    refine ⟨haccess, hregion, hbucket, hkey, ?_, ?_⟩
    · rintro filename ⟨⟩
      exact unmarked_of_all (by decide)
    · decide
  exact (canonicalForm_iff lowersCase_asciiLowerCase (bucketOf_downloadOf _ _)
    parseUrl_localEndpoint (parseUrl_uploadWith _ _)).mpr hcondition

/-- The name of a file and a key with parentheses, and metadata of which one name
has a capital letter. -/
theorem not_canonicalForm :
    ¬ CanonicalForm localRuntime localAdapter 0 (downloadOf "org/report.pdf" "report (1).pdf")
        (uploadWith "owner" "source") ∧
      ¬ CanonicalForm localRuntime localAdapter 0 (downloadOf "org/a(b)" "report.pdf")
        (uploadWith "owner" "source") ∧
      ¬ CanonicalForm localRuntime localAdapter 0 (downloadOf "org/report.pdf" "report.pdf")
        (uploadWith "Source" "owner") := by
  refine ⟨fun h => ?_, fun h => ?_, fun h => ?_⟩
  · have hrequest := downloadRequest_eq 0
      (bucketOf_downloadOf "org/report.pdf" "report (1).pdf") parseUrl_localEndpoint
    have hfilename := ((canonicalQueryString_eq_iff 0).mp (h.query _ hrequest)).2.2 _ rfl
    exact absurd (hfilename '(' (by decide)) (by decide)
  · have hrequest := downloadRequest_eq 0
      (bucketOf_downloadOf "org/a(b)" "report.pdf") parseUrl_localEndpoint
    have hkey := ((canonicalUri_eq_iff _ _).mp (h.uri _ hrequest)).2
    exact absurd (hkey '(' (by decide)) (by decide)
  · have hheaders := (ascending_putHeaders_iff lowersCase_asciiLowerCase).mp
      (h.headers reportUrl (parseUrl_uploadWith _ _))
    exact absurd (hheaders ("Source", "1") (by decide) ("owner", "2") (by decide) (by decide))
      (by decide)

end Condition

end Vynor.Storage
