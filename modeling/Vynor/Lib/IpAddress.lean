import Vynor.Lib.Number

/-!
# IP addresses as texts

The texts that `net.isIP` takes for an address, and the address that such a text
denotes.  An IPv4 address is four octets without leading zeros.  An IPv6 address
is eight groups of up to four hexadecimal digits, of which the last two may be
written as an IPv4 address, one run of zeros may be left out (`::`), and a zone
may follow (`%eth0`).
-/

namespace Lib

inductive IpAddress where
  | v4 (value : Nat)
  | v6 (groups : List Nat)
deriving DecidableEq

namespace IpAddress

/-! ## Parsing -/

/-- A decimal octet, without a leading zero. -/
def octet? (piece : List Char) : Option Nat :=
  if piece.head? = some '0' && piece.length ≠ 1 then none
  else (natural? 10 piece).filter fun n => n < 256

/-- The value of four octets. -/
def ipv4Value? (text : List Char) : Option Nat :=
  match text.splitOn '.' with
  | [p, q, r, s] =>
      (octet? p).bind fun a => (octet? q).bind fun b => (octet? r).bind fun c =>
        (octet? s).map fun d => ((a * 256 + b) * 256 + c) * 256 + d
  | _ => none

/-- A group: one to four digits. -/
def hexGroup? (piece : List Char) : Option Nat :=
  if piece.length ≤ 4 then natural? 16 piece else none

/-- The groups of some pieces.  The last one may be an IPv4 address where the
text ends with it. -/
def groupsOf (atEnd : Bool) : List (List Char) → Option (List Nat)
  | [] => some []
  | [piece] =>
      match hexGroup? piece with
      | some g => some [g]
      | none =>
          if atEnd then (ipv4Value? piece).map fun v => [v / 65536, v % 65536] else none
  | piece :: pieces =>
      (hexGroup? piece).bind fun g => (groupsOf atEnd pieces).map fun gs => g :: gs

/-- The groups on one side of `::`. -/
def sideGroups (atEnd : Bool) (text : List Char) : Option (List Nat) :=
  if text = [] then some [] else groupsOf atEnd (text.splitOn ':')

/-- The texts before and after the first `::`. -/
def splitDouble : List Char → Option (List Char × List Char)
  | [] => none
  | c :: rest =>
      if c = ':' ∧ rest.head? = some ':' then some ([], rest.tail)
      else (splitDouble rest).map fun (left, right) => (c :: left, right)

/-- The eight groups of a text without a zone. -/
def addressGroups? (text : List Char) : Option (List Nat) :=
  match splitDouble text with
  | none => (groupsOf true (text.splitOn ':')).filter fun gs => gs.length = 8
  | some (left, right) =>
      (sideGroups false left).bind fun l => (sideGroups true right).bind fun r =>
        if l.length + r.length ≤ 7 then
          some (l ++ List.replicate (8 - (l.length + r.length)) 0 ++ r)
        else none

def isZoneChar (c : Char) : Bool := c.isAlphanum || c = '-' || c = '.' || c = ':'

/-- The text before the zone. -/
def withoutZone (text : List Char) : List Char := text.takeWhile fun c => c ≠ '%'

/-- A zone: nothing, or `%` and at least one character. -/
def isZone (zone : List Char) : Bool := zone = [] || (2 ≤ zone.length && zone.tail.all isZoneChar)

def lowerCase (text : List Char) : List Char := text.map Char.toLower

/-- The eight groups of an IPv6 address, in either case. -/
def ipv6Groups? (text : List Char) : Option (List Nat) :=
  let lower := lowerCase text
  if isZone (lower.dropWhile fun c => c ≠ '%') then addressGroups? (withoutZone lower) else none

/-- The address that a text denotes. -/
def ofText? (text : List Char) : Option IpAddress :=
  match ipv4Value? text with
  | some value => some (.v4 value)
  | none => (ipv6Groups? text).map .v6

/-- `isIP`. -/
def isIP (text : List Char) : Nat :=
  match ofText? text with
  | some (.v4 _) => 4
  | some (.v6 _) => 6
  | none => 0

example : ofText? "::ffff:10.0.0.1%eth0".toList = some (.v6 [0, 0, 0, 0, 0, 0xffff, 0xa00, 1]) := by
  decide

/-! ## Digits -/

/-- The digits of a number that is read. -/
theorem digitValue_of_natural? {base n : Nat} {cs : List Char} (h : natural? base cs = some n)
    {c : Char} (hc : c ∈ cs) : digitValue c < base := by
  cases cs with
  | nil => cases hc
  | cons d ds =>
      rw [natural?, digitsValue?] at h
      split at h
      · next hall => exact of_decide_eq_true (List.all_eq_true.mp hall c hc)
      · cases h

theorem le_foldl_digits {base : Nat} (hbase : 0 < base) (cs : List Char) (n : Nat) :
    n ≤ cs.foldl (fun n c => base * n + digitValue c) n := by
  induction cs generalizing n with
  | nil => exact Nat.le_refl n
  | cons c cs ih =>
      calc n ≤ base * n := Nat.le_mul_of_pos_left n hbase
        _ ≤ base * n + digitValue c := Nat.le_add_right _ _
        _ ≤ (c :: cs).foldl (fun n c => base * n + digitValue c) n := ih _

theorem natural?_eq_foldl {base n : Nat} {cs : List Char} (h : natural? base cs = some n) :
    n = cs.foldl (fun n c => base * n + digitValue c) 0 := by
  cases cs with
  | nil => cases h
  | cons c cs =>
      rw [natural?, digitsValue?] at h
      split at h
      · cases h
        rfl
      · cases h

/-- A number is bounded by how many digits it has. -/
theorem natural?_lt {base n : Nat} {cs : List Char} (h : natural? base cs = some n) :
    n < base ^ cs.length := by
  rw [natural?_eq_foldl h]
  have hlt := foldl_digits_lt (fun c hc => digitValue_of_natural? h hc) 0
  rwa [Nat.zero_add, Nat.one_mul] at hlt

theorem ne_nil_of_natural? {base n : Nat} {cs : List Char} (h : natural? base cs = some n) :
    cs ≠ [] := by
  rintro rfl
  cases h

/-! ## Pieces -/

/-- A character of a text is in a piece of it, or separates two. -/
theorem mem_splitOn (sep : Char) {text : List Char} {c : Char} (hc : c ∈ text) :
    c = sep ∨ ∃ piece ∈ text.splitOn sep, c ∈ piece := by
  induction text with
  | nil => cases hc
  | cons d ds ih =>
      rw [List.splitOn_cons_eq_if_modifyHead]
      obtain ⟨piece, pieces, hsplit⟩ := List.exists_cons_of_ne_nil (List.splitOn_ne_nil sep ds)
      rw [hsplit] at ih ⊢
      by_cases hd : d = sep
      · subst hd
        rw [if_pos (beq_self_eq_true d)]
        rcases List.mem_cons.mp hc with rfl | hds
        · exact Or.inl rfl
        · rcases ih hds with heq | ⟨found, hfound, hin⟩
          · exact Or.inl heq
          · exact Or.inr ⟨found, List.mem_cons_of_mem _ hfound, hin⟩
      · rw [if_neg (by simpa using hd), List.modifyHead_cons]
        rcases List.mem_cons.mp hc with rfl | hds
        · exact Or.inr ⟨c :: piece, List.mem_cons_self, List.mem_cons_self⟩
        · rcases ih hds with heq | ⟨found, hfound, hin⟩
          · exact Or.inl heq
          · rcases List.mem_cons.mp hfound with rfl | hrest
            · exact Or.inr ⟨d :: found, List.mem_cons_self, List.mem_cons_of_mem _ hin⟩
            · exact Or.inr ⟨found, List.mem_cons_of_mem _ hrest, hin⟩

/-! ## IPv4 -/

theorem natural?_of_octet? {piece : List Char} {n : Nat} (h : octet? piece = some n) :
    natural? 10 piece = some n ∧ n < 256 := by
  unfold octet? at h
  split at h
  · cases h
  · obtain ⟨hread, hlt⟩ := Option.filter_eq_some_iff.mp h
    exact ⟨hread, of_decide_eq_true hlt⟩

/-- The octets of an IPv4 address. -/
theorem octets_of_ipv4Value? {text : List Char} {value : Nat} (h : ipv4Value? text = some value) :
    ∃ p q r s a b c d, text.splitOn '.' = [p, q, r, s] ∧ octet? p = some a ∧ octet? q = some b ∧
      octet? r = some c ∧ octet? s = some d ∧ value = ((a * 256 + b) * 256 + c) * 256 + d := by
  unfold ipv4Value? at h
  split at h
  · next p q r s hsplit =>
      obtain ⟨a, ha, h⟩ := Option.bind_eq_some_iff.mp h
      obtain ⟨b, hb, h⟩ := Option.bind_eq_some_iff.mp h
      obtain ⟨c, hc, h⟩ := Option.bind_eq_some_iff.mp h
      obtain ⟨d, hd, h⟩ := Option.map_eq_some_iff.mp h
      exact ⟨p, q, r, s, a, b, c, d, hsplit, ha, hb, hc, hd, h.symm⟩
  · cases h

/-- The characters of an IPv4 address. -/
theorem mem_of_ipv4Value? {text : List Char} {value : Nat} (h : ipv4Value? text = some value)
    {c : Char} (hc : c ∈ text) : c = '.' ∨ 48 ≤ c.toNat ∧ c.toNat ≤ 57 := by
  obtain ⟨p, q, r, s, a, b, c', d, hsplit, ha, hb, hc', hd, -⟩ := octets_of_ipv4Value? h
  rcases mem_splitOn '.' hc with heq | ⟨piece, hpiece, hin⟩
  · exact Or.inl heq
  · have hoctet : ∃ n, octet? piece = some n := by
      rw [hsplit] at hpiece
      simp only [List.mem_cons, List.not_mem_nil, or_false] at hpiece
      rcases hpiece with rfl | rfl | rfl | rfl
      · exact ⟨a, ha⟩
      · exact ⟨b, hb⟩
      · exact ⟨c', hc'⟩
      · exact ⟨d, hd⟩
    obtain ⟨n, hn⟩ := hoctet
    exact Or.inr (digitValue_lt_ten (digitValue_of_natural? (natural?_of_octet? hn).1 hin))

/-- A text with a colon or a zone is no IPv4 address. -/
theorem not_mem_of_ipv4Value? {text : List Char} {value : Nat} (h : ipv4Value? text = some value)
    {c : Char} (hc : c = ':' ∨ c = '%') : c ∉ text := by
  intro hin
  rcases mem_of_ipv4Value? h hin with rfl | hdigit
  · rcases hc with hc | hc <;> cases hc
  · rcases hc with rfl | rfl
    · exact absurd hdigit (by decide)
    · exact absurd hdigit (by decide)

/-- An IPv4 address has a point, and no group has. -/
theorem hexGroup?_of_ipv4Value? {text : List Char} {value : Nat}
    (h : ipv4Value? text = some value) : hexGroup? text = none := by
  obtain ⟨p, q, r, s, a, b, c, d, hsplit, -⟩ := octets_of_ipv4Value? h
  rw [Option.eq_none_iff_forall_ne_some]
  intro n hn
  unfold hexGroup? at hn
  split at hn
  · have hpoint : '.' ∉ text := fun hin =>
      absurd (digitValue_of_natural? hn hin) (by decide)
    rw [List.splitOn_eq_singleton hpoint] at hsplit
    cases hsplit
  · cases hn

/-! ## Groups -/

theorem digits_of_hexGroup? {piece : List Char} {g : Nat} (h : hexGroup? piece = some g) :
    piece.length ≤ 4 ∧ natural? 16 piece = some g := by
  unfold hexGroup? at h
  split at h
  · next hlength => exact ⟨hlength, h⟩
  · cases h

/-- The first of several pieces is a group. -/
theorem groupsOf_cons_cons (atEnd : Bool) (piece next : List Char) (pieces : List (List Char)) :
    groupsOf atEnd (piece :: next :: pieces) =
      (hexGroup? piece).bind fun g => (groupsOf atEnd (next :: pieces)).map fun gs => g :: gs := by
  rw [groupsOf]
  exact fun heq => by cases heq

/-- What is read of pieces: a group, an IPv4 address, or nothing. -/
theorem groupsOf_cons {atEnd : Bool} {piece : List Char} {pieces : List (List Char)}
    {gs : List Nat} (h : groupsOf atEnd (piece :: pieces) = some gs) :
    (∃ g rest, hexGroup? piece = some g ∧ groupsOf atEnd pieces = some rest ∧ gs = g :: rest) ∨
      (atEnd = true ∧ pieces = [] ∧
        ∃ v, ipv4Value? piece = some v ∧ gs = [v / 65536, v % 65536]) := by
  cases pieces with
  | nil =>
      rw [groupsOf] at h
      split at h
      · next g hg =>
          cases h
          exact Or.inl ⟨g, [], hg, rfl, rfl⟩
      · split at h
        · next hend =>
            obtain ⟨v, hv, rfl⟩ := Option.map_eq_some_iff.mp h
            exact Or.inr ⟨hend, rfl, v, hv, rfl⟩
        · cases h
  | cons next pieces =>
      rw [groupsOf_cons_cons] at h
      obtain ⟨g, hg, h⟩ := Option.bind_eq_some_iff.mp h
      obtain ⟨rest, hrest, rfl⟩ := Option.map_eq_some_iff.mp h
      exact Or.inl ⟨g, rest, hg, hrest, rfl⟩

/-- Every piece is a group or an IPv4 address. -/
theorem piece_of_groupsOf {atEnd : Bool} {pieces : List (List Char)} {gs : List Nat}
    (h : groupsOf atEnd pieces = some gs) {piece : List Char} (hpiece : piece ∈ pieces) :
    (∃ g, hexGroup? piece = some g) ∨ ∃ v, ipv4Value? piece = some v := by
  induction pieces generalizing gs with
  | nil => cases hpiece
  | cons first rest ih =>
      rcases groupsOf_cons h with ⟨g, restGroups, hg, hrest, -⟩ | ⟨-, rfl, v, hv, -⟩
      · rcases List.mem_cons.mp hpiece with rfl | hin
        · exact Or.inl ⟨g, hg⟩
        · exact ih hrest hin
      · rw [List.mem_singleton] at hpiece
        subst hpiece
        exact Or.inr ⟨v, hv⟩

theorem ne_nil_of_groupsOf {atEnd : Bool} {pieces : List (List Char)} {gs : List Nat}
    (h : groupsOf atEnd pieces = some gs) : [] ∉ pieces := by
  intro hpiece
  rcases piece_of_groupsOf h hpiece with ⟨g, hg⟩ | ⟨v, hv⟩
  · cases hg
  · cases hv

/-! ## Both sides of `::` -/

theorem eq_append_of_splitDouble {text left right : List Char}
    (h : splitDouble text = some (left, right)) : text = left ++ ':' :: ':' :: right := by
  induction text generalizing left with
  | nil => cases h
  | cons c rest ih =>
      rw [splitDouble] at h
      split at h
      · next hdouble =>
          obtain ⟨rfl, hhead⟩ := hdouble
          cases h
          obtain ⟨tail, rfl⟩ := List.head?_eq_some_iff.mp hhead
          rfl
      · obtain ⟨⟨before, after⟩, hbefore, heq⟩ := Option.map_eq_some_iff.mp h
        cases heq
        rw [ih hbefore]
        rfl

theorem splitOn_cons_self (sep : Char) (text : List Char) :
    (sep :: text).splitOn sep = [] :: text.splitOn sep := by
  rw [List.splitOn_cons_eq_if_modifyHead, if_pos (beq_self_eq_true sep)]

/-- Pieces around `::` are not all groups. -/
theorem splitDouble_of_groupsOf {text : List Char} {atEnd : Bool} {gs : List Nat}
    (h : groupsOf atEnd (text.splitOn ':') = some gs) : splitDouble text = none := by
  rw [Option.eq_none_iff_forall_ne_some]
  rintro ⟨left, right⟩ hdouble
  refine ne_nil_of_groupsOf h ?_
  rw [eq_append_of_splitDouble hdouble, List.splitOn_append_cons_self, splitOn_cons_self]
  exact List.mem_append_right _ List.mem_cons_self

/-- Several pieces begin with a group. -/
theorem groupsOf_splitOn {atEnd : Bool} {piece rest : List Char} {gs : List Nat}
    (hpiece : ':' ∉ piece)
    (h : groupsOf atEnd ((piece ++ ':' :: rest).splitOn ':') = some gs) :
    ∃ g tail, hexGroup? piece = some g ∧ groupsOf atEnd (rest.splitOn ':') = some tail ∧
      gs = g :: tail := by
  rw [List.splitOn_append_cons_self_of_not_mem hpiece] at h
  rcases groupsOf_cons h with hgroup | ⟨-, hnil, -⟩
  · exact hgroup
  · exact absurd hnil (List.splitOn_ne_nil ':' rest)

/-- A single piece is at most two groups. -/
theorem length_of_groupsOf_singleton {atEnd : Bool} {piece : List Char} {gs : List Nat}
    (h : groupsOf atEnd [piece] = some gs) : gs.length ≤ 2 := by
  rcases groupsOf_cons h with ⟨g, rest, -, hrest, rfl⟩ | ⟨-, -, v, -, rfl⟩
  · cases hrest
    exact Nat.le_succ 1
  · exact Nat.le_refl 2

/-- The ways to write eight groups. -/
theorem addressGroups?_eq_some {text : List Char} {gs : List Nat}
    (h : addressGroups? text = some gs) :
    (splitDouble text = none ∧ groupsOf true (text.splitOn ':') = some gs ∧ gs.length = 8) ∨
      ∃ left right l r, splitDouble text = some (left, right) ∧ sideGroups false left = some l ∧
        sideGroups true right = some r ∧ l.length + r.length ≤ 7 ∧
        gs = l ++ List.replicate (8 - (l.length + r.length)) 0 ++ r := by
  unfold addressGroups? at h
  split at h
  · next hdouble =>
      obtain ⟨hread, hlength⟩ := Option.filter_eq_some_iff.mp h
      exact Or.inl ⟨hdouble, hread, of_decide_eq_true hlength⟩
  · next left right hdouble =>
      obtain ⟨l, hl, h⟩ := Option.bind_eq_some_iff.mp h
      obtain ⟨r, hr, h⟩ := Option.bind_eq_some_iff.mp h
      split at h
      · next hle =>
          cases h
          exact Or.inr ⟨left, right, l, r, hdouble, hl, hr, hle, rfl⟩
      · cases h

/-- An address that begins with a colon begins with a zero. -/
theorem head_of_addressGroups?_colon {rest : List Char} {gs : List Nat}
    (h : addressGroups? (':' :: rest) = some gs) : ∃ tail, gs = 0 :: tail := by
  rcases addressGroups?_eq_some h with ⟨-, hread, -⟩ | ⟨left, right, l, r, hdouble, hl, -, hle, rfl⟩
  · rw [splitOn_cons_self] at hread
    exact absurd List.mem_cons_self (ne_nil_of_groupsOf hread)
  · cases left with
    | nil =>
        cases hl
        obtain ⟨n, hn⟩ : ∃ n, 8 - (([] : List Nat).length + r.length) = n + 1 :=
          ⟨7 - r.length, by rw [List.length_nil] at *; omega⟩
        rw [hn, List.replicate_succ]
        exact ⟨_, rfl⟩
    | cons c left =>
        have heq := eq_append_of_splitDouble hdouble
        rw [List.cons_append, List.cons.injEq] at heq
        rw [sideGroups, if_neg (List.cons_ne_nil c left), ← heq.1, splitOn_cons_self] at hl
        exact absurd List.mem_cons_self (ne_nil_of_groupsOf hl)

/-- An address that does not begin with a colon begins with a group. -/
theorem head_of_addressGroups? {text : List Char} {gs : List Nat}
    (h : addressGroups? text = some gs) (hcolon : text.head? ≠ some ':') :
    ∃ piece rest g tail, text = piece ++ ':' :: rest ∧ ':' ∉ piece ∧ hexGroup? piece = some g ∧
      gs = g :: tail := by
  rcases addressGroups?_eq_some h with
    ⟨-, hread, hlength⟩ | ⟨left, right, l, r, hdouble, hl, -, -, rfl⟩
  · by_cases hmem : ':' ∈ text
    · obtain ⟨piece, rest, rfl, hpiece⟩ := List.eq_append_cons_of_mem hmem
      obtain ⟨g, tail, hg, -, heq⟩ := groupsOf_splitOn hpiece hread
      exact ⟨piece, rest, g, tail, rfl, hpiece, hg, heq⟩
    · rw [List.splitOn_eq_singleton hmem] at hread
      have hle := length_of_groupsOf_singleton hread
      omega
  · have htext := eq_append_of_splitDouble hdouble
    have hleft : left ≠ [] := by
      rintro rfl
      rw [htext] at hcolon
      exact hcolon rfl
    rw [sideGroups, if_neg hleft] at hl
    by_cases hmem : ':' ∈ left
    · obtain ⟨piece, rest, rfl, hpiece⟩ := List.eq_append_cons_of_mem hmem
      obtain ⟨g, tail, hg, -, rfl⟩ := groupsOf_splitOn hpiece hl
      refine ⟨piece, rest ++ ':' :: ':' :: right, g, _, ?_, hpiece, hg, rfl⟩
      rw [htext, List.append_assoc, List.cons_append]
    · rw [List.splitOn_eq_singleton hmem] at hl
      rcases groupsOf_cons hl with ⟨g, tail, hg, -, rfl⟩ | ⟨hend, -⟩
      · exact ⟨left, ':' :: right, g, _, htext, hmem, hg, rfl⟩
      · cases hend

/-! ## Mapped addresses -/

/-- The prefix of an IPv4-mapped address. -/
def mappedPrefix : List Char := [':', ':', 'f', 'f', 'f', 'f', ':']

/-- The groups of an IPv4-mapped address. -/
def mappedGroups (value : Nat) : List Nat := [0, 0, 0, 0, 0, 0xffff, value / 65536, value % 65536]

theorem mappedGroups_inj {v w : Nat} (h : mappedGroups v = mappedGroups w) : v = w := by
  simp only [mappedGroups, List.cons.injEq, true_and, and_true] at h
  rw [← Nat.div_add_mod v 65536, h.1, h.2, Nat.div_add_mod]

/-- What follows the prefix is read as groups. -/
theorem addressGroups?_mappedPrefix {rest : List Char} {gs : List Nat}
    (h : addressGroups? (mappedPrefix ++ rest) = some gs) :
    ∃ tail, groupsOf true (rest.splitOn ':') = some tail ∧ tail.length ≤ 6 ∧
      gs = List.replicate (7 - tail.length) 0 ++ 0xffff :: tail := by
  rcases addressGroups?_eq_some h with ⟨hdouble, -⟩ | ⟨left, right, l, r, hdouble, hl, hr, hle, rfl⟩
  · cases hdouble
  · cases hdouble
    cases hl
    have hfirst : hexGroup? ['f', 'f', 'f', 'f'] = some 0xffff := by decide
    obtain ⟨g, tail, hg, htail, rfl⟩ :=
      groupsOf_splitOn (show ':' ∉ ['f', 'f', 'f', 'f'] by decide) hr
    rw [hfirst] at hg
    cases hg
    rw [List.length_nil, List.length_cons] at hle
    refine ⟨tail, htail, by omega, ?_⟩
    rw [List.length_nil, List.length_cons, List.nil_append, Nat.zero_add, Nat.succ_sub_succ]

/-- Before an IPv4 address, the prefix makes an IPv4-mapped address. -/
theorem addressGroups?_mapped {rest : List Char} {gs : List Nat} {value : Nat}
    (h : addressGroups? (mappedPrefix ++ rest) = some gs) (hvalue : ipv4Value? rest = some value) :
    gs = mappedGroups value := by
  obtain ⟨tail, htail, -, rfl⟩ := addressGroups?_mappedPrefix h
  rw [List.splitOn_eq_singleton (not_mem_of_ipv4Value? hvalue (Or.inl rfl))] at htail
  rcases groupsOf_cons htail with ⟨g, rest', hg, -⟩ | ⟨-, -, v, hv, rfl⟩
  · rw [hexGroup?_of_ipv4Value? hvalue] at hg
    cases hg
  · rw [hvalue] at hv
    cases hv
    rfl

/-- What follows the prefix is no IPv6 address. -/
theorem addressGroups?_of_mapped {rest : List Char} {gs : List Nat}
    (h : addressGroups? (mappedPrefix ++ rest) = some gs) : addressGroups? rest = none := by
  obtain ⟨tail, htail, hle, -⟩ := addressGroups?_mappedPrefix h
  rw [addressGroups?, splitDouble_of_groupsOf htail]
  simp only [htail]
  rw [Option.filter_some, if_neg]
  simp only [decide_eq_true_eq]
  omega

/-! ## Lower case -/

theorem toNat_toLower (c : Char) :
    c.toLower.toNat = if 65 ≤ c.toNat ∧ c.toNat ≤ 90 then c.toNat + 32 else c.toNat := by
  have hupper : (c.val ≥ 'A'.val ∧ c.val ≤ 'Z'.val) ↔ 65 ≤ c.toNat ∧ c.toNat ≤ 90 := by
    rw [ge_iff_le, UInt32.le_iff_toNat_le, UInt32.le_iff_toNat_le]
    exact Iff.rfl
  change (dite (c.val ≥ 'A'.val ∧ c.val ≤ 'Z'.val) _ fun _ => c).toNat = _
  by_cases h : 65 ≤ c.toNat ∧ c.toNat ≤ 90
  · rw [dif_pos (hupper.mpr h), if_pos h]
    change (c.val + ('a'.val - 'A'.val)).toNat = c.val.toNat + 32
    rw [UInt32.toNat_add]
    have hle : c.val.toNat ≤ 90 := h.2
    have hoffset : ('a'.val - 'A'.val).toNat = 32 := by decide
    omega
  · rw [dif_neg (fun hc => h (hupper.mp hc)), if_neg h]

theorem toLower_eq_self {c : Char} (h : ¬ (65 ≤ c.toNat ∧ c.toNat ≤ 90)) : c.toLower = c := by
  apply Char.toNat_inj.mp
  rw [toNat_toLower, if_neg h]

theorem toLower_toLower (c : Char) : c.toLower.toLower = c.toLower := by
  apply toLower_eq_self
  rw [toNat_toLower]
  split
  · omega
  · next h => exact h

/-- A lower-case digit is determined by its value. -/
theorem digitValue_eq_iff {c d : Char} (hc : digitValue c < 16) (hcl : c.toLower = c)
    (hd : digitValue d < 16) (hdl : d.toLower = d) : digitValue c = digitValue d ↔ c = d := by
  constructor
  · intro heq
    have hcn := toNat_toLower c
    have hdn := toNat_toLower d
    rw [hcl] at hcn
    rw [hdl] at hdn
    have hcv := digitValue_cases hc
    have hdv := digitValue_cases hd
    apply Char.toNat_inj.mp
    split at hcn
    · omega
    · split at hdn
      · omega
      · omega
  · rintro rfl
    rfl

theorem toLower_of_mem_lowerCase {text : List Char} {c : Char} (h : c ∈ lowerCase text) :
    c.toLower = c := by
  obtain ⟨d, -, rfl⟩ := List.mem_map.mp h
  exact toLower_toLower d

@[simp] theorem lowerCase_lowerCase (text : List Char) :
    lowerCase (lowerCase text) = lowerCase text := by
  rw [lowerCase, lowerCase, List.map_map]
  exact List.map_congr_left fun c _ => toLower_toLower c

/-- A text whose lower case has no letter is its lower case. -/
theorem lowerCase_eq_self {text : List Char} (h : ∀ c ∈ lowerCase text, c.toNat < 65) :
    lowerCase text = text := by
  refine (List.map_congr_left fun c hc => ?_).trans (List.map_id text)
  have hlt := h c.toLower (List.mem_map_of_mem hc)
  apply toLower_eq_self
  rw [toNat_toLower] at hlt
  split at hlt
  · omega
  · next hupper => exact hupper

theorem lt_of_ipv4Value? {text : List Char} {value : Nat} (h : ipv4Value? text = some value) :
    ∀ c ∈ text, c.toNat < 65 := by
  intro c hc
  rcases mem_of_ipv4Value? h hc with rfl | hdigit
  · decide
  · omega

/-- An IPv4 address has no letters. -/
@[simp] theorem ipv4Value?_lowerCase (text : List Char) :
    ipv4Value? (lowerCase text) = ipv4Value? text := by
  by_cases h : ∃ c ∈ lowerCase text, 65 ≤ c.toNat
  · obtain ⟨c, hc, hle⟩ := h
    have hlower : ipv4Value? (lowerCase text) = none := by
      rw [Option.eq_none_iff_forall_ne_some]
      intro value hvalue
      have hlt := lt_of_ipv4Value? hvalue c hc
      omega
    rw [hlower, eq_comm, Option.eq_none_iff_forall_ne_some]
    intro value hvalue
    obtain ⟨d, hd, rfl⟩ := List.mem_map.mp hc
    have hlt := lt_of_ipv4Value? hvalue d hd
    rw [toNat_toLower] at hle
    split at hle
    · omega
    · omega
  · rw [lowerCase_eq_self fun c hc => Nat.lt_of_not_le fun hle => h ⟨c, hc, hle⟩]

/-- The case of the letters does not matter. -/
@[simp] theorem ipv6Groups?_lowerCase (text : List Char) :
    ipv6Groups? (lowerCase text) = ipv6Groups? text := by
  rw [ipv6Groups?, ipv6Groups?, lowerCase_lowerCase]

@[simp] theorem ofText?_lowerCase (text : List Char) :
    ofText? (lowerCase text) = ofText? text := by
  rw [ofText?, ofText?, ipv4Value?_lowerCase, ipv6Groups?_lowerCase]

/-! ## What a text denotes -/

theorem isIP_v4 {ip : List Char} {value : Nat} (h : ofText? ip = some (.v4 value)) :
    isIP ip = 4 := by
  rw [isIP, h]

theorem isIP_v6 {ip : List Char} {gs : List Nat} (h : ofText? ip = some (.v6 gs)) :
    isIP ip = 6 := by
  rw [isIP, h]

theorem isIP_eq_zero {ip : List Char} : isIP ip = 0 ↔ ofText? ip = none := by
  rw [isIP]
  split
  · next h => simp [h]
  · next h => simp [h]
  · next h => simp [h]

theorem ipv4Value?_of_ofText? {ip : List Char} {value : Nat}
    (h : ofText? ip = some (.v4 value)) : ipv4Value? ip = some value := by
  unfold ofText? at h
  split at h
  · next found hfound =>
      cases h
      exact hfound
  · obtain ⟨groups, -, heq⟩ := Option.map_eq_some_iff.mp h
    cases heq

theorem ipv6Groups?_of_ofText? {ip : List Char} {gs : List Nat} (h : ofText? ip = some (.v6 gs)) :
    ipv6Groups? ip = some gs := by
  unfold ofText? at h
  split at h
  · cases h
  · obtain ⟨groups, hgroups, heq⟩ := Option.map_eq_some_iff.mp h
    cases heq
    exact hgroups

@[simp] theorem isIP_lowerCase (text : List Char) : isIP (lowerCase text) = isIP text := by
  rw [isIP, isIP, ofText?_lowerCase]

/-! ## Zones -/

theorem head_of_dropWhile {text zone : List Char} {c : Char}
    (h : text.dropWhile (fun d => d ≠ '%') = c :: zone) : c = '%' := by
  have hhead := List.head?_dropWhile_not (fun d => d ≠ '%') text
  rw [h] at hhead
  simpa using hhead

/-- The text before the zone and the zone of an IPv6 address. -/
theorem ipv6Groups?_eq_some {text : List Char} {gs : List Nat}
    (h : ipv6Groups? text = some gs) :
    ∃ zone, lowerCase text = withoutZone (lowerCase text) ++ zone ∧
      (∀ c ∈ zone, c = '%' ∨ isZoneChar c) ∧
      addressGroups? (withoutZone (lowerCase text)) = some gs := by
  change (if isZone ((lowerCase text).dropWhile fun c => c ≠ '%') then
    addressGroups? (withoutZone (lowerCase text)) else none) = some gs at h
  split at h
  · next hzone =>
      refine ⟨_, (List.takeWhile_append_dropWhile ..).symm, ?_, h⟩
      cases hdrop : (lowerCase text).dropWhile fun c => c ≠ '%' with
      | nil => exact fun c hc => absurd hc List.not_mem_nil
      | cons d zone =>
          intro c hc
          rw [hdrop, isZone, decide_eq_false (List.cons_ne_nil d zone), Bool.false_or,
            Bool.and_eq_true] at hzone
          rcases List.mem_cons.mp hc with rfl | hin
          · exact Or.inl (head_of_dropWhile hdrop)
          · exact Or.inr (List.all_eq_true.mp hzone.2 c hin)
  · cases h

theorem withoutZone_append {text : List Char} (h : '%' ∉ text) (rest : List Char) :
    withoutZone (text ++ rest) = text ++ withoutZone rest := by
  rw [withoutZone, List.takeWhile_append_of_pos]
  · rfl
  · intro c hc
    exact decide_eq_true (ne_of_mem_of_not_mem hc h)

theorem withoutZone_of_ipv4Value? {text : List Char} {value : Nat}
    (h : ipv4Value? text = some value) : withoutZone text = text := by
  have happend := withoutZone_append (not_mem_of_ipv4Value? h (Or.inr rfl)) []
  rw [List.append_nil] at happend
  exact happend.trans (List.append_nil text)

/-- An IPv6 address begins with a colon and is zero there, or with a group. -/
theorem head_of_ipv6Groups? {text : List Char} {gs : List Nat} (h : ipv6Groups? text = some gs) :
    (∃ rest tail, lowerCase text = ':' :: rest ∧ gs = 0 :: tail) ∨
      ∃ piece rest g tail, lowerCase text = piece ++ ':' :: rest ∧ ':' ∉ piece ∧
        hexGroup? piece = some g ∧ gs = g :: tail := by
  obtain ⟨zone, htext, -, hread⟩ := ipv6Groups?_eq_some h
  by_cases hcolon : (withoutZone (lowerCase text)).head? = some ':'
  · obtain ⟨rest, hrest⟩ := List.head?_eq_some_iff.mp hcolon
    rw [hrest] at htext hread
    obtain ⟨tail, htail⟩ := head_of_addressGroups?_colon hread
    exact Or.inl ⟨rest ++ zone, tail, htext, htail⟩
  · obtain ⟨piece, rest, g, tail, hpiece, hnot, hg, heq⟩ := head_of_addressGroups? hread hcolon
    refine Or.inr ⟨piece, rest ++ zone, g, tail, ?_, hnot, hg, heq⟩
    rw [htext, hpiece, List.append_assoc, List.cons_append]

/-- After the prefix of an IPv4-mapped address, an IPv4 address or no address. -/
theorem ofText?_of_mapped {text rest : List Char} {gs : List Nat}
    (h : ipv6Groups? text = some gs) (htext : lowerCase text = mappedPrefix ++ rest) :
    (∃ value, ipv4Value? rest = some value ∧ gs = mappedGroups value) ∨
      ipv4Value? rest = none ∧ ofText? rest = none := by
  obtain ⟨-, -, -, hread⟩ := ipv6Groups?_eq_some h
  rw [htext, withoutZone_append (by decide)] at hread
  cases hvalue : ipv4Value? rest with
  | some value =>
      rw [withoutZone_of_ipv4Value? hvalue] at hread
      exact Or.inl ⟨value, rfl, addressGroups?_mapped hread hvalue⟩
  | none =>
      have hlower : lowerCase rest = rest := by
        have hidem := lowerCase_lowerCase text
        rw [htext, lowerCase, List.map_append] at hidem
        exact List.append_cancel_left hidem
      have hrest : ipv6Groups? rest = none := by
        rw [Option.eq_none_iff_forall_ne_some]
        intro groups hgroups
        obtain ⟨-, -, -, hagain⟩ := ipv6Groups?_eq_some hgroups
        rw [hlower, addressGroups?_of_mapped hread] at hagain
        cases hagain
      exact Or.inr ⟨rfl, by rw [ofText?, hvalue, hrest, Option.map_none]⟩

/-! ## Characters -/

/-- An ASCII character that is no bracket. -/
def IsPlain (c : Char) : Prop := c.toNat < 128 ∧ c ≠ '[' ∧ c ≠ ']'

theorem IsPlain.of_toNat {c : Char} (h : c.toNat < 91 ∨ 97 ≤ c.toNat ∧ c.toNat < 128) :
    IsPlain c := by
  refine ⟨by omega, ?_, ?_⟩
  · rintro rfl
    exact absurd h (by decide)
  · rintro rfl
    exact absurd h (by decide)

theorem IsPlain.of_toLower {c : Char} (h : IsPlain c.toLower) : IsPlain c := by
  by_cases hupper : 65 ≤ c.toNat ∧ c.toNat ≤ 90
  · exact .of_toNat (Or.inl (by omega))
  · rwa [toLower_eq_self hupper] at h

theorem IsPlain.of_piece {piece : List Char}
    (h : (∃ g, hexGroup? piece = some g) ∨ ∃ v, ipv4Value? piece = some v) :
    ∀ c ∈ piece, IsPlain c := by
  intro c hc
  apply IsPlain.of_toNat
  rcases h with ⟨g, hg⟩ | ⟨v, hv⟩
  · have hdigit := digitValue_of_natural? (digits_of_hexGroup? hg).2 hc
    have hrange := digitValue_cases hdigit
    omega
  · have hlt := lt_of_ipv4Value? hv c hc
    omega

theorem IsPlain.of_groupsOf {atEnd : Bool} {text : List Char} {gs : List Nat}
    (h : groupsOf atEnd (text.splitOn ':') = some gs) : ∀ c ∈ text, IsPlain c := by
  intro c hc
  rcases mem_splitOn ':' hc with rfl | ⟨piece, hpiece, hin⟩
  · exact .of_toNat (Or.inl (by decide))
  · exact .of_piece (piece_of_groupsOf h hpiece) c hin

theorem IsPlain.of_sideGroups {atEnd : Bool} {text : List Char} {gs : List Nat}
    (h : sideGroups atEnd text = some gs) : ∀ c ∈ text, IsPlain c := by
  unfold sideGroups at h
  split at h
  · next hnil =>
      subst hnil
      exact fun c hc => absurd hc List.not_mem_nil
  · exact .of_groupsOf h

theorem IsPlain.of_addressGroups? {text : List Char} {gs : List Nat}
    (h : addressGroups? text = some gs) : ∀ c ∈ text, IsPlain c := by
  rcases addressGroups?_eq_some h with ⟨-, hread, -⟩ | ⟨left, right, l, r, hdouble, hl, hr, -⟩
  · exact .of_groupsOf hread
  · rw [eq_append_of_splitDouble hdouble]
    have hcolon : IsPlain ':' := .of_toNat (Or.inl (by decide))
    intro c hc
    rcases List.mem_append.mp hc with hleft | hright
    · exact .of_sideGroups hl c hleft
    · rw [List.mem_cons, List.mem_cons] at hright
      rcases hright with rfl | rfl | hright
      · exact hcolon
      · exact hcolon
      · exact .of_sideGroups hr c hright

theorem IsPlain.of_zone {c : Char} (h : c = '%' ∨ isZoneChar c) : IsPlain c := by
  apply IsPlain.of_toNat
  rcases h with rfl | h
  · decide
  · rw [isZoneChar, Bool.or_eq_true, Bool.or_eq_true, Bool.or_eq_true, decide_eq_true_eq,
      decide_eq_true_eq, decide_eq_true_eq] at h
    rcases h with ((halphanum | rfl) | rfl) | rfl
    · have hrange := toNat_of_isAlphanum halphanum
      omega
    · decide
    · decide
    · decide

/-- The characters of an address. -/
theorem IsPlain.of_ofText? {text : List Char} {address : IpAddress}
    (h : ofText? text = some address) : ∀ c ∈ text, IsPlain c := by
  unfold ofText? at h
  intro c hc
  split at h
  · next value hvalue => exact .of_toNat (Or.inl (by have := lt_of_ipv4Value? hvalue c hc; omega))
  · obtain ⟨gs, hgs, -⟩ := Option.map_eq_some_iff.mp h
    obtain ⟨zone, htext, hzone, hread⟩ := ipv6Groups?_eq_some hgs
    have hlower : c.toLower ∈ lowerCase text := List.mem_map_of_mem hc
    rw [htext] at hlower
    apply IsPlain.of_toLower
    rcases List.mem_append.mp hlower with haddress | hin
    · exact .of_addressGroups? hread _ haddress
    · exact .of_zone (hzone _ hin)

/-! ## Blocks -/

theorem shiftRight_and_mask {w : Nat} (x : BitVec w) (k : Nat) :
    (x &&& (BitVec.allOnes w <<< k)) >>> k = x >>> k := by
  apply BitVec.eq_of_getLsbD_eq
  intro i hi
  rw [BitVec.getLsbD_ushiftRight, BitVec.getLsbD_ushiftRight, BitVec.getLsbD_and,
    BitVec.getLsbD_shiftLeft, BitVec.getLsbD_allOnes, Nat.add_sub_cancel_left]
  by_cases hk : k + i < w
  · simp [hk, hi]
  · rw [BitVec.getLsbD_of_ge x (k + i) (Nat.le_of_not_lt hk), Bool.false_and]

theorem shiftLeft_shiftRight {w : Nat} (x : BitVec w) (k : Nat) :
    (x >>> k) <<< k = x &&& (BitVec.allOnes w <<< k) := by
  apply BitVec.eq_of_getLsbD_eq
  intro i hi
  rw [BitVec.getLsbD_and, BitVec.getLsbD_shiftLeft, BitVec.getLsbD_shiftLeft,
    BitVec.getLsbD_ushiftRight, BitVec.getLsbD_allOnes]
  by_cases hk : i < k
  · simp [hk]
  · have hlt : i - k < w := by omega
    simp [hi, hk, hlt, Nat.add_sub_cancel' (Nat.le_of_not_lt hk)]

/-- Two numbers agree under a mask if they are in one block of addresses. -/
theorem and_mask_eq_iff {w : Nat} (x y : BitVec w) (k : Nat) :
    x &&& (BitVec.allOnes w <<< k) = y &&& (BitVec.allOnes w <<< k) ↔
      x.toNat / 2 ^ k = y.toNat / 2 ^ k := by
  have hshift : x >>> k = y >>> k ↔ x.toNat / 2 ^ k = y.toNat / 2 ^ k := by
    rw [BitVec.toNat_eq, BitVec.toNat_ushiftRight, BitVec.toNat_ushiftRight,
      Nat.shiftRight_eq_div_pow, Nat.shiftRight_eq_div_pow]
  rw [← hshift]
  constructor
  · intro h
    rw [← shiftRight_and_mask x k, h, shiftRight_and_mask]
  · intro h
    rw [← shiftLeft_shiftRight, h, shiftLeft_shiftRight]

end IpAddress

end Lib
