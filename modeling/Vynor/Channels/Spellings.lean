import Vynor.Channels.EndpointPolicy

/-!
# Spellings of private addresses

An address has many texts, and the policy reads the text.  `IsPrivate` says which
addresses are private, `ofText?` which address a text denotes, and `WellSpelled`
which texts the check understands.
-/

namespace Vynor.Channels

open Lib Lib.IpAddress

/-! ## Private addresses -/

/-- An IPv4 address is in a block of addresses. -/
def InRange (value : Nat) (range : List Char × Nat) : Prop :=
  ∃ base, ipv4Value? range.1 = some base ∧
    value / 2 ^ (32 - range.2) = base / 2 ^ (32 - range.2)

/-- An IPv4 address is in one of the listed ranges. -/
def IsPrivateV4 (value : Nat) : Prop := ∃ range ∈ PRIVATE_V4_RANGES, InRange value range

/-- The addresses that a connection must not name. -/
inductive IsPrivate : IpAddress → Prop
  | v4 {value : Nat} : IsPrivateV4 value → IsPrivate (.v4 value)
  | loopback : IsPrivate (.v6 [0, 0, 0, 0, 0, 0, 0, 1])
  | unspecified : IsPrivate (.v6 [0, 0, 0, 0, 0, 0, 0, 0])
  /-- `fc00::/7`. -/
  | uniqueLocal {g : Nat} {gs : List Nat} : g / 512 = 0xfc00 / 512 → IsPrivate (.v6 (g :: gs))
  /-- `fe80::/10`. -/
  | linkLocal {g : Nat} {gs : List Nat} : g / 64 = 0xfe80 / 64 → IsPrivate (.v6 (g :: gs))
  /-- `::ffff:0:0/96`. -/
  | mapped {value : Nat} : IsPrivateV4 value → IsPrivate (.v6 (mappedGroups value))

/-- A text denotes a private address. -/
def DenotesPrivate (text : List Char) : Prop :=
  ∃ address, ofText? text = some address ∧ IsPrivate address

/-- The hosts of a connection, as the policy is given them. -/
def ChannelConnectionInput.hosts (R : Runtime) : ChannelConnectionInput → List (List Char)
  | .emailSmtpImap imap smtp => [imap.host, smtp.host]
  | .customWebhook outboundUrl => ((R.parseUrl outboundUrl).map Prod.snd).toList
  | _ => []

def bracketed (text : List Char) : List Char := '[' :: text ++ [']']

/-- The text of an address is recognised: it is taken for private where the
address is, and then no connection may name it. -/
structure Recognised (text : List Char) : Prop where
  decided : isPrivateAddress text = true ↔ DenotesPrivate text
  refused : DenotesPrivate text → ∀ (R : Runtime) (connection : ChannelConnectionInput),
    text ∈ connection.hosts R ∨ bracketed text ∈ connection.hosts R →
      ∃ refusal, assertConnectionEndpointsAllowed R connection true = .error refusal

/-- The spellings that the check knows. -/
structure WellSpelled (text : List Char) : Prop where
  /-- A first group that looks local has all its digits. -/
  full : isUniqueLocalText (lowerCase text) ∨ isLinkLocalText (lowerCase text) →
    4 ≤ ((lowerCase text).takeWhile fun c => c ≠ ':').length
  /-- The loopback and the unspecified address are written in the shortest way. -/
  shortest : ofText? text = some (.v6 [0, 0, 0, 0, 0, 0, 0, 1]) ∨
      ofText? text = some (.v6 [0, 0, 0, 0, 0, 0, 0, 0]) →
    lowerCase text = "::1".toList ∨ lowerCase text = "::".toList
  /-- A private IPv4 address is mapped in the dotted form. -/
  dotted : ∀ value, IsPrivateV4 value → ofText? text = some (.v6 (mappedGroups value)) →
    ∃ quad, lowerCase text = mappedPrefix ++ quad ∧ (ipv4Value? quad).isSome

/-! ## IPv4 -/

/-- One more octet. -/
theorem toNat_shiftLeft_add {acc : BitVec 32} {n : Nat} (hacc : acc.toNat < 2 ^ 24)
    (hn : n < 256) : ((acc <<< 8) + BitVec.ofNat 32 n).toNat = acc.toNat * 256 + n := by
  rw [BitVec.toNat_add, BitVec.toNat_shiftLeft, BitVec.toNat_ofNat, Nat.shiftLeft_eq]
  omega

/-- The number of an address is the value of its octets. -/
theorem toNat_ipv4ToInt {ip : List Char} {value : Nat} (h : ipv4Value? ip = some value) :
    (ipv4ToInt ip).toNat = value := by
  obtain ⟨p, q, r, s, a, b, c, d, hsplit, ha, hb, hc, hd, rfl⟩ := octets_of_ipv4Value? h
  obtain ⟨hreadA, hltA⟩ := natural?_of_octet? ha
  obtain ⟨hreadB, hltB⟩ := natural?_of_octet? hb
  obtain ⟨hreadC, hltC⟩ := natural?_of_octet? hc
  obtain ⟨hreadD, hltD⟩ := natural?_of_octet? hd
  rw [ipv4ToInt, hsplit]
  simp only [List.foldl_cons, List.foldl_nil, hreadA, hreadB, hreadC, hreadD, Option.getD_some]
  have hzero : (0 : BitVec 32).toNat = 0 := rfl
  have hfirst := @toNat_shiftLeft_add 0 a (by rw [hzero]; omega) hltA
  have hsecond := toNat_shiftLeft_add (by rw [hfirst, hzero]; omega) hltB
  have hthird := toNat_shiftLeft_add (by rw [hsecond, hfirst, hzero]; omega) hltC
  rw [toNat_shiftLeft_add (by rw [hthird, hsecond, hfirst, hzero]; omega) hltD, hthird, hsecond,
    hfirst, hzero, Nat.zero_mul, Nat.zero_add]

/-- Every listed range has the text of an address, and a length. -/
theorem range_wellFormed : ∀ range ∈ PRIVATE_V4_RANGES,
    0 < range.2 ∧ (ipv4Value? range.1).isSome := by
  decide

/-- The masks compare the blocks of two addresses. -/
theorem and_maskOf_iff {ip : List Char} {value : Nat} {range : List Char × Nat}
    (h : ipv4Value? ip = some value) (hrange : range ∈ PRIVATE_V4_RANGES) :
    ipv4ToInt ip &&& maskOf range.2 = ipv4ToInt range.1 &&& maskOf range.2 ↔
      InRange value range := by
  obtain ⟨hpos, hsome⟩ := range_wellFormed range hrange
  obtain ⟨base, hbase⟩ := Option.isSome_iff_exists.mp hsome
  rw [maskOf, if_neg (Nat.ne_of_gt hpos), and_mask_eq_iff, toNat_ipv4ToInt h,
    toNat_ipv4ToInt hbase]
  constructor
  · exact fun heq => ⟨base, hbase, heq⟩
  · rintro ⟨found, hfound, heq⟩
    rw [hbase] at hfound
    cases hfound
    exact heq

/-- An IPv4 address is private where it is in one of the ranges. -/
theorem isPrivateAddress_v4 {ip : List Char} {value : Nat} (h : ipv4Value? ip = some value) :
    isPrivateAddress ip = true ↔ IsPrivateV4 value := by
  have hread : ofText? ip = some (.v4 value) := by rw [ofText?, h]
  rw [isPrivateAddress, if_pos (isIP_v4 hread), List.any_eq_true]
  constructor
  · rintro ⟨range, hrange, heq⟩
    exact ⟨range, hrange, (and_maskOf_iff h hrange).mp (of_decide_eq_true heq)⟩
  · rintro ⟨range, hrange, hin⟩
    exact ⟨range, hrange, decide_eq_true ((and_maskOf_iff h hrange).mpr hin)⟩

/-! ## The first group -/

/-- The text begins as a unique local or a link-local address does. -/
def LooksLocal (text : List Char) : Prop := isUniqueLocalText text ∨ isLinkLocalText text

/-- `fc00::/7` and `fe80::/10`. -/
def IsLocal (g : Nat) : Prop := g / 512 = 0xfc00 / 512 ∨ g / 64 = 0xfe80 / 64

theorem looksLocal_cons {a b c : Char} {rest : List Char} :
    LooksLocal (a :: b :: c :: rest) ↔
      a = 'f' ∧ ((b = 'c' ∨ b = 'd') ∨ b = 'e' ∧ (c = '8' ∨ c = '9' ∨ c = 'a' ∨ c = 'b')) := by
  have hunique : isUniqueLocalText (a :: b :: c :: rest) = true ↔
      a = 'f' ∧ (b = 'c' ∨ b = 'd') := by
    by_cases ha : a = 'f'
    · subst ha
      simp [isUniqueLocalText]
    · simp [isUniqueLocalText, ha]
  have hlink : isLinkLocalText (a :: b :: c :: rest) = true ↔
      a = 'f' ∧ b = 'e' ∧ (c = '8' ∨ c = '9' ∨ c = 'a' ∨ c = 'b') := by
    by_cases ha : a = 'f'
    · subst ha
      by_cases hb : b = 'e'
      · subst hb
        simp [isLinkLocalText, or_assoc]
      · simp [isLinkLocalText, hb]
    · simp [isLinkLocalText, ha]
  rw [LooksLocal, hunique, hlink, ← and_or_left]

/-- The local addresses begin with these four digits. -/
theorem isLocal_of_four {a b c d : Char} {g : Nat} (hread : natural? 16 [a, b, c, d] = some g)
    (hlower : ∀ x ∈ [a, b, c, d], x.toLower = x) (rest : List Char) :
    IsLocal g ↔ LooksLocal (a :: b :: c :: rest) := by
  have hdigit : ∀ x ∈ [a, b, c, d], digitValue x < 16 := fun x hx => digitValue_of_natural? hread hx
  have hletter : ∀ x ∈ [a, b, c, d], ∀ y k, digitValue y = k ∧ k < 16 ∧ y.toLower = y →
      (x = y ↔ digitValue x = k) := by
    rintro x hx y k ⟨rfl, hlt, hy⟩
    exact (digitValue_eq_iff (hdigit x hx) (hlower x hx) hlt hy).symm
  have hvalue : g =
      ((digitValue a * 16 + digitValue b) * 16 + digitValue c) * 16 + digitValue d := by
    rw [natural?_eq_foldl hread]
    simp only [List.foldl_cons, List.foldl_nil]
    omega
  have ha := hdigit a (by simp)
  have hb := hdigit b (by simp)
  have hc := hdigit c (by simp)
  have hd := hdigit d (by simp)
  rw [looksLocal_cons, IsLocal, hletter a (by simp) 'f' 15 (by decide),
    hletter b (by simp) 'c' 12 (by decide), hletter b (by simp) 'd' 13 (by decide),
    hletter b (by simp) 'e' 14 (by decide), hletter c (by simp) '8' 8 (by decide),
    hletter c (by simp) '9' 9 (by decide), hletter c (by simp) 'a' 10 (by decide),
    hletter c (by simp) 'b' 11 (by decide)]
  omega

/-- A group is local if it looks so and has all its digits. -/
theorem isLocal_iff {piece : List Char} {g : Nat} (hg : hexGroup? piece = some g)
    (hlower : ∀ c ∈ piece, c.toLower = c) (rest : List Char) :
    IsLocal g ↔ LooksLocal (piece ++ ':' :: rest) ∧ 4 ≤ piece.length := by
  obtain ⟨hlength, hread⟩ := digits_of_hexGroup? hg
  by_cases hfour : 4 ≤ piece.length
  · obtain ⟨a, b, c, d, rfl⟩ : ∃ a b c d, piece = [a, b, c, d] :=
      List.length_eq_four.mp (Nat.le_antisymm hlength hfour)
    rw [isLocal_of_four hread hlower (d :: ':' :: rest)]
    exact ⟨fun h => ⟨h, hfour⟩, fun h => h.1⟩
  · have hlt : g < 16 ^ 3 := Nat.lt_of_lt_of_le (natural?_lt hread)
      (Nat.pow_le_pow_right (by decide) (by omega))
    constructor
    · rintro (hunique | hlink)
      · omega
      · omega
    · exact fun h => absurd h.2 hfour

/-- A text that looks local begins with a letter. -/
theorem head_of_looksLocal {text : List Char} (h : LooksLocal text) : text.head? = some 'f' := by
  rcases h with hunique | hlink
  · unfold isUniqueLocalText at hunique
    split at hunique
    · rfl
    · cases hunique
  · unfold isLinkLocalText at hlink
    split at hlink
    · rfl
    · cases hlink

/-- A group that begins with a letter is not zero. -/
theorem ne_zero_of_head {piece : List Char} {g : Nat} (hg : hexGroup? piece = some g)
    (hhead : piece.head? = some 'f') : g ≠ 0 := by
  obtain ⟨rest, rfl⟩ := List.head?_eq_some_iff.mp hhead
  have hle := le_foldl_digits (show 0 < 16 by decide) rest (16 * 0 + digitValue 'f')
  have hletter : digitValue 'f' = 15 := by decide
  rw [natural?_eq_foldl (digits_of_hexGroup? hg).2, List.foldl_cons]
  omega

/-! ## IPv6 -/

/-- The private addresses that begin with a zero. -/
def IsReserved (gs : List Nat) : Prop :=
  gs = [0, 0, 0, 0, 0, 0, 0, 1] ∨ gs = [0, 0, 0, 0, 0, 0, 0, 0] ∨
    ∃ value, IsPrivateV4 value ∧ gs = mappedGroups value

theorem isPrivate_v4_iff {value : Nat} : IsPrivate (.v4 value) ↔ IsPrivateV4 value := by
  constructor
  · rintro ⟨h⟩
    exact h
  · exact IsPrivate.v4

theorem isPrivate_v6_iff {g : Nat} {gs : List Nat} :
    IsPrivate (.v6 (g :: gs)) ↔ IsLocal g ∨ IsReserved (g :: gs) := by
  constructor
  · intro h
    generalize haddress : IpAddress.v6 (g :: gs) = address at h
    cases h with
    | v4 _ => cases haddress
    | loopback =>
        cases haddress
        exact Or.inr (Or.inl rfl)
    | unspecified =>
        cases haddress
        exact Or.inr (Or.inr (Or.inl rfl))
    | uniqueLocal h =>
        cases haddress
        exact Or.inl (Or.inl h)
    | linkLocal h =>
        cases haddress
        exact Or.inl (Or.inr h)
    | mapped h =>
        cases haddress
        exact Or.inr (Or.inr (Or.inr ⟨_, h, rfl⟩))
  · rintro ((h | h) | h | h | ⟨value, h, heq⟩)
    · exact .uniqueLocal h
    · exact .linkLocal h
    · rw [h]
      exact .loopback
    · rw [h]
      exact .unspecified
    · rw [heq]
      exact .mapped h

theorem head_of_isReserved {g : Nat} {gs : List Nat} (h : IsReserved (g :: gs)) : g = 0 := by
  rcases h with h | h | ⟨value, -, h⟩
  · exact (List.cons.inj h).1
  · exact (List.cons.inj h).1
  · exact (List.cons.inj h).1

/-- The first group of an address, by its text. -/
theorem firstGroup_of_ipv6Groups? {ip : List Char} {gs : List Nat}
    (h : ipv6Groups? ip = some gs) :
    ∃ g tail, gs = g :: tail ∧
      (IsLocal g ↔ LooksLocal (lowerCase ip) ∧
        4 ≤ ((lowerCase ip).takeWhile fun c => c ≠ ':').length) ∧
      (LooksLocal (lowerCase ip) → g ≠ 0) := by
  rcases head_of_ipv6Groups? h with
    ⟨rest, tail, htext, rfl⟩ | ⟨piece, rest, g, tail, htext, hcolon, hg, rfl⟩
  · have hnot : ¬ LooksLocal (lowerCase ip) := by
      intro hlooks
      have hhead := head_of_looksLocal hlooks
      rw [htext] at hhead
      cases hhead
    refine ⟨0, tail, rfl, ?_, fun hlooks => absurd hlooks hnot⟩
    constructor
    · rintro (hlocal | hlocal)
      · omega
      · omega
    · exact fun hlooks => absurd hlooks.1 hnot
  · have hlower : ∀ c ∈ piece, c.toLower = c := fun c hc =>
      toLower_of_mem_lowerCase (by rw [htext]; exact List.mem_append_left _ hc)
    have htake : ((lowerCase ip).takeWhile fun c => c ≠ ':') = piece := by
      rw [htext, List.takeWhile_append_of_pos]
      · simp
      · exact fun c hc => decide_eq_true (ne_of_mem_of_not_mem hc hcolon)
    refine ⟨g, tail, rfl, ?_, ?_⟩
    · rw [htake, htext]
      exact isLocal_iff hg hlower rest
    · intro hlooks
      have hhead := head_of_looksLocal hlooks
      rw [htext, List.head?_append_of_ne_nil _ (ne_nil_of_natural? (digits_of_hexGroup? hg).2)]
        at hhead
      exact ne_zero_of_head hg hhead

theorem not_prefix_of_looksLocal {text : List Char} (h : LooksLocal text) :
    ¬ mappedPrefix.isPrefixOf text := by
  intro hprefix
  obtain ⟨rest, rfl⟩ := List.isPrefixOf_iff_prefix.mp hprefix
  cases head_of_looksLocal h

/-- The texts that are taken for private IPv6 addresses. -/
theorem isPrivateAddress_v6 {ip : List Char} {gs : List Nat} (h : ofText? ip = some (.v6 gs)) :
    isPrivateAddress ip = true ↔
      (lowerCase ip = "::1".toList ∨ lowerCase ip = "::".toList) ∨
        (∃ rest, lowerCase ip = mappedPrefix ++ rest ∧ isPrivateAddress rest = true) ∨
        LooksLocal (lowerCase ip) := by
  rw [isPrivateAddress, if_neg (by rw [isIP_v6 h]; decide), if_pos (isIP_v6 h)]
  simp only [Bool.or_eq_true, decide_eq_true_eq]
  split
  · next hshort => exact ⟨fun _ => Or.inl hshort, fun _ => rfl⟩
  · next hshort =>
      split
      · next hprefix =>
          obtain ⟨rest, hrest⟩ := List.isPrefixOf_iff_prefix.mp hprefix
          have hdrop : (lowerCase ip).drop 7 = rest := by
            rw [← hrest]
            rfl
          rw [hdrop]
          constructor
          · exact fun hrec => Or.inr (Or.inl ⟨rest, hrest.symm, hrec⟩)
          · rintro (hshort' | ⟨other, hother, hrec⟩ | hlooks)
            · exact absurd hshort' hshort
            · rw [← hrest] at hother
              rwa [List.append_cancel_left hother]
            · exact absurd hprefix (not_prefix_of_looksLocal hlooks)
      · next hprefix =>
          rw [Bool.or_eq_true]
          constructor
          · exact fun hlooks => Or.inr (Or.inr hlooks)
          · rintro (hshort' | ⟨rest, hrest, -⟩ | hlooks)
            · exact absurd hshort' hshort
            · exact absurd (List.isPrefixOf_iff_prefix.mpr ⟨rest, hrest.symm⟩) hprefix
            · exact hlooks

/-- What is no address is not private. -/
theorem isPrivateAddress_of_none {ip : List Char} (h : ofText? ip = none) :
    isPrivateAddress ip = false := by
  have hzero := isIP_eq_zero.mpr h
  rw [isPrivateAddress, if_neg (by rw [hzero]; decide), if_neg (by rw [hzero]; decide)]

/-- After the prefix, only the dotted form of a private address is recognised. -/
theorem isPrivateAddress_mapped {ip rest : List Char} {gs : List Nat}
    (h : ipv6Groups? ip = some gs) (hrest : lowerCase ip = mappedPrefix ++ rest) :
    isPrivateAddress rest = true ↔
      ∃ value, ipv4Value? rest = some value ∧ IsPrivateV4 value ∧ gs = mappedGroups value := by
  rcases ofText?_of_mapped h hrest with ⟨value, hvalue, hgs⟩ | ⟨hvalue, hnone⟩
  · rw [isPrivateAddress_v4 hvalue]
    constructor
    · exact fun hprivate => ⟨value, hvalue, hprivate, hgs⟩
    · rintro ⟨other, hother, hprivate, -⟩
      rw [hvalue] at hother
      cases hother
      exact hprivate
  · rw [isPrivateAddress_of_none hnone, hvalue]
    constructor
    · exact fun hfalse => by cases hfalse
    · rintro ⟨value, hsome, -⟩
      cases hsome

/-- The shortest texts of the loopback and the unspecified address. -/
theorem groups_of_shortest {ip : List Char} {gs : List Nat} (h : ipv6Groups? ip = some gs)
    (hshort : lowerCase ip = "::1".toList ∨ lowerCase ip = "::".toList) :
    gs = [0, 0, 0, 0, 0, 0, 0, 1] ∨ gs = [0, 0, 0, 0, 0, 0, 0, 0] := by
  rw [← ipv6Groups?_lowerCase] at h
  rcases hshort with hshort | hshort
  · have hread : ipv6Groups? "::1".toList = some [0, 0, 0, 0, 0, 0, 0, 1] := by decide
    rw [hshort, hread] at h
    cases h
    exact Or.inl rfl
  · have hread : ipv6Groups? "::".toList = some [0, 0, 0, 0, 0, 0, 0, 0] := by decide
    rw [hshort, hread] at h
    cases h
    exact Or.inr rfl

/-! ## Which spellings are recognised -/

theorem denotesPrivate_iff {text : List Char} {address : IpAddress}
    (h : ofText? text = some address) : DenotesPrivate text ↔ IsPrivate address := by
  constructor
  · rintro ⟨found, hfound, hprivate⟩
    rw [h] at hfound
    cases hfound
    exact hprivate
  · exact fun hprivate => ⟨address, h, hprivate⟩

/-- An IPv4 address has one spelling. -/
theorem wellSpelled_v4 {text : List Char} {value : Nat} (h : ofText? text = some (.v4 value)) :
    WellSpelled text where
  full hlooks := by
    have hvalue := ipv4Value?_of_ofText? h
    rw [← ipv4Value?_lowerCase] at hvalue
    obtain ⟨rest, hrest⟩ := List.head?_eq_some_iff.mp (head_of_looksLocal hlooks)
    have hlt := lt_of_ipv4Value? hvalue 'f' (by rw [hrest]; exact List.mem_cons_self)
    exact absurd hlt (by decide)
  shortest hread := by
    rw [h] at hread
    rcases hread with hread | hread
    · cases hread
    · cases hread
  dotted value _ hread := by
    rw [h] at hread
    cases hread

/-- No other reserved address is IPv4-mapped. -/
theorem mappedGroups_ne {value : Nat} :
    mappedGroups value ≠ [0, 0, 0, 0, 0, 0, 0, 1] ∧
      mappedGroups value ≠ [0, 0, 0, 0, 0, 0, 0, 0] := by
  constructor
  · intro h
    cases h
  · intro h
    cases h

section Version6

variable {text : List Char} {gs : List Nat}

/-- A reserved address that is taken for private has a spelling that is known. -/
theorem spelling_of_isReserved (h : ofText? text = some (.v6 gs))
    (hprivate : isPrivateAddress text = true) (hreserved : IsReserved gs) :
    (lowerCase text = "::1".toList ∨ lowerCase text = "::".toList) ∨
      ∃ quad value, lowerCase text = mappedPrefix ++ quad ∧ ipv4Value? quad = some value ∧
        gs = mappedGroups value := by
  have hgroups := ipv6Groups?_of_ofText? h
  obtain ⟨g, tail, hgs, -, hlooks⟩ := firstGroup_of_ipv6Groups? hgroups
  rcases (isPrivateAddress_v6 h).mp hprivate with hshort | ⟨rest, hrest, hrec⟩ | hlocal
  · exact Or.inl hshort
  · obtain ⟨value, hvalue, -, heq⟩ := (isPrivateAddress_mapped hgroups hrest).mp hrec
    exact Or.inr ⟨rest, value, hrest, hvalue, heq⟩
  · rw [hgs] at hreserved
    exact absurd (head_of_isReserved hreserved) (hlooks hlocal)

/-- A text that is read as the address says is well spelled. -/
theorem wellSpelled_of_decided (h : ofText? text = some (.v6 gs))
    (hdecided : isPrivateAddress text = true ↔ DenotesPrivate text) : WellSpelled text := by
  have hgroups := ipv6Groups?_of_ofText? h
  obtain ⟨g, tail, rfl, hlocal, hlooks⟩ := firstGroup_of_ipv6Groups? hgroups
  rw [denotesPrivate_iff h, isPrivate_v6_iff] at hdecided
  have hspelling : IsReserved (g :: tail) → _ := fun hreserved =>
    spelling_of_isReserved h (hdecided.mpr (Or.inr hreserved)) hreserved
  refine ⟨?_, ?_, ?_⟩
  · intro hlook
    rcases hdecided.mp ((isPrivateAddress_v6 h).mpr (Or.inr (Or.inr hlook))) with hg | hreserved
    · exact (hlocal.mp hg).2
    · exact absurd (head_of_isReserved hreserved) (hlooks hlook)
  · intro hread
    rw [h] at hread
    have hshort : g :: tail = [0, 0, 0, 0, 0, 0, 0, 1] ∨ g :: tail = [0, 0, 0, 0, 0, 0, 0, 0] :=
      hread.imp (fun heq => by cases heq; rfl) (fun heq => by cases heq; rfl)
    rcases hspelling (or_assoc.mp (Or.inl hshort)) with hknown | ⟨quad, value, -, -, heq⟩
    · exact hknown
    · rw [heq] at hshort
      exact absurd hshort (not_or.mpr mappedGroups_ne)
  · intro value hvalue hread
    rw [h] at hread
    have heq : g :: tail = mappedGroups value := by
      injection Option.some.inj hread
    rcases hspelling (Or.inr (Or.inr ⟨value, hvalue, heq⟩)) with hshort | ⟨quad, v, hquad, hv, -⟩
    · have hgs := groups_of_shortest hgroups hshort
      rw [heq] at hgs
      exact absurd hgs (not_or.mpr mappedGroups_ne)
    · exact ⟨quad, hquad, Option.isSome_iff_exists.mpr ⟨v, hv⟩⟩

/-- A well-spelled text is read as the address says. -/
theorem decided_of_wellSpelled (h : ofText? text = some (.v6 gs)) (hspelled : WellSpelled text) :
    isPrivateAddress text = true ↔ DenotesPrivate text := by
  have hgroups := ipv6Groups?_of_ofText? h
  obtain ⟨g, tail, rfl, hlocal, -⟩ := firstGroup_of_ipv6Groups? hgroups
  rw [denotesPrivate_iff h, isPrivate_v6_iff, isPrivateAddress_v6 h]
  constructor
  · rintro (hshort | ⟨rest, hrest, hrec⟩ | hlook)
    · exact Or.inr (or_assoc.mp (Or.inl (groups_of_shortest hgroups hshort)))
    · obtain ⟨value, -, hvalue, heq⟩ := (isPrivateAddress_mapped hgroups hrest).mp hrec
      exact Or.inr (Or.inr (Or.inr ⟨value, hvalue, heq⟩))
    · exact Or.inl (hlocal.mpr ⟨hlook, hspelled.full hlook⟩)
  · rintro (hg | heq | heq | ⟨value, hvalue, heq⟩)
    · exact Or.inr (Or.inr (hlocal.mp hg).1)
    · exact Or.inl (hspelled.shortest (Or.inl (heq ▸ h)))
    · exact Or.inl (hspelled.shortest (Or.inr (heq ▸ h)))
    · rw [heq] at h hgroups
      obtain ⟨quad, hquad, hsome⟩ := hspelled.dotted value hvalue h
      refine Or.inr (Or.inl ⟨quad, hquad, ?_⟩)
      rw [isPrivateAddress_mapped hgroups hquad]
      obtain ⟨v, hv⟩ := Option.isSome_iff_exists.mp hsome
      rcases ofText?_of_mapped hgroups hquad with ⟨w, hw, hgs⟩ | ⟨hnone, -⟩
      · exact ⟨w, hw, mappedGroups_inj hgs ▸ hvalue, hgs⟩
      · rw [hnone] at hv
        cases hv

end Version6

/-- The texts that are read as the address says are the well-spelled ones. -/
theorem decided_iff {text : List Char} (h : isIP text ≠ 0) :
    (isPrivateAddress text = true ↔ DenotesPrivate text) ↔ WellSpelled text := by
  obtain ⟨address, haddress⟩ := Option.ne_none_iff_exists'.mp (mt isIP_eq_zero.mpr h)
  cases address with
  | v4 value =>
      refine ⟨fun _ => wellSpelled_v4 haddress, fun _ => ?_⟩
      rw [denotesPrivate_iff haddress, isPrivate_v4_iff]
      exact isPrivateAddress_v4 (ipv4Value?_of_ofText? haddress)
  | v6 gs => exact ⟨wellSpelled_of_decided haddress, decided_of_wellSpelled haddress⟩

/-! ## Refused connections -/

@[simp] theorem isPrivateAddress_lowerCase (text : List Char) :
    isPrivateAddress (lowerCase text) = isPrivateAddress text := by
  rw [Bool.eq_iff_iff]
  cases haddress : ofText? text with
  | none =>
      rw [isPrivateAddress_of_none haddress,
        isPrivateAddress_of_none (by rw [ofText?_lowerCase, haddress])]
  | some address =>
      have hlower : ofText? (lowerCase text) = some address := by rw [ofText?_lowerCase, haddress]
      cases address with
      | v4 value =>
          rw [isPrivateAddress_v4 (ipv4Value?_of_ofText? haddress),
            isPrivateAddress_v4 (ipv4Value?_of_ofText? hlower)]
      | v6 gs =>
          rw [isPrivateAddress_v6 haddress, isPrivateAddress_v6 hlower, lowerCase_lowerCase]

theorem withoutBrackets_of_isPlain {text : List Char} (h : ∀ c ∈ text, IsPlain c) :
    withoutBrackets text = text := by
  have hhead : text.head? ≠ some '[' := fun heq =>
    (h '[' (List.mem_of_head? heq)).2.1 rfl
  have hlast : text.getLast? ≠ some ']' := fun heq =>
    (h ']' (List.mem_of_getLast? heq)).2.2 rfl
  rw [withoutBrackets]
  simp only [if_neg hhead, if_neg hlast]

theorem withoutBrackets_bracketed (text : List Char) : withoutBrackets (bracketed text) = text := by
  rw [withoutBrackets, bracketed]
  simp

/-- The name of an address, as given or in brackets. -/
theorem withoutBrackets_toLowerCase (R : Runtime) {text host : List Char} (h : isIP text ≠ 0)
    (hhost : host = text ∨ host = bracketed text) :
    withoutBrackets (R.toLowerCase host) = lowerCase text := by
  obtain ⟨address, haddress⟩ := Option.ne_none_iff_exists'.mp (mt isIP_eq_zero.mpr h)
  have hplain := IsPlain.of_ofText? haddress
  have hlower := IsPlain.of_ofText? ((ofText?_lowerCase text).trans haddress)
  rcases hhost with rfl | rfl
  · rw [R.toLowerCase_ascii host fun c hc => (hplain c hc).1, withoutBrackets_of_isPlain hlower]
  · have hascii : ∀ c ∈ bracketed text, c.toNat < 128 := by
      intro c hc
      simp only [bracketed, List.mem_append, List.mem_cons, List.not_mem_nil, or_false] at hc
      rcases hc with (rfl | hin) | rfl
      · decide
      · exact (hplain c hin).1
      · decide
    have hbrackets : lowerCase (bracketed text) = bracketed (lowerCase text) := by
      rw [bracketed, lowerCase, List.map_append, List.map_cons]
      rfl
    rw [R.toLowerCase_ascii _ hascii, hbrackets, withoutBrackets_bracketed]

/-- A host that is a private address for the check is refused. -/
theorem assertPublicHost_eq_error (R : Runtime) {text host : List Char} (h : isIP text ≠ 0)
    (hhost : host = text ∨ host = bracketed text) (hprivate : isPrivateAddress text = true)
    (label : String) : ∃ refusal, assertPublicHost R host label = .error refusal := by
  have hname : isPrivateHostname R host = true := by
    rw [isPrivateHostname, withoutBrackets_toLowerCase R h hhost]
    simp only [isIP_lowerCase, if_pos h, isPrivateAddress_lowerCase, hprivate]
  rw [assertPublicHost]
  simp only [if_pos hname]
  exact ⟨_, rfl⟩

/-- A connection with such a host is refused. -/
theorem assertConnection_eq_error (R : Runtime) {text : List Char} (h : isIP text ≠ 0)
    (hprivate : isPrivateAddress text = true) {connection : ChannelConnectionInput}
    (hhost : text ∈ connection.hosts R ∨ bracketed text ∈ connection.hosts R) :
    ∃ refusal, assertConnectionEndpointsAllowed R connection true = .error refusal := by
  obtain ⟨host, hmem, hform⟩ :
      ∃ host ∈ connection.hosts R, host = text ∨ host = bracketed text := by
    rcases hhost with hmem | hmem
    · exact ⟨text, hmem, Or.inl rfl⟩
    · exact ⟨bracketed text, hmem, Or.inr rfl⟩
  have hrefused := assertPublicHost_eq_error R h hform hprivate
  unfold assertConnectionEndpointsAllowed
  cases connection with
  | emailSmtpImap imap smtp =>
      have hcases : host = imap.host ∨ host = smtp.host := by
        simpa [ChannelConnectionInput.hosts] using hmem
      simp only [Bool.not_true, Bool.false_eq_true, if_false]
      cases hfirst : assertPublicHost R imap.host "IMAP server" with
      | error refusal => exact ⟨refusal, rfl⟩
      | ok _ =>
          rcases hcases with rfl | rfl
          · obtain ⟨refusal, herror⟩ := hrefused "IMAP server"
            rw [hfirst] at herror
            cases herror
          · exact hrefused "SMTP server"
  | customWebhook outboundUrl =>
      simp only [Bool.not_true, Bool.false_eq_true, if_false]
      cases hurl : R.parseUrl outboundUrl with
      | none => exact ⟨.invalidUrl, rfl⟩
      | some url =>
          obtain ⟨protocol, hostname⟩ := url
          have heq : host = hostname := by
            simpa [ChannelConnectionInput.hosts, hurl] using hmem
          subst heq
          by_cases hprotocol : protocol ≠ "https:".toList
          · exact ⟨_, if_pos hprotocol⟩
          · obtain ⟨refusal, herror⟩ := hrefused "Reply endpoint"
            exact ⟨refusal, (if_neg hprotocol).trans herror⟩
  | _ => cases hmem

/-- An address is recognised if and only if it is well spelled. -/
theorem recognised_iff_wellSpelled (text : List Char) (h : isIP text ≠ 0) :
    Recognised text ↔ WellSpelled text := by
  constructor
  · exact fun hrecognised => (decided_iff h).mp hrecognised.decided
  · intro hspelled
    have hdecided := (decided_iff h).mpr hspelled
    exact ⟨hdecided, fun hprivate R connection hhost =>
      assertConnection_eq_error R h (hdecided.mpr hprivate) hhost⟩

theorem recognised_exampleText :
    isIP "::FFFF:10.0.0.1".toList ≠ 0 ∧
      (Recognised "::FFFF:10.0.0.1".toList ↔ WellSpelled "::FFFF:10.0.0.1".toList) :=
  ⟨by decide, recognised_iff_wellSpelled _ (by decide)⟩

def exampleUrl : List Char := "https://[::ffff:127.0.0.1]/reply".toList

def exampleText : List Char := "::ffff:7f00:1".toList

/-- A runtime that knows one URL, whose host is IPv4-mapped: the parser of URLs
writes an IPv6 address in hexadecimal. -/
def exampleRuntime : Runtime where
  toLowerCase := lowerCase
  lookup _ := none
  parseUrl url :=
    if url = exampleUrl then some ("https:".toList, "[::ffff:7f00:1]".toList) else none
  toLowerCase_ascii _ _ := rfl

theorem ofText?_exampleText : ofText? exampleText = some (.v6 (mappedGroups 0x7f000001)) := by
  decide

theorem isPrivateV4_loopback : IsPrivateV4 0x7f000001 :=
  ⟨("127.0.0.0".toList, 8), by decide, 0x7f000000, by decide, by decide⟩

theorem isPrivateAddress_exampleText : isPrivateAddress exampleText = false := by
  rw [Bool.eq_false_iff]
  intro hprivate
  have hreserved : IsReserved (mappedGroups 0x7f000001) :=
    Or.inr (Or.inr ⟨_, isPrivateV4_loopback, rfl⟩)
  have hlower : lowerCase exampleText = mappedPrefix ++ "7f00:1".toList := by decide
  rcases spelling_of_isReserved ofText?_exampleText hprivate hreserved with
    (hshort | hshort) | ⟨quad, value, hquad, hvalue, -⟩
  · exact absurd hshort (by decide)
  · exact absurd hshort (by decide)
  · rw [hlower] at hquad
    have hnone : ipv4Value? "7f00:1".toList = none := by decide
    rw [← List.append_cancel_left hquad, hnone] at hvalue
    cases hvalue

/-- The host is bracketed, so it is looked up as a name. -/
theorem assertConnection_exampleUrl :
    assertConnectionEndpointsAllowed exampleRuntime (.customWebhook exampleUrl) true = .ok () := by
  have hip : isIP exampleText ≠ 0 := by decide
  have hhost : isIP (bracketed exampleText) = 0 := by decide
  have hname : isPrivateHostname exampleRuntime (bracketed exampleText) = false := by
    rw [isPrivateHostname, withoutBrackets_toLowerCase _ hip (Or.inr rfl)]
    simp only [isIP_lowerCase, if_pos hip, isPrivateAddress_lowerCase, isPrivateAddress_exampleText]
  have hurl : exampleRuntime.parseUrl exampleUrl =
      some ("https:".toList, bracketed exampleText) := by decide
  have hallowed : assertPublicHost exampleRuntime (bracketed exampleText) "Reply endpoint" =
      .ok () := by
    have hlookup : exampleRuntime.lookup (bracketed exampleText) = none := rfl
    rw [assertPublicHost]
    simp only [hname, hhost, hlookup, Option.getD_none, List.any_nil]
    rfl
  rw [assertConnectionEndpointsAllowed]
  simp only [hurl, Bool.not_true, Bool.false_eq_true, if_false, ne_eq, not_true_eq_false]
  exact hallowed

/-- The loopback address of IPv4, as the parser of URLs spells it, is accepted. -/
theorem not_recognised :
    ¬ (∀ text, isIP text ≠ 0 → Recognised text) ∧
      DenotesPrivate exampleText ∧ isPrivateAddress exampleText = false ∧
      exampleRuntime.parseUrl exampleUrl = some ("https:".toList, bracketed exampleText) ∧
      assertConnectionEndpointsAllowed exampleRuntime (.customWebhook exampleUrl) true =
        .ok () := by
  have hdenotes : DenotesPrivate exampleText :=
    ⟨_, ofText?_exampleText, .mapped isPrivateV4_loopback⟩
  refine ⟨?_, hdenotes, isPrivateAddress_exampleText, by decide,
    assertConnection_exampleUrl⟩
  intro hall
  have hprivate := (hall exampleText (by decide)).decided.mpr hdenotes
  rw [isPrivateAddress_exampleText] at hprivate
  cases hprivate

end Vynor.Channels
