import Vynor.Lib.Bytes

/-!
# UTF-8

A text as its bytes, and bytes as a text.  The decoder takes one byte at a time.
Bytes that are no character become U+FFFD, once for each of the longest parts
that begin a character, and the byte that breaks one off is looked at again.
The bytes of a text are decoded to that text (`decode_encode`).
-/

namespace Lib

namespace Utf8

/-! ## Encoding -/

/-- `Buffer.from(text, 'utf8')`, of characters. -/
def encodeChars (cs : List Char) : Bytes := cs.flatMap String.utf8EncodeChar

/-- `Buffer.from(text, 'utf8')`. -/
def encode (text : String) : Bytes := encodeChars text.toList

/-! ## Decoding -/

/-- A character that has begun. -/
structure Pending where
  /-- The value of its bytes so far. -/
  value : Nat
  /-- How many bytes are missing. -/
  needed : Nat
  /-- The least value of the next byte. -/
  lower : Nat := 0x80
  /-- The greatest value of the next byte. -/
  upper : Nat := 0xbf

/-- The replacement character. -/
def replacement : Char := '\uFFFD'

/-- A byte between two characters: what it completes, and what it begins. -/
def start (b : Nat) : List Char × Option Pending :=
  if b ≤ 0x7f then ([Char.ofNat b], none)
  else if 0xc2 ≤ b ∧ b ≤ 0xdf then ([], some { value := b - 0xc0, needed := 1 })
  else if 0xe0 ≤ b ∧ b ≤ 0xef then
    ([], some
      { value := b - 0xe0, needed := 2, lower := if b = 0xe0 then 0xa0 else 0x80,
        upper := if b = 0xed then 0x9f else 0xbf })
  else if 0xf0 ≤ b ∧ b ≤ 0xf4 then
    ([], some
      { value := b - 0xf0, needed := 3, lower := if b = 0xf0 then 0x90 else 0x80,
        upper := if b = 0xf4 then 0x8f else 0xbf })
  else ([replacement], none)

/-- A byte inside of a character. -/
def Pending.step (p : Pending) (b : Nat) : List Char × Option Pending :=
  if p.lower ≤ b ∧ b ≤ p.upper then
    let value := p.value * 64 + (b - 0x80)
    if p.needed = 1 then ([Char.ofNat value], none)
    else ([], some { value := value, needed := p.needed - 1 })
  else (replacement :: (start b).1, (start b).2)

/-- One byte. -/
def step : Option Pending → UInt8 → List Char × Option Pending
  | none, b => start b.toNat
  | some p, b => p.step b.toNat

/-- The characters of bytes, after what has begun. -/
def decodeChars : Option Pending → Bytes → List Char
  | none, [] => []
  | some _, [] => [replacement]
  | state, b :: bytes => (step state b).1 ++ decodeChars (step state b).2 bytes

/-- `bytes.toString('utf8')`. -/
def decode (bytes : Bytes) : String := String.ofList (decodeChars none bytes)

example : decode [0x61, 0xe2, 0x82, 0xac, 0xe2, 0x82, 0x62, 0xff] = "a€\uFFFDb\uFFFD" := by
  decide

/-! ## The bytes of a character -/

theorem decodeChars_cons (state : Option Pending) (b : UInt8) (bytes : Bytes) :
    decodeChars state (b :: bytes) = (step state b).1 ++ decodeChars (step state b).2 bytes := by
  cases state <;> rfl

/-- A byte that begins a character completes none. -/
theorem decodeChars_start {n : Nat} {p : Pending} (hn : n < 256) (h : start n = ([], some p))
    (bytes : Bytes) :
    decodeChars none (UInt8.ofNat n :: bytes) = decodeChars (some p) bytes := by
  rw [decodeChars_cons, step, UInt8.toNat_ofNat_of_lt' hn, h]
  rfl

/-- A byte in range that is not the last one. -/
theorem decodeChars_next {p : Pending} {n : Nat} (hn : n < 256)
    (hrange : p.lower ≤ n ∧ n ≤ p.upper) (hneeded : p.needed ≠ 1) (bytes : Bytes) :
    decodeChars (some p) (UInt8.ofNat n :: bytes) =
      decodeChars (some { value := p.value * 64 + (n - 0x80), needed := p.needed - 1 }) bytes := by
  rw [decodeChars_cons, step, UInt8.toNat_ofNat_of_lt' hn, Pending.step, if_pos hrange]
  simp only [if_neg hneeded, List.nil_append]

/-- The last byte of a character. -/
theorem decodeChars_last {p : Pending} {n : Nat} (hn : n < 256)
    (hrange : p.lower ≤ n ∧ n ≤ p.upper) (hneeded : p.needed = 1) (bytes : Bytes) :
    decodeChars (some p) (UInt8.ofNat n :: bytes) =
      Char.ofNat (p.value * 64 + (n - 0x80)) :: decodeChars none bytes := by
  rw [decodeChars_cons, step, UInt8.toNat_ofNat_of_lt' hn, Pending.step, if_pos hrange]
  simp only [if_pos hneeded, List.singleton_append]

theorem start_two {n : Nat} (h : 0xc2 ≤ n ∧ n ≤ 0xdf) :
    start n = ([], some { value := n - 0xc0, needed := 1 }) := by
  rw [start, if_neg (by omega), if_pos h]

theorem start_three {n : Nat} (h : 0xe0 ≤ n ∧ n ≤ 0xef) :
    start n =
      ([], some
        { value := n - 0xe0, needed := 2, lower := if n = 0xe0 then 0xa0 else 0x80,
          upper := if n = 0xed then 0x9f else 0xbf }) := by
  rw [start, if_neg (by omega), if_neg (by omega), if_pos h]

theorem start_four {n : Nat} (h : 0xf0 ≤ n ∧ n ≤ 0xf4) :
    start n =
      ([], some
        { value := n - 0xf0, needed := 3, lower := if n = 0xf0 then 0x90 else 0x80,
          upper := if n = 0xf4 then 0x8f else 0xbf }) := by
  rw [start, if_neg (by omega), if_neg (by omega), if_neg (by omega), if_pos h]

/-- The bytes of a character are decoded to it. -/
theorem decodeChars_utf8EncodeChar (c : Char) (bytes : Bytes) :
    decodeChars none (String.utf8EncodeChar c ++ bytes) = c :: decodeChars none bytes := by
  have hvalid : c.toNat < 0xd800 ∨ 0xdfff < c.toNat ∧ c.toNat < 0x110000 := c.valid
  have hvalue : ∀ n, n = c.toNat → Char.ofNat n :: decodeChars none bytes =
      c :: decodeChars none bytes := by
    rintro n rfl
    rw [Char.ofNat_toNat]
  have hv : c.val.toNat = c.toNat := rfl
  generalize hn : c.toNat = n at *
  unfold String.utf8EncodeChar
  simp only [hv]
  split
  next h1 =>
    have hbyte : n < 256 := by omega
    rw [List.singleton_append, decodeChars_cons, step, UInt8.toNat_ofNat_of_lt' hbyte, start,
      if_pos h1]
    exact hvalue _ rfl
  split
  next h1 h2 =>
    have hlead : 0xc2 ≤ n / 64 % 32 + 0xc0 ∧ n / 64 % 32 + 0xc0 ≤ 0xdf := by omega
    have hlead' : n / 64 % 32 + 0xc0 < 256 := by omega
    have hlast : n % 64 + 0x80 < 256 := by omega
    rw [List.cons_append, List.singleton_append, decodeChars_start hlead' (start_two hlead),
      decodeChars_last hlast (by simp only; omega) rfl]
    exact hvalue _ (by simp only; omega)
  split
  next h1 h2 h3 =>
    have hlead : 0xe0 ≤ n / 4096 % 16 + 0xe0 ∧ n / 4096 % 16 + 0xe0 ≤ 0xef := by omega
    have hlead' : n / 4096 % 16 + 0xe0 < 256 := by omega
    have hsecond : n / 64 % 64 + 0x80 < 256 := by omega
    have hlast : n % 64 + 0x80 < 256 := by omega
    rw [List.cons_append, List.cons_append, List.singleton_append,
      decodeChars_start hlead' (start_three hlead),
      decodeChars_next hsecond (by simp only; split <;> split <;> omega) (by simp only; omega),
      decodeChars_last hlast (by simp only; omega) rfl]
    exact hvalue _ (by simp only; omega)
  next h1 h2 h3 =>
    have hlead : 0xf0 ≤ n / 262144 % 8 + 0xf0 ∧ n / 262144 % 8 + 0xf0 ≤ 0xf4 := by omega
    have hlead' : n / 262144 % 8 + 0xf0 < 256 := by omega
    have hsecond : n / 4096 % 64 + 0x80 < 256 := by omega
    have hthird : n / 64 % 64 + 0x80 < 256 := by omega
    have hlast : n % 64 + 0x80 < 256 := by omega
    rw [List.cons_append, List.cons_append, List.cons_append, List.singleton_append,
      decodeChars_start hlead' (start_four hlead),
      decodeChars_next hsecond (by simp only; split <;> split <;> omega) (by simp only; omega),
      decodeChars_next hthird (by simp only; omega) (by simp only; omega),
      decodeChars_last hlast (by simp only; omega) rfl]
    exact hvalue _ (by simp only; omega)

theorem decodeChars_encodeChars (cs : List Char) : decodeChars none (encodeChars cs) = cs := by
  induction cs with
  | nil => rfl
  | cons c cs ih =>
      rw [encodeChars] at ih ⊢
      rw [List.flatMap_cons, decodeChars_utf8EncodeChar, ih]

/-- The bytes of a text are decoded to it. -/
theorem decode_encode (text : String) : decode (encode text) = text := by
  rw [decode, encode, decodeChars_encodeChars, String.ofList_toList]

end Utf8

end Lib
