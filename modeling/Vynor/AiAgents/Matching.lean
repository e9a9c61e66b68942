import Vynor.Contracts.Content
import Mathlib.Data.List.Infix

/-!
# Matching texts

The text functions of the preview engine: how a message is cut into tokens and
how a condition that an agent's settings state in words is compared with it.

What Unicode says of characters is a parameter, `Runtime`: the lower case of a
text, and which characters are letters or numbers.
-/

namespace Vynor.AiAgents

/-- What the platform provides: Unicode, and the numbers a score is made of. -/
structure Runtime where
  toLowerCase : String → String
  /-- `\p{L}` and `\p{N}`. -/
  isLetterOrNumber : Char → Bool
  Number : Type
  ofNat : Nat → Number
  /-- `0.8` and `0.5`. -/
  fourFifths : Number
  half : Number
  add : Number → Number → Number
  mul : Number → Number → Number
  div : Number → Number → Number
  log : Number → Number
  lt : Number → Number → Bool
  eq : Number → Number → Bool
  /-- `Intl.NumberFormat('id-ID')`. -/
  formatNumber : Number → String
  /-- The hour in a time zone, where the zone is known. -/
  hourInZone : String → Date → Option Nat

/-- The pieces of a text between separators.  Whether a character separates can
depend on the one before it. -/
def splitWhere (separates : Char → Char → Bool) (before : Char) : List Char → List (List Char)
  | [] => [[]]
  | c :: rest =>
      let pieces := splitWhere separates c rest
      if separates before c then [] :: pieces
      else
        match pieces with
        | piece :: others => (c :: piece) :: others
        | [] => [[c]]

def STOPWORDS : List String :=
  ["yang", "dan", "di", "ke", "dari", "untuk", "dengan", "atau", "ini", "itu", "ada", "saya",
    "aku", "kamu", "kita", "kami", "dia", "mereka", "kak", "kakak", "customer", "pelanggan",
    "pembeli", "user", "pengguna", "ketika", "saat", "jika", "kalau", "apabila", "bila",
    "ingin", "mau", "meminta", "minta", "menanyakan", "tanya", "bertanya", "nanya", "apa",
    "apakah", "berapa", "bagaimana", "gimana", "kapan", "dimana", "mana", "siapa", "kenapa",
    "bisa", "boleh", "tolong", "mohon", "dong", "ya", "sih", "nih", "deh", "kah", "lah", "juga",
    "sudah", "belum", "akan", "lagi", "saja", "aja", "pun", "oleh", "pada", "dalam", "agar",
    "supaya", "tapi", "tetapi", "karena", "jadi", "label", "pindahkan", "ubah", "status", "nya",
    "hari", "sekarang", "besok", "kemarin", "nanti", "tadi", "the", "a", "an", "and", "or",
    "to", "of", "in", "on", "at", "for", "with", "from", "by", "is", "are", "was", "were", "be",
    "been", "it", "this", "that", "these", "those", "i", "you", "he", "she", "we", "they", "my",
    "your", "our", "their", "me", "us", "asks", "ask", "asking", "wants", "want", "when", "if",
    "then", "please", "can", "could", "would", "should", "do", "does", "did", "what", "how",
    "where", "which", "who", "why", "much", "many", "any", "some", "move", "set", "apply",
    "today", "now", "tomorrow", "yesterday"]

def GREETINGS : List String :=
  ["halo", "hallo", "helo", "hai", "hi", "hello", "hey", "pagi", "siang", "sore", "malam",
    "selamat", "permisi", "assalamualaikum", "salam", "p", "min", "gan", "sis", "kak", "good",
    "morning", "afternoon", "evening"]

def ID_MARKERS : List String :=
  ["apa", "apakah", "berapa", "bagaimana", "gimana", "bisa", "saya", "aku", "kak", "mau",
    "ingin", "dong", "ya", "yang", "dan", "ini", "itu", "ada", "tidak", "gak", "nggak",
    "enggak", "harga", "kirim", "terima", "kasih", "makasih", "halo", "selamat", "pagi",
    "siang", "sore", "malam", "barang", "beli", "bayar", "sama"]

def EN_MARKERS : List String :=
  ["what", "how", "when", "where", "can", "could", "would", "is", "are", "do", "does", "the",
    "you", "your", "my", "i", "price", "hello", "hi", "thanks", "thank", "please", "want",
    "need"]

/-! ## Tokens -/

/-- `text.length`. -/
def unitLength (text : String) : Nat := (codeUnits text).length

section Matching

variable (R : Runtime)

/-- `tokenize`. -/
def tokenize (text : String) : List String :=
  ((splitWhere (fun _ c => !R.isLetterOrNumber c) ' ' (R.toLowerCase text).toList).map
    String.ofList).filter fun token => 2 ≤ unitLength token

/-- `contentTokens`. -/
def contentTokens (text : String) : List String :=
  ((tokenize R text).filter fun t => t ∉ STOPWORDS && t ∉ GREETINGS).eraseDups

/-- `text.includes(part)`. -/
def includes (text part : String) : Bool := part.toList <:+: text.toList

/-- `tokensMatch`. -/
def tokensMatch (a b : String) : Bool :=
  if a = b then true
  else if min (unitLength a) (unitLength b) < 4 then false
  else includes a b || includes b a

/-- `hasToken`. -/
def hasToken (tokens : List String) (keyword : String) : Bool :=
  tokens.any fun t => tokensMatch t keyword

inductive ChatLanguage where
  | id
  | en
deriving DecidableEq, Repr

/-- `detectLanguage`. -/
def detectLanguage (text : String) : ChatLanguage :=
  let tokens := tokenize R text
  let id := tokens.countP fun token => token ∈ ID_MARKERS
  let en := tokens.countP fun token => token ∈ EN_MARKERS
  if en > id then .en else .id

/-- `conditionLines`: pieces end at a line break, and at a space after a full
stop. -/
def conditionLines (text : String) : List String :=
  ((splitWhere (fun before c => c = '\n' || (before = '.' && isSpace c)) '\n' text.toList).map
    fun line => trim (String.ofList line)).filter fun line => line ≠ ""

/-- `lineMatches`. -/
def lineMatches (line : String) (messageTokens : List String) (exclude : List String := []) : Bool :=
  let keywords := (contentTokens R line).filter fun k => k ∉ exclude
  if keywords = [] then false
  else
    let hits := (keywords.filter fun k => hasToken messageTokens k).length
    (if keywords.length ≤ 3 then 1 else 2) ≤ hits

/-- `matchesConditions`. -/
def matchesConditions (conditions : String) (messageTokens : List String) : Bool :=
  (conditionLines conditions).any fun line => lineMatches R line messageTokens

/-- `actionMatches`: the lines that mention the name, or the name itself. -/
def actionMatches (name conditions : String) (messageTokens : List String) : Bool :=
  let nameTokens := tokenize R name
  let lines := (conditionLines conditions).filter fun line =>
    includes (R.toLowerCase line) (R.toLowerCase name)
  if lines = [] then lineMatches R name messageTokens
  else lines.any fun line => lineMatches R line messageTokens nameTokens

/-! ## Thanks -/

/-- What `\w` matches. -/
def isWordChar (c : Char) : Bool := c.isAlphanum || c = '_'

/-- The rest of a text after a word in any case, where it begins with it. -/
def dropWord (word text : List Char) : Option (List Char) :=
  match word, text with
  | [], rest => some rest
  | _ :: _, [] => none
  | w :: ws, c :: cs => if c.toLower = w then dropWord ws cs else none

/-- The alternatives of `THANKS`, in order. -/
def THANKS_WORDS : List String :=
  ["terima kasih", "terimakasih", "makasih", "thanks", "thank you", "thx", "tq"]

/-- The rest of a text after a match of `THANKS` at its begin. -/
def dropThanks (before : Option Char) (text : List Char) : Option (List Char) :=
  if before.any isWordChar then none
  else
    THANKS_WORDS.findSome? fun word =>
      (dropWord word.toList text).filter fun rest => !rest.head?.any isWordChar

/-- The text without the first match of `THANKS`, where there is one. -/
def withoutThanks (before : Option Char) (text : List Char) : Option (List Char) :=
  match dropThanks before text with
  | some rest => some rest
  | none =>
      match text with
      | [] => none
      | c :: rest => (withoutThanks (some c) rest).map fun rest => c :: rest

end Matching

end Vynor.AiAgents
