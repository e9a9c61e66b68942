import Vynor.Contracts.Content

/-!
# Quoted replies

`stripQuotedReply`, which takes the quoted history off a reply.  The patterns
are read on a trimmed line, so a `\s*$` at the end of one is the end of the
line.  Letters are compared as ASCII, as the flag `i` does without `u`.
-/

namespace Vynor.Email

/-- What `\w` matches. -/
def isWord (c : Char) : Bool := c.isAlphanum || c = '_'

/-- What `.` does not match. -/
def isLineTerminator (c : Char) : Bool := c.toNat ∈ [0x0a, 0x0d, 0x2028, 0x2029]

/-- The rest of a line that begins with a word, which is in lower case. -/
def after (word line : List Char) : Option (List Char) :=
  if (line.take word.length).map Char.toLower = word then some (line.drop word.length) else none

/-- `/^opening\b.{0,200}\bclosing$/i`, for words at the boundaries. -/
def isIntroduction (opening closing : String) (line : List Char) : Bool :=
  match after opening.toList line with
  | none => false
  | some rest =>
      let middle := rest.take (rest.length - closing.length)
      after closing.toList (rest.drop (rest.length - closing.length)) = some [] &&
        middle.all (fun c => !isLineTerminator c) &&
        (middle.flatMap charUnits).length ≤ 200 &&
        middle.head?.any (fun c => !isWord c) && middle.getLast?.any fun c => !isWord c

/-- `/^-{2,}\s*title\s*-{2,}$/i`. -/
def isDivider (title : String) (line : List Char) : Bool :=
  2 ≤ (line.takeWhile (· = '-')).length &&
    match after title.toList ((line.dropWhile (· = '-')).dropWhile isSpace) with
    | none => false
    | some rest =>
        let dashes := rest.dropWhile isSpace
        2 ≤ dashes.length && dashes.all (· = '-')

/-- `/^_{10,}$/`. -/
def isRule (line : List Char) : Bool := 10 ≤ line.length && line.all (· = '_')

/-- `/^name\s.+$/i`. -/
def isField (name : String) (line : List Char) : Bool :=
  match after name.toList line with
  | some (c :: rest) => isSpace c && rest ≠ [] && rest.all fun c => !isLineTerminator c
  | _ => false

/-- `REPLY_HEADER_PATTERNS`. -/
def isReplyHeader (line : List Char) : Bool :=
  isIntroduction "on" "wrote:" line || isIntroduction "pada" "menulis:" line ||
    isDivider "original message" line || isDivider "pesan asli" line || isRule line ||
    isField "from:" line || isField "dari:" line

/-- One of these names begins the line. -/
def beginsWith (names : List String) (line : List Char) : Bool :=
  names.any fun name => (after name.toList line).isSome

/-- A `From:` counts only where another header line follows. -/
def cuts (line next : List Char) : Bool :=
  isReplyHeader line &&
    (!beginsWith ["from:", "dari:"] line ||
      beginsWith ["sent:", "date:", "to:", "terkirim:", "tanggal:", "kepada:"] next)

/-- The lines before the first reply header. -/
def keptLines : List (List Char) → List (List Char)
  | [] => []
  | line :: rest =>
      if cuts (trimChars line) (trimChars (rest.headD [])) then [] else line :: keptLines rest

/-- `/^\s*(>|$)/`. -/
def isQuoted (line : List Char) : Bool :=
  match line.dropWhile isSpace with
  | [] => true
  | c :: _ => c = '>'

/-- `replace(/\r\n/g, '\n')`. -/
def unifyBreaks : List Char → List Char
  | '\r' :: '\n' :: cs => '\n' :: unifyBreaks cs
  | c :: cs => c :: unifyBreaks cs
  | [] => []

/-- `stripQuotedReply`. -/
def stripQuotedReply (text : String) : String :=
  let lines := (unifyBreaks text.toList).splitOnP (· = '\n')
  let kept := ((keptLines lines).reverse.dropWhile isQuoted).reverse
  String.ofList (trimChars (['\n'].intercalate kept))

example : stripQuotedReply "Thanks!\r\n\r\nOn Tue, Budi <b@x> wrote:\r\n> Hello" = "Thanks!" := by
  decide

example : stripQuotedReply "From: my phone\nSee you\n> Hello\n" = "From: my phone\nSee you" := by
  decide

end Vynor.Email
