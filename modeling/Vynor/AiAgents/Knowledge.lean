import Vynor.AiAgents.Matching
import Mathlib.Data.List.Sort

/-!
# The knowledge of an agent

How the engine answers from an agent's knowledge: the plain text of the
editor's HTML, the chunks that questions, products, documents and files are cut
into, and the ranking of the chunks for a query.

An answer is cut by `slice`, which can separate a surrogate pair, so it is made
of code units.
-/

namespace Vynor.AiAgents

/-! ## Patterns -/

/-- A pattern at the begin of a text: the rest after its match, given the
character before the text. -/
abbrev Pattern := Option Char → List Char → Option (List Char)

/-- A text with the matches of a pattern set apart, from left to right.  The
characters of a match that are still to be passed are `skip`. -/
def scan (pattern : Pattern) (before : Option Char) (skip : Nat) :
    List Char → List (List Char ⊕ Char)
  | [] => []
  | c :: rest =>
      match skip with
      | skip + 1 => scan pattern (some c) skip rest
      | 0 =>
          match pattern before (c :: rest) with
          | some after =>
              let length := (c :: rest).length - after.length
              .inl ((c :: rest).take length) :: scan pattern (some c) (length - 1) rest
          | none => .inr c :: scan pattern (some c) 0 rest

/-- `text.replace(pattern, replacement)`, with the flag `g`. -/
def replaceAll (pattern : Pattern) (replacement : List Char → List Char) (text : List Char) :
    List Char :=
  (scan pattern none 0 text).flatMap (Sum.elim replacement fun c => [c])

/-- `text.match(pattern)`, with the flag `g`. -/
def matchAll (pattern : Pattern) (text : List Char) : List (List Char) :=
  (scan pattern none 0 text).filterMap Sum.getLeft?

/-- `text.split(pattern)`. -/
def splitAll (pattern : Pattern) (text : List Char) : List (List Char) :=
  go (scan pattern none 0 text)
where
  /-- The pieces between the matches. -/
  go : List (List Char ⊕ Char) → List (List Char)
    | [] => [[]]
    | .inl _ :: rest => [] :: go rest
    | .inr c :: rest =>
        match go rest with
        | piece :: others => (c :: piece) :: others
        | [] => [[c]]

/-! ## `htmlToText` -/

/-- `/<br\s*\/?>/gi`. -/
def lineBreak : Pattern := fun _ text =>
  (dropWord "<br".toList text).bind fun rest =>
    let rest := rest.dropWhile isSpace
    dropWord ['>'] ((dropWord ['/'] rest).getD rest)

/-- `/<\/(div|p|li|h[1-6])>/gi`. -/
def blockEnd : Pattern := fun _ text =>
  ["</div>", "</p>", "</li>", "</h1>", "</h2>", "</h3>", "</h4>", "</h5>", "</h6>"].findSome?
    fun tag => dropWord tag.toList text

/-- `/<[^>]*>/g`. -/
def anyTag : Pattern := fun _ text =>
  (dropWord ['<'] text).bind fun rest => dropWord ['>'] (rest.dropWhile fun c => c ≠ '>')

/-- `ENTITIES`. -/
def ENTITIES : List (String × Char) :=
  [("&nbsp;", ' '), ("&amp;", '&'), ("&lt;", '<'), ("&gt;", '>'), ("&quot;", '"'), ("&#39;", '\'')]

/-- `/&(nbsp|amp|lt|gt|quot|#39);/g`. -/
def entity : Pattern := fun _ text =>
  ENTITIES.findSome? fun e => if e.1.toList <+: text then some (text.drop e.1.length) else none

/-- `/\n{3,}/g`. -/
def lineBreaks : Pattern := fun _ text =>
  if 3 ≤ (text.takeWhile fun c => c = '\n').length then some (text.dropWhile fun c => c = '\n')
  else none

/-- `htmlToText`. -/
def htmlToText (html : String) : String :=
  let text := replaceAll lineBreak (fun _ => ['\n']) html.toList
  let text := replaceAll blockEnd (fun _ => ['\n']) text
  let text := replaceAll anyTag (fun _ => []) text
  let text := replaceAll entity
    (fun e => ((ENTITIES.lookup (String.ofList e)).map fun c => [c]).getD e) text
  let text := replaceAll lineBreaks (fun _ => ['\n', '\n']) text
  trim (String.ofList text)

example : htmlToText "<h1>A &amp; B</h1><p>one<BR />two</p>\n\n" = "A & B\none\ntwo" := by
  decide

/-! ## Chunks -/

/-- What `\s` matches, as a code unit. -/
def isSpaceUnit (u : UInt16) : Bool := isSpace (Char.ofNat u.toNat)

/-- `truncate`. -/
def truncate (text : String) (max : Nat) : CodeUnits :=
  let units := codeUnits text
  if units.length ≤ max then units
  else ((units.take (max - 1)).reverse.dropWhile isSpaceUnit).reverse ++ codeUnits "…"

/-- The rest after `\s*\n`, as long a match as there is. -/
def dropBlankLines : List Char → Option (List Char)
  | [] => none
  | c :: rest =>
      if isSpace c then
        match dropBlankLines rest with
        | some after => some after
        | none => if c = '\n' then some rest else none
      else none

/-- `/\n\s*\n/`. -/
def blankLine : Pattern := fun _ text => (dropWord ['\n'] text).bind dropBlankLines

/-- What ends a sentence. -/
def isStop (c : Char) : Bool := c = '.' || c = '!' || c = '?'

/-- `/[^.!?]+[.!?]*\s*/g`. -/
def sentence : Pattern := fun _ text =>
  if text.head?.any fun c => !isStop c then
    some (((text.dropWhile fun c => !isStop c).dropWhile isStop).dropWhile isSpace)
  else none

/-- The texts without the blanks around them, and without those that are empty. -/
def trimmed (texts : List (List Char)) : List String :=
  (texts.map fun text => String.ofList (trimChars text)).filter fun text => text ≠ ""

/-- `paragraphs`. -/
def paragraphs (text : String) : List String :=
  trimmed ((trimmed (splitAll blankLine text.toList)).flatMap fun p =>
    if unitLength p ≤ 800 then [p.toList]
    else
      match matchAll sentence p.toList with
      | [] => [p.toList]
      | sentences => sentences)

/-- What ends a line for `^`. -/
def isLineEnd (c : Char) : Bool := c.toNat ∈ [10, 13, 0x2028, 0x2029]

/-- `/^#+\s*/gm`. -/
def headingMark : Pattern := fun before text =>
  if before.all isLineEnd && text.head? = some '#' then
    some ((text.dropWhile fun c => c = '#').dropWhile isSpace)
  else none

/-- `sectionAnswer`. -/
def sectionAnswer (section_ : String) : CodeUnits :=
  let lines := (splitWhere (fun _ c => c = '\n') ' ' section_.toList).map trimChars
  let body := lines.filter fun l => l.head? ≠ some '#'
  let text := ['\n'].intercalate (if body ≠ [] then body else lines)
  truncate (String.ofList (replaceAll headingMark (fun _ => []) text)) 600

inductive ChunkKind where
  | qna
  | product
  | catalog
  | text
  | file
deriving DecidableEq, Repr

/-- `KIND_PRIORITY`. -/
def kindPriority : ChunkKind → Nat
  | .qna => 0
  | .product => 1
  | .catalog => 2
  | .text => 3
  | .file => 4

/-- `KnowledgeChunk`. -/
structure KnowledgeChunk where
  id : String
  kind : ChunkKind
  source : CodeUnits
  answer : CodeUnits
  /-- Tokens that carry full weight. -/
  primary : List String
  /-- Tokens that carry partial weight. -/
  secondary : List String
deriving DecidableEq

/-- `KnowledgeTextDoc`. -/
structure KnowledgeTextDoc where
  id : String
  title : String
  content : String

/-- `KnowledgeFile`, with the members the engine reads. -/
structure KnowledgeFile where
  id : String
  name : String
  content : String

/-- `KnowledgeQna`. -/
structure KnowledgeQna where
  id : String
  question : String
  answer : String

section Index

variable (R : Runtime)

/-- `KnowledgeProduct`. -/
structure KnowledgeProduct where
  id : String
  name : String
  description : String
  weightGrams : R.Number
  stock : Nat
  price : R.Number

/-- `AiAgentKnowledge`, with the members the engine reads. -/
structure AiAgentKnowledge where
  texts : List KnowledgeTextDoc
  files : List KnowledgeFile
  qna : List KnowledgeQna
  products : List (KnowledgeProduct R)

/-- `formatRupiah`. -/
def formatRupiah (value : R.Number) : String := "Rp" ++ R.formatNumber value

variable {R}

/-- `productAnswer`. -/
def productAnswer (product : KnowledgeProduct R) (lang : ChatLanguage) : String :=
  let stock :=
    if product.stock > 0 then toString product.stock
    else if lang = .id then "habis" else "out of stock"
  let weight := R.formatNumber product.weightGrams ++ " " ++ if lang = .id then "gram" else "g"
  let details :=
    if lang = .id then
      "Harga: " ++ formatRupiah R product.price ++ " · Stok: " ++ stock ++ " · Berat: " ++ weight
    else
      "Price: " ++ formatRupiah R product.price ++ " · Stock: " ++ stock ++ " · Weight: " ++ weight
  product.name ++ "\n" ++ product.description ++ "\n" ++ details

/-- The chunk of a question and its answer, where both are there. -/
def qnaChunk (pair : KnowledgeQna) : Option KnowledgeChunk :=
  if trim pair.question = "" || trim pair.answer = "" then none
  else
    some {
      id := pair.id
      kind := .qna
      source := codeUnits "Q&A: " ++ truncate (trim pair.question) 48
      answer := codeUnits (trim pair.answer)
      primary := contentTokens R pair.question
      secondary := contentTokens R pair.answer }

def productChunk (lang : ChatLanguage) (product : KnowledgeProduct R) : KnowledgeChunk where
  id := product.id
  kind := .product
  source := codeUnits ("Product: " ++ product.name)
  answer := codeUnits (productAnswer product lang)
  primary := contentTokens R product.name
  secondary := contentTokens R (product.description ++ " harga price stok stock")

def catalogChunk (lang : ChatLanguage) (products : List (KnowledgeProduct R)) : KnowledgeChunk :=
  let names := ", ".intercalate ((products.take 6).map fun p => p.name)
  { id := "catalog"
    kind := .catalog
    source := codeUnits "Products"
    answer := codeUnits
      (if lang = .id then "Produk yang tersedia: " ++ names ++ ". Mau info produk yang mana, kak?"
      else "Available products: " ++ names ++ ". Which one would you like to know about?")
    primary := contentTokens R "produk katalog daftar jual jualan product products catalog sell"
    secondary := [] }

variable (R) in
/-- The chunks of a document, which begin with a title, or of a file. -/
def sectionChunks (id : String) (kind : ChunkKind) (source : String) (titled : Bool)
    (text : String) : List KnowledgeChunk :=
  (paragraphs text).zipIdx.map fun (section_, i) =>
    { id := id ++ "_" ++ toString i
      kind
      source := codeUnits source
      answer := sectionAnswer section_
      primary :=
        if titled then
          contentTokens R (String.ofList (section_.toList.takeWhile fun c => c ≠ '\n'))
        else []
      secondary := contentTokens R section_ }

/-- `buildKnowledgeIndex`. -/
def buildKnowledgeIndex (knowledge : AiAgentKnowledge R) (lang : ChatLanguage) :
    List KnowledgeChunk :=
  knowledge.qna.filterMap (qnaChunk (R := R)) ++
    knowledge.products.map (productChunk lang) ++
    (if knowledge.products.length > 0 then [catalogChunk lang knowledge.products] else []) ++
    (knowledge.texts.flatMap fun doc =>
      sectionChunks R doc.id .text ("Text: " ++ doc.title) true (htmlToText doc.content)) ++
    knowledge.files.flatMap fun file =>
      sectionChunks R file.id .file ("File: " ++ file.name) false file.content

/-! ## Ranking -/

variable (R) in
/-- `RankedChunk`. -/
structure RankedChunk where
  chunk : KnowledgeChunk
  score : R.Number

/-- The chunks that have a token. -/
def documentFrequency (chunks : List KnowledgeChunk) (token : String) : Nat :=
  (chunks.filter fun c => hasToken c.primary token || hasToken c.secondary token).length

variable (R) in
/-- How much a token that some chunk has weighs. -/
def idf (chunks : List KnowledgeChunk) (token : String) : R.Number :=
  R.log (R.add (R.ofNat 1)
    (R.div (R.ofNat chunks.length) (R.ofNat (documentFrequency chunks token))))

variable (R) in
/-- What a chunk has of the known tokens: their weight and their number. -/
def matched (chunks : List KnowledgeChunk) (known : List String) (chunk : KnowledgeChunk) :
    R.Number × Nat :=
  known.foldl (fun (weight, hits) t =>
    if hasToken chunk.primary t then (R.add weight (idf R chunks t), hits + 1)
    else if hasToken chunk.secondary t then
      (R.add weight (R.mul (idf R chunks t) R.fourFifths), hits + 1)
    else (weight, hits)) (R.ofNat 0, 0)

/-- The order of the ranking: the higher score first, and among equal ones the
kind that comes first. -/
def ranksBefore (a b : RankedChunk R) : Bool :=
  if R.eq a.score b.score then kindPriority a.chunk.kind ≤ kindPriority b.chunk.kind
  else R.lt b.score a.score

variable (R) in
/-- `rankKnowledge`, with `MATCH_THRESHOLD`.  `sort` is stable. -/
def rankKnowledge (chunks : List KnowledgeChunk) (query : String) : List (RankedChunk R) :=
  let queryTokens := contentTokens R query
  let known := queryTokens.filter fun t => documentFrequency chunks t > 0
  if queryTokens = [] || chunks = [] || known = [] then []
  else
    let total := known.foldl (fun sum t => R.add sum (idf R chunks t)) (R.ofNat 0)
    let ranked := chunks.filterMap fun chunk =>
      let (weight, hits) := matched R chunks known chunk
      let score := R.div weight total
      let coverage := R.div (R.ofNat hits) (R.ofNat queryTokens.length)
      if !R.lt score R.half && !R.lt coverage R.half then some ⟨chunk, score⟩ else none
    ranked.insertionSort fun a b => ranksBefore a b

end Index

end Vynor.AiAgents
