/-!
# Reading positions in a document

A cursor is the text still to be read together with the place it begins at, counted in characters,
lines and columns from zero. A line ends at a line feed, a carriage return with or without a line
feed, a next-line control, or a line or paragraph separator. Where a line end is kept as text, all
but the two separators become a line feed.
-/

namespace Vendoring.Yaml

/-- A place in a document, counted from zero. -/
structure Mark where
  index : Nat
  line : Nat
  column : Nat
deriving DecidableEq, Inhabited

/-- The rest of a document and the place it begins at. -/
structure Cursor where
  rest : List Char
  mark : Mark
deriving Inhabited

/-- Whether the character ends a line. -/
def isBreak (c : Char) : Bool :=
  c == '\n' || c == '\r' || c == '\x85' || c == '\u2028' || c == '\u2029'

/-- A space or a tab. -/
def isBlank (c : Char) : Bool :=
  c == ' ' || c == '\t'

/-- Whether a line ends here or the document does. -/
def isBreakOrEnd : Option Char → Bool
  | none => true
  | some c => isBreak c

/-- Whether a blank or a line end stands here, or the document ends. -/
def isGapOrEnd : Option Char → Bool
  | none => true
  | some c => isBlank c || isBreak c

/-- The characters of anchors, tag handles and directive names. -/
def isNameChar (c : Char) : Bool :=
  c.isAlphanum || c == '_' || c == '-'

/-- Characters that a document may hold. -/
def isAllowed (c : Char) : Bool :=
  let n := c.toNat
  n == 9 || n == 10 || n == 13 || (0x20 ≤ n && n ≤ 0x7e) || n == 0x85 ||
    (0xa0 ≤ n && n ≤ 0xd7ff) || (0xe000 ≤ n && n ≤ 0xfffd) || 0x10000 ≤ n

namespace Cursor

/-- The start of a document. -/
def start (text : List Char) : Cursor :=
  ⟨text, ⟨0, 0, 0⟩⟩

/-- The next character. -/
def head? (c : Cursor) : Option Char :=
  c.rest.head?

/-- The character some places ahead. -/
def ahead? (c : Cursor) (n : Nat) : Option Char :=
  c.rest[n]?

/-- Whether the next character is the given one. -/
def at_ (c : Cursor) (d : Char) : Bool :=
  c.head? == some d

/-- Behind the next character, on the same line. -/
def skip (c : Cursor) : Cursor :=
  match c.rest with
  | [] => c
  | _ :: rest => ⟨rest, ⟨c.mark.index + 1, c.mark.line, c.mark.column + 1⟩⟩

/-- Behind some characters of the same line. -/
def skipMany : Nat → Cursor → Cursor
  | 0, c => c
  | n + 1, c => skipMany n c.skip

/-- The line end that stands here, as text, and the cursor behind it. -/
def takeBreak (c : Cursor) : List Char × Cursor :=
  match c.rest with
  | '\r' :: '\n' :: rest => (['\n'], ⟨rest, ⟨c.mark.index + 2, c.mark.line + 1, 0⟩⟩)
  | d :: rest =>
    if isBreak d then
      (if d == '\u2028' || d == '\u2029' then [d] else ['\n'],
        ⟨rest, ⟨c.mark.index + 1, c.mark.line + 1, 0⟩⟩)
    else ([], c)
  | [] => ([], c)

/-- Behind the line end that stands here. -/
def skipBreak (c : Cursor) : Cursor :=
  c.takeBreak.2

/-- The characters of a class from here on, and the cursor behind them; no line end is in the
class. -/
def takeWhile (p : Char → Bool) (c : Cursor) : List Char × Cursor :=
  let taken := c.rest.takeWhile p
  (taken, ⟨c.rest.drop taken.length,
    ⟨c.mark.index + taken.length, c.mark.line, c.mark.column + taken.length⟩⟩)

/-- Behind the characters of a class. -/
def skipWhile (p : Char → Bool) (c : Cursor) : Cursor :=
  (c.takeWhile p).2

/-- Whether a document marker of three equal characters stands here, at the start of a line. -/
def atMarker (c : Cursor) (d : Char) : Bool :=
  c.mark.column == 0 && c.rest.take 3 == [d, d, d] && isGapOrEnd (c.ahead? 3)

end Cursor

/-- What is wrong with the notation of a document. -/
inductive Problem where
  | forbiddenCharacter
  | strayCharacter
  | missingColon
  | sequenceNotAllowed
  | keyNotAllowed
  | valueNotAllowed
  | badDirective
  | unknownDirective
  | badVersion
  | repeatedDirective
  | badAnchor
  | badTag
  | unknownTagHandle
  | badUriEscape
  | badBlockHeader
  | tabInIndentation
  | markerInQuotes
  | unclosedQuotes
  | unknownEscape
  | badCodePoint
  | strayColon
  | missingDocumentStart
  | missingContent
  | missingDash
  | missingKey
  | missingCommaOrBracket
  | missingCommaOrBrace
  | unknownAlias
  | severalDocuments
  | endOfDocument
deriving DecidableEq

/-- The wording of a problem. -/
def Problem.message : Problem → String
  | .forbiddenCharacter => "control characters are not allowed"
  | .strayCharacter => "found character that cannot start any token"
  | .missingColon => "could not find expected ':'"
  | .sequenceNotAllowed => "block sequence entries are not allowed in this context"
  | .keyNotAllowed => "mapping keys are not allowed in this context"
  | .valueNotAllowed => "mapping values are not allowed in this context"
  | .badDirective => "could not read the directive"
  | .unknownDirective => "found unknown directive name"
  | .badVersion => "found incompatible YAML document"
  | .repeatedDirective => "found duplicate directive"
  | .badAnchor => "did not find expected alphabetic or numeric character"
  | .badTag => "did not find expected tag URI"
  | .unknownTagHandle => "found undefined tag handle"
  | .badUriEscape => "did not find URI escaped octet"
  | .badBlockHeader => "did not find expected comment or line break"
  | .tabInIndentation => "found a tab character that violates indentation"
  | .markerInQuotes => "found unexpected document indicator"
  | .unclosedQuotes => "found unexpected end of stream"
  | .unknownEscape => "found unknown escape character"
  | .badCodePoint => "did not find expected hexdecimal number"
  | .strayColon => "found unexpected ':'"
  | .missingDocumentStart => "did not find expected <document start>"
  | .missingContent => "did not find expected node content"
  | .missingDash => "did not find expected '-' indicator"
  | .missingKey => "did not find expected key"
  | .missingCommaOrBracket => "did not find expected ',' or ']'"
  | .missingCommaOrBrace => "did not find expected ',' or '\x7d'"
  | .unknownAlias => "unknown anchor"
  | .severalDocuments => "deserializing from YAML containing more than one document is not supported"
  | .endOfDocument => "EOF while parsing a value"

end Vendoring.Yaml
