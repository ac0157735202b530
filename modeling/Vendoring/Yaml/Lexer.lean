import Vendoring.Yaml.Property

/-!
# From characters to tokens

The lexer hands out tokens one by one and reads no further than it must. Blocks begin and end by
indentation, so a token is preceded by the starts and ends that its column calls for. A key written
without a sign shows only at the colon behind it: where a key could begin, the lexer remembers the
place as a candidate, keeps the tokens from there on back, and puts the key in front of them when
the colon comes. A candidate lapses at the end of its line or after 1024 characters; where a block
needs a key, that is a fault.
-/

namespace Vendoring.Yaml

/-- A place where a key without a sign may have begun: whether one may still come of it, whether the
block needs it, the number of its first token, and where it is. -/
structure Candidate where
  possible : Bool
  required : Bool
  number : Nat
  mark : Mark

/-- The candidate of a place where none can be. -/
def Candidate.none : Candidate := ⟨false, false, 0, ⟨0, 0, 0⟩⟩

/-- The state between two tokens: the rest of the document, the tokens read but not handed out, how
many were handed out, the column of the innermost block and of those around it (-1 at the top), the
candidate of the innermost bracket and of those around it, and whether a key may begin here. -/
structure Lexer where
  cursor : Cursor
  queue : List PlacedToken
  taken : Nat
  started : Bool
  indent : Int
  outerIndents : List Int
  candidate : Candidate
  outerCandidates : List Candidate
  keyAllowed : Bool

namespace Lexer

/-- The lexer at the start of a document. -/
def start (text : List Char) : Lexer :=
  ⟨Cursor.start text, [], 0, false, -1, [], Candidate.none, [], true⟩

/-- Whether the lexer is inside brackets. -/
def inFlow (l : Lexer) : Bool :=
  !l.outerCandidates.isEmpty

/-- Where the lexer is. -/
def mark (l : Lexer) : Mark :=
  l.cursor.mark

/-- Add a token at the end. -/
def push (l : Lexer) (token : Token) (start stop : Mark) : Lexer :=
  { l with queue := l.queue ++ [⟨token, start, stop⟩] }

/-- Put a token in front of the one with the given number. -/
def insert (l : Lexer) (number : Nat) (token : Token) (mark : Mark) : Lexer :=
  let (front, back) := l.queue.splitAt (number - l.taken)
  { l with queue := front ++ ⟨token, mark, mark⟩ :: back }

/-- Give up a candidate; one that a block needs cannot be given up. -/
def lapse (candidate : Candidate) (here : Mark) : Except Fault Candidate :=
  if candidate.possible && candidate.required then .error ⟨.missingColon, here⟩
  else .ok { candidate with possible := false }

/-- Let the candidates lapse that lie on earlier lines or too far back. -/
def dropStale (l : Lexer) : Except Fault Lexer := do
  let check (candidate : Candidate) : Except Fault Candidate :=
    if candidate.possible &&
        (candidate.mark.line < l.mark.line || candidate.mark.index + 1024 < l.mark.index) then
      lapse candidate l.mark
    else .ok candidate
  let outer ← l.outerCandidates.reverse.mapM check
  let candidate ← check l.candidate
  .ok { l with candidate, outerCandidates := outer.reverse }

/-- Give up the innermost candidate. -/
def dropCandidate (l : Lexer) : Except Fault Lexer := do
  let candidate ← lapse l.candidate l.mark
  .ok { l with candidate }

/-- Remember this place as a candidate if a key may begin here. -/
def saveCandidate (l : Lexer) : Except Fault Lexer :=
  if l.keyAllowed then do
    let required := !l.inFlow && l.indent == l.mark.column
    let l ← l.dropCandidate
    .ok { l with candidate := ⟨true, required, l.taken + l.queue.length, l.mark⟩ }
  else .ok l

/-- Begin a block at a column if it lies deeper than the block around it. The start is put in front
of the token with the given number, or at the end. -/
def openBlock (l : Lexer) (column : Nat) (number : Option Nat) (token : Token) (mark : Mark) :
    Lexer :=
  if l.inFlow || (column : Int) ≤ l.indent then l
  else
    let l := { l with outerIndents := l.indent :: l.outerIndents, indent := column }
    match number with
    | none => l.push token mark mark
    | some n => l.insert n token mark

/-- End the blocks that lie deeper than a column. -/
def closeBlocks (column : Int) : List Int → Lexer → Lexer
  | [], l => l
  | outer :: rest, l =>
    if column < l.indent then
      closeBlocks column rest
        ({ l with indent := outer, outerIndents := rest }.push .blockEnd l.mark l.mark)
    else l

/-- End the blocks that lie deeper than a column, except inside brackets. -/
def unindent (l : Lexer) (column : Int) : Lexer :=
  if l.inFlow then l else closeBlocks column l.outerIndents l

/-- Pass blanks, comments and line ends, and a byte order mark at the start of a line, which counts
as a column. At the start of a line outside brackets tabs are no blanks. -/
def skipGap : Nat → Lexer → Lexer
  | 0, l => l
  | steps + 1, l =>
    let c := if l.mark.column = 0 && l.cursor.at_ '\ufeff' then l.cursor.skip else l.cursor
    let c := c.skipWhile
      (fun d => d == ' ' || ((l.inFlow || !l.keyAllowed) && d == '\t'))
    let c := if c.at_ '#' then c.skipWhile (fun d => !isBreak d) else c
    if c.head?.any isBreak then
      skipGap steps { l with cursor := c.skipBreak, keyAllowed := l.keyAllowed || !l.inFlow }
    else { l with cursor := c }

/-- Read a token of one sign. -/
def takeSign (l : Lexer) (token : Token) : Lexer :=
  { l with cursor := l.cursor.skip }.push token l.mark l.cursor.skip.mark

/-- Read the end of the document. -/
def takeEnd (l : Lexer) : Except Fault Lexer := do
  let c := l.cursor
  let c := if c.mark.column = 0 then c else { c with mark := ⟨c.mark.index, c.mark.line + 1, 0⟩ }
  let l := { l with cursor := c }.unindent (-1)
  let l ← l.dropCandidate
  .ok ({ l with keyAllowed := false }.push .streamEnd l.mark l.mark)

/-- Read a directive. -/
def takeDirectiveLine (l : Lexer) : Except Fault Lexer := do
  let l ← (l.unindent (-1)).dropCandidate
  let (token, next) ← takeDirective l.cursor
  .ok ({ l with cursor := next, keyAllowed := false }.push token l.mark next.mark)

/-- Read a document marker. -/
def takeMarker (l : Lexer) (token : Token) : Except Fault Lexer := do
  let l ← (l.unindent (-1)).dropCandidate
  let next := Cursor.skipMany 3 l.cursor
  .ok ({ l with cursor := next, keyAllowed := false }.push token l.mark next.mark)

/-- Read an opening bracket. -/
def openFlow (l : Lexer) (token : Token) : Except Fault Lexer := do
  let l ← l.saveCandidate
  .ok ({ l with
    candidate := Candidate.none
    outerCandidates := l.candidate :: l.outerCandidates
    keyAllowed := true }.takeSign token)

/-- Read a closing bracket. -/
def closeFlow (l : Lexer) (token : Token) : Except Fault Lexer := do
  let l ← l.dropCandidate
  let l := match l.outerCandidates with
    | [] => l
    | candidate :: rest => { l with candidate, outerCandidates := rest }
  .ok ({ l with keyAllowed := false }.takeSign token)

/-- Read a comma between entries. -/
def takeComma (l : Lexer) : Except Fault Lexer := do
  let l ← l.dropCandidate
  .ok ({ l with keyAllowed := true }.takeSign .flowEntry)

/-- Read the dash of a sequence entry. -/
def takeDash (l : Lexer) : Except Fault Lexer := do
  let l ←
    if l.inFlow then .ok l
    else if l.keyAllowed then
      .ok (l.openBlock l.mark.column none .blockSequenceStart l.mark)
    else .error ⟨.sequenceNotAllowed, l.mark⟩
  let l ← l.dropCandidate
  .ok ({ l with keyAllowed := true }.takeSign .blockEntry)

/-- Read the sign of a key. -/
def takeKeySign (l : Lexer) : Except Fault Lexer := do
  let l ←
    if l.inFlow then .ok l
    else if l.keyAllowed then .ok (l.openBlock l.mark.column none .blockMappingStart l.mark)
    else .error ⟨.keyNotAllowed, l.mark⟩
  let l ← l.dropCandidate
  .ok ({ l with keyAllowed := !l.inFlow }.takeSign .key)

/-- Read a colon. If a key may have begun before it, that was one. -/
def takeColon (l : Lexer) : Except Fault Lexer :=
  if l.candidate.possible then
    let key := l.candidate
    let l := l.insert key.number .key key.mark
    let l := l.openBlock key.mark.column (some key.number) .blockMappingStart key.mark
    .ok ({ l with
      candidate := { key with possible := false }
      keyAllowed := false }.takeSign .value)
  else if l.inFlow then .ok ({ l with keyAllowed := false }.takeSign .value)
  else if l.keyAllowed then
    .ok ({ l.openBlock l.mark.column none .blockMappingStart l.mark with
      keyAllowed := true }.takeSign .value)
  else .error ⟨.valueNotAllowed, l.mark⟩

/-- Read an anchor or alias. -/
def takeAnchorToken (l : Lexer) (token : List Char → Token) : Except Fault Lexer := do
  let l ← l.saveCandidate
  let (name, next) ← takeAnchor l.cursor
  .ok ({ l with cursor := next, keyAllowed := false }.push (token name) l.mark next.mark)

/-- Read a tag. -/
def takeTagToken (l : Lexer) : Except Fault Lexer := do
  let l ← l.saveCandidate
  let (handle, suffix, next) ← takeTag l.inFlow l.cursor
  .ok ({ l with cursor := next, keyAllowed := false }.push (.tag handle suffix) l.mark next.mark)

/-- Read a block scalar. -/
def takeBlockToken (l : Lexer) (style : ScalarStyle) : Except Fault Lexer := do
  let l ← l.dropCandidate
  let s ← takeBlock (style = .folded) l.indent l.cursor
  .ok ({ l with cursor := s.cursor, keyAllowed := true }.push (.scalar s.text style) l.mark s.stop)

/-- Read a quoted scalar. -/
def takeQuotedToken (l : Lexer) (style : ScalarStyle) : Except Fault Lexer := do
  let l ← l.saveCandidate
  let s ← takeQuoted (style = .singleQuoted) l.cursor
  .ok ({ l with cursor := s.cursor, keyAllowed := false }.push
    (.scalar s.text style) l.mark s.stop)

/-- Read a plain scalar. Behind a line end a key may begin. -/
def takePlainToken (l : Lexer) : Except Fault Lexer := do
  let l ← l.saveCandidate
  let s ← takePlain l.inFlow (l.indent + 1).toNat l.cursor
  .ok ({ l with cursor := s.cursor, keyAllowed := s.brokenBehind }.push
    (.scalar s.text .plain) l.mark s.stop)

/-- Signs that no plain scalar begins with. -/
def isIndicator (c : Char) : Bool :=
  ['-', '?', ':', ',', '[', ']', '\x7b', '\x7d', '#', '&', '*', '!', '|', '>', '\'', '"', '%', '@',
    '\x60'].contains c

/-- Whether a plain scalar begins here. A dash, and outside brackets a question mark or a colon,
begins one if no gap follows. -/
def startsPlain (l : Lexer) (c : Char) : Bool :=
  let next := l.cursor.ahead? 1
  !(isBlank c || isBreak c || isIndicator c) ||
    (c == '-' && !next.any isBlank) ||
    (!l.inFlow && (c == '?' || c == ':') && !isGapOrEnd next)

/-- Read the next token, with the starts and ends of blocks in front of it. -/
def takeNext (l : Lexer) : Except Fault Lexer := do
  let l := skipGap (l.cursor.rest.length + 1) l
  let l ← l.dropStale
  let l := l.unindent l.mark.column
  match l.cursor.head? with
  | none => l.takeEnd
  | some c =>
    let gapBehind := isGapOrEnd (l.cursor.ahead? 1)
    if l.mark.column = 0 && c == '%' then l.takeDirectiveLine
    else if l.cursor.atMarker '-' then l.takeMarker .documentStart
    else if l.cursor.atMarker '.' then l.takeMarker .documentEnd
    else if c == '[' then l.openFlow .flowSequenceStart
    else if c == '\x7b' then l.openFlow .flowMappingStart
    else if c == ']' then l.closeFlow .flowSequenceEnd
    else if c == '\x7d' then l.closeFlow .flowMappingEnd
    else if c == ',' then l.takeComma
    else if c == '-' && gapBehind then l.takeDash
    else if c == '?' && (l.inFlow || gapBehind) then l.takeKeySign
    else if c == ':' && (l.inFlow || gapBehind) then l.takeColon
    else if c == '*' then l.takeAnchorToken .alias
    else if c == '&' then l.takeAnchorToken .anchor
    else if c == '!' then l.takeTagToken
    else if c == '|' && !l.inFlow then l.takeBlockToken .literal
    else if c == '>' && !l.inFlow then l.takeBlockToken .folded
    else if c == '\'' then l.takeQuotedToken .singleQuoted
    else if c == '"' then l.takeQuotedToken .doubleQuoted
    else if l.startsPlain c then l.takePlainToken
    else .error ⟨.strayCharacter, l.mark⟩

/-- Whether the first token in the queue may still get a key in front of it. -/
def undecided (l : Lexer) : Bool :=
  (l.candidate :: l.outerCandidates).any fun k => k.possible && k.number == l.taken

/-- Read tokens until the first one is decided. -/
def fill : Nat → Lexer → Except Fault Lexer
  | 0, l => .ok l
  | steps + 1, l =>
    if l.queue.isEmpty then do
      let l ← l.takeNext
      fill steps l
    else do
      let l ← l.dropStale
      if l.undecided then do
        let l ← l.takeNext
        fill steps l
      else .ok l

/-- The next token, which stays where it is. -/
def peek (l : Lexer) : Except Fault (PlacedToken × Lexer) := do
  let l ←
    if l.started then fill (l.cursor.rest.length + 2) l
    else if l.cursor.rest.all isAllowed then
      .ok ({ l with started := true }.push .streamStart l.mark l.mark)
    else .error ⟨.forbiddenCharacter, l.mark⟩
  match l.queue with
  | token :: _ => .ok (token, l)
  | [] => .error ⟨.endOfDocument, l.mark⟩

/-- Hand out the first token. -/
def drop (l : Lexer) : Lexer :=
  { l with queue := l.queue.drop 1, taken := l.taken + 1 }

end Lexer

end Vendoring.Yaml
