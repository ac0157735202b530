import Vendoring.Yaml.Token

/-!
# Reading scalars

A scalar is text in one of five notations. Plain and quoted scalars may run over several lines; the
blanks and line ends between two parts form a gap, which is folded: blanks on one line stay, one
line end becomes a space, and of several the first is dropped. Block scalars keep their lines, or
fold them if they ask for it, and cut or keep the line ends at their end.

The readers take a bound on their steps from the length of the rest of the document; every step
consumes a character.
-/

namespace Vendoring.Yaml

/-- A problem and the place where it was noticed. -/
structure Fault where
  problem : Problem
  mark : Mark

/-- Blanks and line ends between two parts of a scalar. -/
structure Gap where
  blanks : List Char
  firstBreak : List Char
  moreBreaks : List Char
  broken : Bool

/-- The gap before anything was read. -/
def Gap.none : Gap := ⟨[], [], [], false⟩

/-- The gap behind a line end that an escape hides. -/
def Gap.escaped : Gap := ⟨[], [], [], true⟩

/-- What a gap contributes to the text. -/
def Gap.fold (g : Gap) : List Char :=
  if g.broken then
    if g.firstBreak = ['\n'] then
      if g.moreBreaks = [] then [' '] else g.moreBreaks
    else g.firstBreak ++ g.moreBreaks
  else g.blanks

/-- Read a gap. Behind a line end, a tab left of the given column is a fault. -/
def takeGap (column : Nat) : Nat → Gap → Cursor → Except Fault (Gap × Cursor)
  | 0, g, c => .ok (g, c)
  | steps + 1, g, c =>
    match c.head? with
    | none => .ok (g, c)
    | some d =>
      if isBlank d then
        if g.broken && c.mark.column < column && d == '\t' then
          .error ⟨.tabInIndentation, c.mark⟩
        else if g.broken then takeGap column steps g c.skip
        else takeGap column steps { g with blanks := g.blanks ++ [d] } c.skip
      else if isBreak d then
        let (taken, next) := c.takeBreak
        if g.broken then takeGap column steps { g with moreBreaks := g.moreBreaks ++ taken } next
        else takeGap column steps ⟨[], taken, g.moreBreaks, true⟩ next
      else .ok (g, c)

/-! ## Plain scalars -/

/-- Characters that end a plain scalar inside brackets. -/
def isFlowIndicator (c : Char) : Bool :=
  c == ',' || c == '[' || c == ']' || c == '\x7b' || c == '\x7d'

/-- The part of a plain scalar up to the next gap or to an indicator that ends the scalar. Inside
brackets a colon before an indicator is a fault (no result). -/
def plainRun (flow : Bool) : List Char → Option (List Char)
  | [] => some []
  | d :: rest =>
    if isBlank d || isBreak d then some []
    else if flow && d == ':' && rest.head?.any (fun e => isFlowIndicator e || e == '?') then none
    else if (d == ':' && isGapOrEnd rest.head?) || (flow && isFlowIndicator d) then some []
    else (plainRun flow rest).map (d :: ·)

/-- A scalar that was read: its text, the place behind it, the cursor and whether a line end was
passed behind its last part. -/
structure ScalarReading where
  text : List Char
  stop : Mark
  cursor : Cursor
  brokenBehind : Bool

/-- Read a plain scalar on. Lines that go on must be indented to the given column, except inside
brackets. -/
def plainFrom (flow : Bool) (column : Nat) :
    Nat → List Char → Gap → Mark → Cursor → Except Fault ScalarReading
  | 0, text, g, stop, c => .ok ⟨text, stop, c, g.broken⟩
  | steps + 1, text, g, stop, c =>
    if c.atMarker '-' || c.atMarker '.' || c.at_ '#' then .ok ⟨text, stop, c, g.broken⟩
    else match plainRun flow c.rest with
      | none => .error ⟨.strayColon, c.mark⟩
      | some [] => .ok ⟨text, stop, c, g.broken⟩
      | some run =>
        let next := Cursor.skipMany run.length c
        let text := text ++ g.fold ++ run
        if next.head?.any (fun d => isBlank d || isBreak d) then do
          let (gap, behind) ← takeGap column (next.rest.length + 1) Gap.none next
          if !flow && behind.mark.column < column then
            .ok ⟨text, next.mark, behind, gap.broken⟩
          else plainFrom flow column steps text gap next.mark behind
        else .ok ⟨text, next.mark, next, false⟩

/-- Read a plain scalar. -/
def takePlain (flow : Bool) (column : Nat) (c : Cursor) : Except Fault ScalarReading :=
  plainFrom flow column (c.rest.length + 1) [] Gap.none c.mark c

/-! ## Quoted scalars -/

/-- The character that a letter behind a backslash stands for. -/
def escaped? (c : Char) : Option Char :=
  match c with
  | '0' => some '\x00'
  | 'a' => some '\x07'
  | 'b' => some '\x08'
  | 't' => some '\t'
  | '\t' => some '\t'
  | 'n' => some '\n'
  | 'v' => some '\x0b'
  | 'f' => some '\x0c'
  | 'r' => some '\r'
  | 'e' => some '\x1b'
  | ' ' => some ' '
  | '"' => some '"'
  | '/' => some '/'
  | '\\' => some '\\'
  | 'N' => some '\x85'
  | '_' => some '\xa0'
  | 'L' => some '\u2028'
  | 'P' => some '\u2029'
  | _ => none

/-- How many hexadecimal digits follow a letter behind a backslash. -/
def escapeDigits? (c : Char) : Option Nat :=
  match c with
  | 'x' => some 2
  | 'u' => some 4
  | 'U' => some 8
  | _ => none

/-- The value of a hexadecimal digit. -/
def hexDigit? (c : Char) : Option Nat :=
  if '0' ≤ c && c ≤ '9' then some (c.toNat - 48)
  else if 'a' ≤ c && c ≤ 'f' then some (c.toNat - 87)
  else if 'A' ≤ c && c ≤ 'F' then some (c.toNat - 55)
  else none

/-- The value of hexadecimal digits. -/
def hexValue? (digits : List Char) : Option Nat :=
  digits.foldlM (fun n d => (hexDigit? d).map (n * 16 + ·)) 0

/-- Whether the number is the code point of a character. -/
def isCodePoint (n : Nat) : Bool :=
  n < 0xd800 || (0xdfff < n && n < 0x110000)

/-- The character that an escape stands for, and the cursor behind it. -/
def takeEscape (c : Cursor) : Except Fault (Char × Cursor) :=
  match c.ahead? 1 with
  | none => .error ⟨.unknownEscape, c.mark⟩
  | some letter =>
    match escaped? letter, escapeDigits? letter with
    | some d, _ => .ok (d, c.skip.skip)
    | none, none => .error ⟨.unknownEscape, c.mark⟩
    | none, some count =>
      let digits := c.skip.skip
      match hexValue? (digits.rest.take count) with
      | some n =>
        if digits.rest.length < count || !isCodePoint n then .error ⟨.badCodePoint, c.mark⟩
        else .ok (Char.ofNat n, Cursor.skipMany count digits)
      | none => .error ⟨.badCodePoint, c.mark⟩

/-- The part of a quoted scalar up to the next gap or to the closing quote, and whether an escape
hides the line end behind it. -/
def quotedRun (single : Bool) :
    Nat → List Char → Cursor → Except Fault (List Char × Cursor × Bool)
  | 0, text, c => .ok (text, c, false)
  | steps + 1, text, c =>
    match c.head? with
    | none => .ok (text, c, false)
    | some d =>
      if isBlank d || isBreak d then .ok (text, c, false)
      else if single then
        if d == '\'' then
          if c.ahead? 1 == some '\'' then quotedRun single steps (text ++ ['\'']) c.skip.skip
          else .ok (text, c, false)
        else quotedRun single steps (text ++ [d]) c.skip
      else if d == '"' then .ok (text, c, false)
      else if d == '\\' then
        if (c.ahead? 1).any isBreak then .ok (text, c.skip.skipBreak, true)
        else do
          let (e, next) ← takeEscape c
          quotedRun single steps (text ++ [e]) next
      else quotedRun single steps (text ++ [d]) c.skip

/-- Read a quoted scalar on, behind its opening quote. -/
def quotedFrom (single : Bool) : Nat → List Char → Cursor → Except Fault ScalarReading
  | 0, _, c => .error ⟨.unclosedQuotes, c.mark⟩
  | steps + 1, text, c =>
    if c.atMarker '-' || c.atMarker '.' then .error ⟨.markerInQuotes, c.mark⟩
    else if c.rest.isEmpty then .error ⟨.unclosedQuotes, c.mark⟩
    else do
      let (run, next, hidden) ← quotedRun single (c.rest.length + 1) [] c
      if next.at_ (if single then '\'' else '"') then
        .ok ⟨text ++ run, next.skip.mark, next.skip, false⟩
      else
        let (gap, behind) ←
          takeGap 0 (next.rest.length + 1) (if hidden then Gap.escaped else Gap.none) next
        quotedFrom single steps (text ++ run ++ gap.fold) behind

/-- Read a quoted scalar. -/
def takeQuoted (single : Bool) (c : Cursor) : Except Fault ScalarReading :=
  quotedFrom single (c.rest.length + 1) [] c.skip

/-! ## Block scalars -/

/-- What becomes of the line ends at the end of a block scalar. -/
inductive Chomping where
  | strip
  | clip
  | keep
deriving DecidableEq

/-- The chomping sign, if one stands here. -/
def takeChomping (c : Cursor) : Option Chomping × Cursor :=
  if c.at_ '+' then (some .keep, c.skip)
  else if c.at_ '-' then (some .strip, c.skip)
  else (none, c)

/-- The indentation digit, if one stands here; it is not zero. -/
def takeIncrement (c : Cursor) : Except Fault (Option Nat × Cursor) :=
  match c.head? with
  | some d =>
    if d == '0' then .error ⟨.badBlockHeader, c.mark⟩
    else if d.isDigit then .ok (some (d.toNat - 48), c.skip)
    else .ok (none, c)
  | none => .ok (none, c)

/-- The header of a block scalar, behind its sign: chomping and indentation in either order, then a
comment at most. -/
def takeBlockHeader (c : Cursor) : Except Fault (Chomping × Option Nat × Cursor) := do
  let (first, c) := takeChomping c
  let (increment, c) ← takeIncrement c
  let (second, c) := if first.isNone && increment.isSome then takeChomping c else (none, c)
  let c := c.skipWhile isBlank
  let c := if c.at_ '#' then c.skipWhile (fun d => !isBreak d) else c
  if isBreakOrEnd c.head? then
    .ok ((first.or second).getD .clip, increment, c.skipBreak)
  else .error ⟨.badBlockHeader, c.mark⟩

/-- Indentation and empty lines in front of the next line of a block scalar. An indentation of zero
is not known yet: then all spaces count, and the deepest indentation is found. -/
def blockLead (indent : Nat) :
    Nat → Nat → List Char → Mark → Cursor → Except Fault (Nat × List Char × Mark × Cursor)
  | 0, deepest, breaks, stop, c => .ok (deepest, breaks, stop, c)
  | steps + 1, deepest, breaks, stop, c =>
    let spaces := (c.rest.takeWhile (· == ' ')).length
    let c := Cursor.skipMany
      (if indent = 0 then spaces else min spaces (indent - c.mark.column)) c
    let deepest := max deepest c.mark.column
    if (indent = 0 || c.mark.column < indent) && c.at_ '\t' then
      .error ⟨.tabInIndentation, c.mark⟩
    else if c.head?.any isBreak then
      let (taken, next) := c.takeBreak
      blockLead indent steps deepest (breaks ++ taken) next.mark next
    else .ok (deepest, breaks, stop, c)

/-- Read the lines of a block scalar on. `lastBreak` is the line end behind the last line, and
`emptyLines` are the line ends of the empty lines behind it. -/
def blockFrom (folds : Bool) (indent : Nat) :
    Nat → List Char → List Char → List Char → Bool → Mark → Cursor →
      Except Fault (List Char × List Char × List Char × Mark × Cursor)
  | 0, text, lastBreak, emptyLines, _, stop, c => .ok (text, lastBreak, emptyLines, stop, c)
  | steps + 1, text, lastBreak, emptyLines, blankBefore, stop, c =>
    if c.mark.column = indent && !c.rest.isEmpty then do
      let startsBlank := c.head?.any isBlank
      let joined :=
        if folds && lastBreak = ['\n'] && !blankBefore && !startsBlank then
          if emptyLines = [] then [' '] else []
        else lastBreak
      let (line, next) := c.takeWhile (fun d => !isBreak d)
      let (taken, next) := next.takeBreak
      let (_, breaks, stop, behind) ← blockLead indent (next.rest.length + 1) 0 [] next.mark next
      blockFrom folds indent steps (text ++ joined ++ emptyLines ++ line) taken breaks startsBlank
        stop behind
    else .ok (text, lastBreak, emptyLines, stop, c)

/-- Read a block scalar inside a block of the given indentation, which is -1 at the top. -/
def takeBlock (folds : Bool) (parent : Int) (c : Cursor) : Except Fault ScalarReading := do
  let (chomping, increment, c) ← takeBlockHeader c.skip
  let known := match increment with
    | none => 0
    | some n => if 0 ≤ parent then parent.toNat + n else n
  let (deepest, breaks, stop, c) ← blockLead known (c.rest.length + 1) 0 [] c.mark c
  let indent := if known = 0 then max (max deepest (parent + 1).toNat) 1 else known
  let (text, lastBreak, emptyLines, stop, c) ←
    blockFrom folds indent (c.rest.length + 1) [] [] breaks false stop c
  let tail := match chomping with
    | .strip => []
    | .clip => lastBreak
    | .keep => lastBreak ++ emptyLines
  .ok ⟨text ++ tail, stop, c, false⟩

end Vendoring.Yaml
