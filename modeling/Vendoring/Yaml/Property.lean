import Vendoring.Yaml.Scalar

/-!
# Anchors, tags and directives

An anchor names a node for later aliases. A tag is written in full between angle brackets or as a
handle and a suffix, where a directive may have declared the handle. Octets in a tag may be written
with a percent sign and two digits.
-/

namespace Vendoring.Yaml

/-- Characters that may follow the name of an anchor directly. -/
def endsAnchor (c : Char) : Bool :=
  c == '?' || c == ':' || c == ',' || c == ']' || c == '\x7d' || c == '%' || c == '@' ||
    c == '\x60'

/-- The name of an anchor or alias, behind its sign. -/
def takeAnchor (c : Cursor) : Except Fault (List Char × Cursor) :=
  let (name, next) := c.skip.takeWhile isNameChar
  if name.isEmpty || !(isGapOrEnd next.head? || next.head?.any endsAnchor) then
    .error ⟨.badAnchor, next.mark⟩
  else .ok (name, next)

/-- Characters of a tag that stand for themselves; commas and brackets only between angle
brackets. -/
def isTagChar (verbatim : Bool) (c : Char) : Bool :=
  isNameChar c || [';', '/', '?', ':', '@', '&', '=', '+', '$', '.', '!', '~', '*', '\'', '(',
    ')'].contains c || (verbatim && [',', '[', ']'].contains c)

/-- An octet written with a percent sign. -/
def takeOctet (c : Cursor) : Except Fault (Nat × Cursor) :=
  match c.rest with
  | '%' :: a :: b :: _ =>
    match hexDigit? a, hexDigit? b with
    | some x, some y => .ok (16 * x + y, Cursor.skipMany 3 c)
    | _, _ => .error ⟨.badUriEscape, c.mark⟩
  | _ => .error ⟨.badUriEscape, c.mark⟩

/-- Further octets of one character. -/
def takeOctets : Nat → Nat → Cursor → Except Fault (Nat × Cursor)
  | 0, n, c => .ok (n, c)
  | count + 1, n, c => do
    let (octet, next) ← takeOctet c
    if octet / 64 = 2 then takeOctets count (n * 64 + octet % 64) next
    else .error ⟨.badUriEscape, c.mark⟩

/-- A character written as one to four octets. -/
def takeUriEscape (c : Cursor) : Except Fault (Char × Cursor) := do
  let (first, next) ← takeOctet c
  let (count, lead) ←
    if first < 0x80 then .ok (0, first)
    else if first / 32 = 6 then .ok (1, first % 32)
    else if first / 16 = 14 then .ok (2, first % 16)
    else if first / 8 = 30 then .ok (3, first % 8)
    else .error ⟨.badUriEscape, c.mark⟩
  let (n, next) ← takeOctets count lead next
  .ok (Char.ofNat n, next)

/-- The characters of a tag from here on. -/
def takeTagChars (verbatim : Bool) : Nat → List Char → Cursor → Except Fault (List Char × Cursor)
  | 0, text, c => .ok (text, c)
  | steps + 1, text, c =>
    match c.head? with
    | none => .ok (text, c)
    | some d =>
      if d == '%' then do
        let (e, next) ← takeUriEscape c
        takeTagChars verbatim steps (text ++ [e]) next
      else if isTagChar verbatim d then takeTagChars verbatim steps (text ++ [d]) c.skip
      else .ok (text, c)

/-- A tag or the rest of one. Text already read of it counts, but its leading sign is no part of the
result. -/
def takeUri (verbatim : Bool) (already : List Char) (c : Cursor) :
    Except Fault (List Char × Cursor) := do
  let (text, next) ← takeTagChars verbatim (c.rest.length + 1) [] c
  if already.isEmpty && text.isEmpty then .error ⟨.badTag, next.mark⟩
  else .ok (already.drop 1 ++ text, next)

/-- A tag handle: a sign, or a name between two signs. Without its second sign the name belongs to a
suffix, which a directive does not allow. -/
def takeHandle (directive : Bool) (c : Cursor) : Except Fault (List Char × Cursor) :=
  if !c.at_ '!' then .error ⟨.badTag, c.mark⟩
  else
    let (name, next) := c.skip.takeWhile isNameChar
    if next.at_ '!' then .ok ('!' :: name ++ ['!'], next.skip)
    else if directive && !name.isEmpty then .error ⟨.badTag, next.mark⟩
    else .ok ('!' :: name, next)

/-- A tag: its handle, which is empty for one written in full, its suffix, and the cursor. -/
def takeTag (flow : Bool) (c : Cursor) : Except Fault (List Char × List Char × Cursor) := do
  let (handle, suffix, next) ←
    if c.ahead? 1 == some '<' then do
      let (suffix, next) ← takeUri true [] c.skip.skip
      if next.at_ '>' then .ok ([], suffix, next.skip) else .error ⟨.badTag, next.mark⟩
    else do
      let (handle, next) ← takeHandle false c
      if 1 < handle.length && handle.getLast? == some '!' then do
        let (suffix, next) ← takeUri false [] next
        .ok (handle, suffix, next)
      else do
        let (suffix, next) ← takeUri false handle next
        if suffix.isEmpty then .ok ([], ['!'], next) else .ok (['!'], suffix, next)
  if isGapOrEnd next.head? || (flow && next.at_ ',') then .ok (handle, suffix, next)
  else .error ⟨.badTag, next.mark⟩

/-- A number of a version, of nine digits at most. -/
def takeVersionNumber (c : Cursor) : Except Fault (Nat × Cursor) :=
  let (digits, next) := c.takeWhile Char.isDigit
  if digits.isEmpty || 9 < digits.length then .error ⟨.badDirective, next.mark⟩
  else .ok (digits.foldl (fun n d => n * 10 + (d.toNat - 48)) 0, next)

/-- A directive with the rest of its line. -/
def takeDirective (c : Cursor) : Except Fault (Token × Cursor) := do
  let (name, next) := c.skip.takeWhile isNameChar
  if name.isEmpty || !isGapOrEnd next.head? then .error ⟨.badDirective, next.mark⟩
  else do
    let (token, next) ←
      if name = ['Y', 'A', 'M', 'L'] then do
        let (major, next) ← takeVersionNumber (next.skipWhile isBlank)
        if !next.at_ '.' then .error ⟨.badDirective, next.mark⟩
        else do
          let (minor, next) ← takeVersionNumber next.skip
          .ok (Token.versionDirective major minor, next)
      else if name = ['T', 'A', 'G'] then do
        let (handle, next) ← takeHandle true (next.skipWhile isBlank)
        if !next.head?.any isBlank then .error ⟨.badDirective, next.mark⟩
        else do
          let (tagPrefix, next) ← takeUri true [] (next.skipWhile isBlank)
          if isGapOrEnd next.head? then .ok (Token.tagDirective handle tagPrefix, next)
          else .error ⟨.badDirective, next.mark⟩
      else .error ⟨.unknownDirective, c.mark⟩
    let next := next.skipWhile isBlank
    let next := if next.at_ '#' then next.skipWhile (fun d => !isBreak d) else next
    if isBreakOrEnd next.head? then .ok (token, next.skipBreak)
    else .error ⟨.badDirective, next.mark⟩

end Vendoring.Yaml
