import Vendoring.Json
import Vendoring.Text.Substitution

/-!
# Reading values

`ofText?` reads the one value that a text holds, with white space around its parts. The readers
below take a part from the front of a text and give the text behind it. A text may spell characters
by code units, where two surrogates in the right order make up one character and others are refused.
-/

namespace Vendoring.Json

/-- Whether the character may stand between the parts of a value. -/
def isGap (c : Char) : Bool :=
  c == ' ' || c == '\t' || c == '\n' || c == '\r'

/-- The text behind any gaps. -/
def skipGaps (s : List Char) : List Char :=
  s.dropWhile isGap

/-- The value of a hexadecimal digit. -/
def hexDigit? (c : Char) : Option Nat :=
  if '0' ≤ c ∧ c ≤ '9' then some (c.toNat - 48)
  else if 'a' ≤ c ∧ c ≤ 'f' then some (c.toNat - 87)
  else if 'A' ≤ c ∧ c ≤ 'F' then some (c.toNat - 55)
  else none

/-- A code unit in four hexadecimal digits. -/
def codeUnit? : List Char → Option (Nat × List Char)
  | a :: b :: c :: d :: rest => do
    let a ← hexDigit? a
    let b ← hexDigit? b
    let c ← hexDigit? c
    let d ← hexDigit? d
    some (((a * 16 + b) * 16 + c) * 16 + d, rest)
  | _ => none

/-- A character spelled by one code unit or by two surrogates. -/
def spelled? (s : List Char) : Option (Char × List Char) := do
  let (unit, rest) ← codeUnit? s
  if 0xdc00 ≤ unit ∧ unit < 0xe000 then none
  else if 0xd800 ≤ unit ∧ unit < 0xdc00 then
    let rest ← Text.dropPrefix? ['\\', 'u'] rest
    let (low, rest) ← codeUnit? rest
    if 0xdc00 ≤ low ∧ low < 0xe000 then
      some (Char.ofNat (0x10000 + (unit - 0xd800) * 0x400 + (low - 0xdc00)), rest)
    else none
  else some (Char.ofNat unit, rest)

/-- The character that a sign behind a backslash stands for. -/
def escape? : Char → Option Char
  | '"' => some '"'
  | '\\' => some '\\'
  | '/' => some '/'
  | 'b' => some '\x08'
  | 'f' => some '\x0c'
  | 'n' => some '\n'
  | 'r' => some '\r'
  | 't' => some '\t'
  | _ => none

/-- A text behind its first quote, through its last one. -/
def textBody? : Nat → List Char → Option (List Char × List Char)
  | 0, _ => none
  | _ + 1, [] => none
  | steps + 1, c :: cs =>
    if c = '"' then some ([], cs)
    else if c.toNat < 0x20 then none
    else if c = '\\' then
      match cs with
      | 'u' :: rest => do
        let (d, rest) ← spelled? rest
        let (ds, rest) ← textBody? steps rest
        some (d :: ds, rest)
      | e :: rest => do
        let d ← escape? e
        let (ds, rest) ← textBody? steps rest
        some (d :: ds, rest)
      | [] => none
    else do
      let (ds, rest) ← textBody? steps cs
      some (c :: ds, rest)

/-- Digits, of which there must be one. -/
def digits? (s : List Char) : Option (List Char × List Char) :=
  let digits := s.takeWhile Char.isDigit
  if digits.isEmpty then none else some (digits, s.dropWhile Char.isDigit)

/-- The digits before the point: a zero stands alone. -/
def whole? : List Char → Option (List Char × List Char)
  | '0' :: rest => some (['0'], rest)
  | s => digits? s

/-- The digits behind a point, if there is one. -/
def fraction? : List Char → Option (List Char × List Char)
  | '.' :: rest => do
    let (digits, rest) ← digits? rest
    some ('.' :: digits, rest)
  | s => some ([], s)

/-- The exponent, if there is one. -/
def exponent? : List Char → Option (List Char × List Char)
  | c :: rest =>
    if c = 'e' ∨ c = 'E' then
      let sign := rest.take 1 |>.filter fun d => d == '+' || d == '-'
      do
        let (digits, rest) ← digits? (rest.drop sign.length)
        some (c :: sign ++ digits, rest)
    else some ([], c :: rest)
  | [] => some ([], [])

/-- A number. -/
def number? (s : List Char) : Option (Json × List Char) := do
  let sign := s.take 1 |>.filter (· == '-')
  let (whole, rest) ← whole? (s.drop sign.length)
  let (fraction, rest) ← fraction? rest
  let (exponent, rest) ← exponent? rest
  some (.number (sign ++ whole ++ fraction ++ exponent), rest)

/-- A constant. -/
def constant? (s : List Char) : Option (Json × List Char) :=
  let constants : List (List Char × Json) := [
    (['n', 'u', 'l', 'l'], .null),
    (['t', 'r', 'u', 'e'], .boolean true),
    (['f', 'a', 'l', 's', 'e'], .boolean false)]
  constants.findSome? fun (word, value) => (Text.dropPrefix? word s).map fun rest => (value, rest)

/-- A text with both of its quotes. -/
def text? : List Char → Option (List Char × List Char)
  | '"' :: rest => textBody? (rest.length + 1) rest
  | _ => none

mutual

/-- A value, behind any gaps. -/
def value? : Nat → List Char → Option (Json × List Char)
  | 0, _ => none
  | steps + 1, s =>
    match skipGaps s with
    | '[' :: rest =>
      match skipGaps rest with
      | ']' :: rest => some (.array [], rest)
      | _ => do
        let (items, rest) ← items? steps rest
        some (.array items, rest)
    | '\x7b' :: rest =>
      match skipGaps rest with
      | '\x7d' :: rest => some (.object [], rest)
      | _ => do
        let (fields, rest) ← fields? steps rest
        some (.object fields, rest)
    | '"' :: rest => do
      let (text, rest) ← textBody? (rest.length + 1) rest
      some (.string text, rest)
    | s => (constant? s).or (number? s)

/-- The items of an array, through its closing bracket. -/
def items? : Nat → List Char → Option (List Json × List Char)
  | 0, _ => none
  | steps + 1, s => do
    let (item, rest) ← value? steps s
    match skipGaps rest with
    | ',' :: rest =>
      let (items, rest) ← items? steps rest
      some (item :: items, rest)
    | ']' :: rest => some ([item], rest)
    | _ => none

/-- The fields of an object, through its closing brace. -/
def fields? : Nat → List Char → Option (List (List Char × Json) × List Char)
  | 0, _ => none
  | steps + 1, s => do
    let (name, rest) ← text? (skipGaps s)
    let rest ← Text.dropPrefix? [':'] (skipGaps rest)
    let (value, rest) ← value? steps rest
    match skipGaps rest with
    | ',' :: rest =>
      let (fields, rest) ← fields? steps rest
      some ((name, value) :: fields, rest)
    | '\x7d' :: rest => some ([(name, value)], rest)
    | _ => none

end

/-- The value that a text holds. -/
def ofText? (text : String) : Option Json := do
  let s := text.toList
  let (value, rest) ← value? (2 * s.length + 2) s
  if (skipGaps rest).isEmpty then some value else none

end Vendoring.Json
