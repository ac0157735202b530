import Vendoring.Json
import Vendoring.Text.Quoted

/-!
# Writing values

A value is written without any white space, or with one item or field on a line, where each level is
indented by two more blanks. In a text the double quote, the backslash and the controls are written
with a backslash, and every other character stands for itself.
-/

namespace Vendoring.Json

/-- How one character of a text is written. -/
def writtenCharacter (c : Char) : List Char :=
  if c = '"' then ['\\', '"']
  else if c = '\\' then ['\\', '\\']
  else if c.toNat = 8 then ['\\', 'b']
  else if c = '\t' then ['\\', 't']
  else if c = '\n' then ['\\', 'n']
  else if c.toNat = 12 then ['\\', 'f']
  else if c = '\r' then ['\\', 'r']
  else if c.toNat < 0x20 then
    let digits := Text.hexadecimal c.toNat
    ['\\', 'u'] ++ List.replicate (4 - digits.length) '0' ++ digits
  else [c]

/-- A text with its quotes. -/
def writtenText (s : List Char) : List Char :=
  '"' :: s.flatMap writtenCharacter ++ ['"']

/-- The two ways to write a value. -/
inductive Layout where
  | compact
  | indented (level : Nat)

/-- The layout of the items of a value. -/
def Layout.inner : Layout → Layout
  | .compact => .compact
  | .indented level => .indented (level + 1)

/-- What starts a new item or the closing sign. -/
def Layout.lineStart : Layout → List Char
  | .compact => []
  | .indented level => '\n' :: List.replicate (2 * level) ' '

/-- What stands between a name and its value. -/
def Layout.colon : Layout → List Char
  | .compact => [':']
  | .indented _ => [':', ' ']

/-- Written items between two signs. -/
def enclosed (layout : Layout) (first last : Char) (items : List (List Char)) : List Char :=
  if items.isEmpty then [first, last]
  else
    first :: [','].intercalate (items.map fun item => layout.inner.lineStart ++ item)
      ++ layout.lineStart ++ [last]

mutual

/-- A value as it is written. -/
def written (layout : Layout) : Json → List Char
  | .null => ['n', 'u', 'l', 'l']
  | .boolean true => ['t', 'r', 'u', 'e']
  | .boolean false => ['f', 'a', 'l', 's', 'e']
  | .number text => text
  | .string text => writtenText text
  | .array items => enclosed layout '[' ']' (writtenItems layout.inner items)
  | .object fields => enclosed layout '\x7b' '\x7d' (writtenFields layout.inner fields)

/-- The items of an array as they are written. -/
def writtenItems (layout : Layout) : List Json → List (List Char)
  | [] => []
  | item :: items => written layout item :: writtenItems layout items

/-- The fields of an object as they are written. -/
def writtenFields (layout : Layout) : List (List Char × Json) → List (List Char)
  | [] => []
  | (name, value) :: fields =>
    (writtenText name ++ layout.colon ++ written layout value) :: writtenFields layout fields

end

/-- The value without white space. -/
def compact (value : Json) : String :=
  String.ofList (written .compact value)

/-- The value with one item or field on a line. -/
def pretty (value : Json) : String :=
  String.ofList (written (.indented 0) value)

end Vendoring.Json
