import Vendoring.Text.Printable

/-!
# Quoted texts in messages

A message shows a text between double quotes. The double quote, the backslash and the usual controls
are written with a backslash; a character that would not be visible by itself is written by its code
point in hexadecimal; every other character stands for itself. Paths are shown alike, except that a
single quote is escaped as well.
-/

namespace Vendoring.Text

/-- A number in lower-case hexadecimal digits. -/
def hexadecimal (n : Nat) : List Char :=
  Nat.toDigits 16 n

/-- How one character is written between quotes. -/
def quotedCharacter (c : Char) : List Char :=
  if c = '\x00' then ['\\', '0']
  else if c = '\t' then ['\\', 't']
  else if c = '\r' then ['\\', 'r']
  else if c = '\n' then ['\\', 'n']
  else if c = '"' then ['\\', '"']
  else if c = '\\' then ['\\', '\\']
  else if isPrintable c then [c]
  else ['\\', 'u', '\x7b'] ++ hexadecimal c.toNat ++ ['\x7d']

/-- How one character of a path is written between quotes. -/
def quotedPathCharacter (c : Char) : List Char :=
  if c = '\'' then ['\\', '\''] else quotedCharacter c

/-- A text between double quotes. -/
def quoted (s : String) : String :=
  String.ofList ('"' :: s.toList.flatMap quotedCharacter ++ ['"'])

/-- The text of a path between double quotes. -/
def quotedPath (s : String) : String :=
  String.ofList ('"' :: s.toList.flatMap quotedPathCharacter ++ ['"'])

end Vendoring.Text
