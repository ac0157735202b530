/-!
# White space

White space is the class of the same name in the character standard: the ASCII blanks and line
breaks, the next-line control, the no-break spaces, the typographic spaces and the line and
paragraph separators. Trimming removes it from the ends of a text.
-/

namespace Vendoring.Text

/-- Whether the character is white space. -/
def isSpace (c : Char) : Bool :=
  let n := c.toNat
  (9 ≤ n && n ≤ 13) || n == 0x20 || n == 0x85 || n == 0xa0 || n == 0x1680 ||
    (0x2000 ≤ n && n ≤ 0x200a) || n == 0x2028 || n == 0x2029 || n == 0x202f || n == 0x205f ||
    n == 0x3000

/-- A blank of a command line in running text: a space or a tab. -/
def isBlank (c : Char) : Bool :=
  c == ' ' || c == '\t'

/-- Remove the longest run of characters in a class from the end. -/
def dropEndWhile (p : Char → Bool) (s : List Char) : List Char :=
  (s.reverse.dropWhile p).reverse

/-- Remove the longest runs of characters in a class from both ends. -/
def trimBoth (p : Char → Bool) (s : List Char) : List Char :=
  dropEndWhile p (s.dropWhile p)

/-- Remove white space from both ends. -/
def trim (s : String) : String :=
  String.ofList (trimBoth isSpace s.toList)

/-- Nothing follows a trimmed end that the class could still remove. -/
theorem dropEndWhile_append_of_not (p : Char → Bool) (s : List Char) (c : Char)
    (h : p c = false) : dropEndWhile p (s ++ [c]) = s ++ [c] := by
  simp [dropEndWhile, h]

/-- A character of the class at the end is removed. -/
theorem dropEndWhile_append_of (p : Char → Bool) (s : List Char) (c : Char)
    (h : p c = true) : dropEndWhile p (s ++ [c]) = dropEndWhile p s := by
  simp [dropEndWhile, h]

end Vendoring.Text
