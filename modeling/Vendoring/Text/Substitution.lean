/-!
# Substitution of matches

A recogniser looks at one place of a text. It knows the character before that place, and on a match
it answers with the replacement and the text after the match. `substitute` walks a text from the
left, replaces each match where it begins and goes on behind it, so the matches it replaces are the
leftmost ones that do not overlap; replaced text is never looked at again. Replacing one fixed text
by another is the recogniser `literal`.
-/

namespace Vendoring.Text

/-- The rest of a text that begins with the given one. -/
def dropPrefix? : List Char → List Char → Option (List Char)
  | [], s => some s
  | _ :: _, [] => none
  | p :: ps, c :: cs => if p = c then dropPrefix? ps cs else none

/-- A text begins with another exactly if it is that one followed by the rest. -/
theorem dropPrefix?_eq_some_iff {p s rest : List Char} :
    dropPrefix? p s = some rest ↔ s = p ++ rest := by
  induction p generalizing s with
  | nil => simp [dropPrefix?, eq_comm]
  | cons a p ih =>
    cases s with
    | nil => simp [dropPrefix?]
    | cons c s =>
      by_cases h : a = c
      · subst h; simp [dropPrefix?, ih]
      · simp only [dropPrefix?, h, if_false, List.cons_append, List.cons.injEq]
        simp [Ne.symm h]

/-- What a match at one place is replaced by and what follows the match, given the character before
the place and the text from there on. -/
abbrev Recogniser := Option Char → List Char → Option (List Char × List Char)

/-- The part of a text in front of one of its ends. -/
def before (s rest : List Char) : List Char :=
  s.take (s.length - rest.length)

/-- What stands in front of an end, followed by that end, is the text. -/
theorem before_append (s rest : List Char) : before (s ++ rest) rest = s := by
  simp [before]

/-- Replace every match, from the left, each match beginning behind the one before. A match that
consumes nothing is none. -/
def substitute (recognise : Recogniser) (previous : Option Char) (s : List Char) : List Char :=
  match s with
  | [] => []
  | c :: cs =>
    match recognise previous (c :: cs) with
    | none => c :: substitute recognise (some c) cs
    | some (replacement, rest) =>
      if _h : rest.length ≤ cs.length then
        replacement ++ substitute recognise (before (c :: cs) rest).getLast? rest
      else c :: substitute recognise (some c) cs
termination_by s.length

/-- Recognises one fixed text. -/
def literal (pattern replacement : List Char) : Recogniser := fun _ s =>
  (dropPrefix? pattern s).map fun rest => (replacement, rest)

/-- Replace every occurrence of a text that is not empty; the empty text occurs nowhere. -/
def replaceAll (pattern replacement s : List Char) : List Char :=
  if pattern = [] then s else substitute (literal pattern replacement) none s

/-- Line ends of two characters become single line feeds. -/
def unifyLineEnds (s : List Char) : List Char :=
  replaceAll ['\r', '\n'] ['\n'] s

end Vendoring.Text
