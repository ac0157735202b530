import Vendoring.Naming
import Vendoring.Text.Space
import Vendoring.Text.Substitution
import Vendoring.Text.Template
import Vendoring.Text.Word

/-!
# Rules

A rule turns one text into another, and has a name. The literal rule replaces one text by another.
The rules for the entry point adapt its signature, the help function and the usage text, and put a
block of text in front and one behind.

The recognisers below say what each structural rule replaces. They follow the text from one place
and answer with what is left behind a match; white space and word characters are taken in the widest
sense.
-/

namespace Vendoring

open Text

/-- An edit of texts with a name. -/
structure Rule where
  name : String
  edit : List Char → List Char

namespace Rule

/-- Behind any white space. -/
def skipSpace (s : List Char) : List Char :=
  s.dropWhile isSpace

/-- Behind white space, of which there must be some. -/
def skipSomeSpace (s : List Char) : Option (List Char) :=
  match s with
  | c :: cs => if isSpace c then some (skipSpace cs) else none
  | [] => none

/-- Whether a word can begin between a character and the next one, which is part of a word. -/
def atWordStart (previous : Option Char) : Bool :=
  !previous.any isWord

/-! ## The signature of the entry point -/

/-- Behind stars, each with white space in front of it. -/
def skipStars (s : List Char) : List Char :=
  match _h : skipSpace s with
  | '*' :: rest => skipStars rest
  | _ => s
termination_by s.length
decreasing_by
  have h' := (List.dropWhile_sublist (l := s) isSpace).length_le
  rw [show s.dropWhile isSpace = '*' :: rest from _h] at h'
  simp only [List.length_cons] at h'
  omega

/-- Behind stars, of which there must be one. -/
def skipSomeStars (s : List Char) : Option (List Char) :=
  match skipSpace s with
  | '*' :: rest => some (skipStars rest)
  | _ => none

/-- Behind a pair of brackets with the white space behind it, if one stands here. -/
def skipBrackets (s : List Char) : List Char :=
  match s with
  | '[' :: rest =>
    match skipSpace rest with
    | ']' :: rest => skipSpace rest
    | _ => s
  | _ => s

/-- Behind the signature of an entry point: an `int` function `main` with a count and a vector of
arguments, where white space may stand between any two signs. -/
def afterSignature? (s : List Char) : Option (List Char) := do
  let s ← dropPrefix? ['i', 'n', 't'] s
  let s ← skipSomeSpace s
  let s ← dropPrefix? ['m', 'a', 'i', 'n'] s
  let s ← dropPrefix? ['('] (skipSpace s)
  let s ← dropPrefix? ['i', 'n', 't'] (skipSpace s)
  let s ← skipSomeSpace s
  let s ← dropPrefix? ['a', 'r', 'g', 'c'] s
  let s ← dropPrefix? [','] (skipSpace s)
  let s ← dropPrefix? ['c', 'h', 'a', 'r'] (skipSpace s)
  let s ← skipSomeStars s
  let s ← dropPrefix? ['a', 'r', 'g', 'v'] (skipSpace s)
  dropPrefix? [')'] (skipBrackets (skipSpace s))

/-- The signature of a function in its canonical spelling. -/
def signature (function : List Char) : List Char :=
  ['i', 'n', 't', ' '] ++ function ++
    ['(', 'i', 'n', 't', ' ', 'a', 'r', 'g', 'c', ',', ' ', 'c', 'h', 'a', 'r', '*', '*', ' ',
      'a', 'r', 'g', 'v', ')']

/-- Recognises the signature of an entry point at the start of a word. -/
def recogniseSignature (function : List Char) : Recogniser := fun previous s =>
  if atWordStart previous then (afterSignature? s).map fun rest => (signature function, rest)
  else none

/-! ## The help function -/

/-- The name of the help function. -/
def helpName : List Char :=
  ['p', 'r', 'i', 'n', 't', '_', 'h', 'e', 'l', 'p']

/-- Behind the declaration of the help function, without `static` in front. -/
def afterHelpDeclaration? (s : List Char) : Option (List Char) := do
  let s ← dropPrefix? ['v', 'o', 'i', 'd'] s
  let s ← skipSomeSpace s
  let s ← dropPrefix? helpName s
  let s ← dropPrefix? ['('] (skipSpace s)
  dropPrefix? [')'] (skipSpace s)

/-- Behind `static` and white space. -/
def afterStatic? (s : List Char) : Option (List Char) := do
  let s ← dropPrefix? ['s', 't', 'a', 't', 'i', 'c'] s
  skipSomeSpace s

/-- Recognises a declaration of the help function, with `static` or without. -/
def recogniseHelpDeclaration (function : List Char) : Recogniser := fun previous s =>
  if atWordStart previous then
    (afterHelpDeclaration? ((afterStatic? s).getD s)).map fun rest =>
      (['v', 'o', 'i', 'd', ' '] ++ function ++ ['(', ')'], rest)
  else none

/-- Recognises a call of the help function, up to its parenthesis. -/
def recogniseHelpCall (function : List Char) : Recogniser := fun previous s =>
  if atWordStart previous then do
    let s ← dropPrefix? helpName s
    let rest ← dropPrefix? ['('] (skipSpace s)
    some (function ++ ['('], rest)
  else none

/-! ## The usage text -/

/-- What can stand in front of a command: a line start, or a quote, an opening parenthesis, white
space or an escaped line feed, which belong to the match. Each is given with the text behind it, in
the order in which they are tried. -/
def leads (previous : Option Char) (s : List Char) : List (List Char × List Char) :=
  let lineStart := if previous.all (· == '\n') then [([], s)] else []
  let sign := match s with
    | c :: rest =>
      if c == '"' || c == '\'' || c == '(' || isSpace c then [([c], rest)] else []
    | [] => []
  let escape := match s with
    | '\\' :: 'n' :: rest => [(['\\', 'n'], rest)]
    | _ => []
  lineStart ++ sign ++ escape

/-- A character of a command. -/
def isTokenChar (c : Char) : Bool :=
  isWord c || c == '-'

/-- A command behind the name of the program and blanks, with the text behind it. -/
def command? (program s : List Char) : Option (List Char × List Char) := do
  let s ← dropPrefix? program s
  let token := s.dropWhile isBlank
  if s.head?.any isBlank && token.head?.any isTokenChar then
    some (token.takeWhile isTokenChar, token.dropWhile isTokenChar)
  else none

/-- The template of an embedded command: what led to it, the invocation, a blank and the token. -/
def commandTemplate (invocation : List Char) : List Char :=
  ['$', '{', '1', '}'] ++ escapeTemplate invocation ++ [' ', '$', '{', '2', '}']

/-- The invocation stands for itself in the template. -/
theorem expand_commandTemplate (whole lead token invocation : List Char) :
    expand [whole, lead, token] (commandTemplate invocation) =
      lead ++ invocation ++ [' '] ++ token := by
  have hlead : ∀ s, expand [whole, lead, token] ('$' :: '{' :: '1' :: '}' :: s) =
      lead ++ expand [whole, lead, token] s := fun s => expand_dollar _ _
  have htoken : expand [whole, lead, token] ['$', '{', '2', '}'] = token := by
    rw [expand_dollar]
    show token ++ expand [whole, lead, token] [] = token
    rw [expand_nil, List.append_nil]
  rw [commandTemplate, List.append_assoc, List.cons_append, List.cons_append, List.cons_append,
    List.cons_append, List.nil_append, hlead, expand_escapeTemplate_append,
    expand_cons_of_ne (by decide), htoken]
  simp only [List.append_assoc, List.cons_append, List.nil_append]

/-- Recognises a command of the standalone program where one can begin. The groups of the match are
what led to it and the token. -/
def recogniseCommand (program invocation : List Char) : Recogniser := fun previous s =>
  (leads previous s).findSome? fun (lead, behind) =>
    (command? program behind).map fun (token, rest) =>
      (expand [before s rest, lead, token] (commandTemplate invocation), rest)

/-- The usage line of a program, up to its name. -/
def usageLine (program : List Char) : List Char :=
  ['U', 's', 'a', 'g', 'e', ':', ' '] ++ program

/-- The usage line of an embedded program, up to its invocation. -/
def embeddedUsageLine (invocation : List Char) : List Char :=
  ['U', 'S', 'A', 'G', 'E', ':', ' '] ++ invocation

/-! ## The rules -/

/-- Replaces one text by another. -/
def literal (pattern replacement : String) : Rule where
  name := "literal"
  edit := replaceAll pattern.toList replacement.toList

/-- Renames the entry point. -/
def entryPoint (naming : Naming) : Rule where
  name := "entry-point"
  edit := substitute (recogniseSignature naming.entryFunction.toList) none

/-- Renames the help function, its declarations first. -/
def helpFunction (naming : Naming) : Rule where
  name := "help-function"
  edit s :=
    substitute (recogniseHelpCall naming.helpFunction.toList) none
      (substitute (recogniseHelpDeclaration naming.helpFunction.toList) none s)

/-- Rewrites the usage text, its first lines before the commands. -/
def usageBanner (naming : Naming) : Rule where
  name := "usage-banner"
  edit s :=
    let program := naming.standaloneProgram.toList
    let invocation := naming.invocation.toList
    substitute (recogniseCommand program invocation) none
      (replaceAll (usageLine program) (embeddedUsageLine invocation) s)

/-- Puts a block of text in front. -/
def header (text : String) : Rule where
  name := "provenance-header"
  edit s := text.toList ++ s

/-- Puts a block of text behind. -/
def adapter (text : String) : Rule where
  name := "adapter"
  edit s := s ++ text.toList

/-! ## Application -/

/-- Apply a rule to a text. -/
def apply (rule : Rule) (text : String) : String :=
  String.ofList (rule.edit text.toList)

/-- Applying a rule edits the characters. -/
theorem toList_apply (rule : Rule) (text : String) :
    (rule.apply text).toList = rule.edit text.toList :=
  String.toList_ofList

/-- What a rule makes of a text is told by the characters. -/
theorem apply_eq_iff {rule : Rule} {text out : String} :
    rule.apply text = out ↔ rule.edit text.toList = out.toList := by
  rw [← toList_apply, String.toList_inj]

end Rule

end Vendoring
