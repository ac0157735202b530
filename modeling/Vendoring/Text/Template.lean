/-!
# Replacement templates

A template says what a match is replaced by. It is a text in which `$` refers to a group of the
match: the group is named in braces or by the longest run of letters, digits and underscores. Group
0 is the whole match, the others are counted from 1; a name that is no number of a group stands for
nothing. Two `$` are one, and a `$` with no reference behind it is itself. A text that is put into a
template through `escapeTemplate` stands for itself there (`expand_escapeTemplate_append`).
-/

namespace Vendoring.Text

/-- A character of a name in a reference without braces. -/
def isReferenceChar (c : Char) : Bool :=
  c.isAlphanum || c == '_'

/-- The text of the group with a name. -/
def groupText (groups : List (List Char)) (name : List Char) : List Char :=
  if name != [] && name.all Char.isDigit then
    groups.getD (name.foldl (fun n d => n * 10 + (d.toNat - 48)) 0) []
  else []

/-- What a `$` in front of the text stands for, and the text behind its reference. -/
def expandReference (groups : List (List Char)) (s : List Char) : List Char × List Char :=
  match s with
  | '$' :: rest => (['$'], rest)
  | '{' :: rest =>
    match rest.dropWhile (· != '}') with
    | _ :: behind => (groupText groups (rest.takeWhile (· != '}')), behind)
    | [] => (['$'], s)
  | _ =>
    match s.takeWhile isReferenceChar with
    | [] => (['$'], s)
    | name => (groupText groups name, s.dropWhile isReferenceChar)

/-- A reference leaves no more characters behind than it finds. -/
theorem length_expandReference (groups : List (List Char)) (s : List Char) :
    (expandReference groups s).2.length ≤ s.length := by
  unfold expandReference
  split
  · simp
  · rename_i rest
    have hdrop := (List.dropWhile_sublist (l := rest) (· != '}')).length_le
    split
    · rename_i behind hbehind
      rw [hbehind, List.length_cons] at hdrop
      show behind.length ≤ rest.length + 1
      omega
    · exact Nat.le_refl _
  · split
    · exact Nat.le_refl _
    · exact (List.dropWhile_sublist (l := s) isReferenceChar).length_le

/-- What a template makes of a match with the given groups. -/
def expand (groups : List (List Char)) (template : List Char) : List Char :=
  match template with
  | [] => []
  | c :: rest =>
    if c = '$' then
      (expandReference groups rest).1 ++ expand groups (expandReference groups rest).2
    else c :: expand groups rest
termination_by template.length
decreasing_by
  · exact Nat.lt_succ_of_le (length_expandReference groups rest)
  · exact Nat.lt_succ_self rest.length

/-- The template of a fixed text: each `$` is doubled. -/
def escapeTemplate (s : List Char) : List Char :=
  s.flatMap fun c => if c = '$' then ['$', '$'] else [c]

/-- A template without characters gives none. -/
theorem expand_nil (groups : List (List Char)) : expand groups [] = [] := by
  rw [expand]

/-- A dollar sign is expanded with the reference behind it. -/
theorem expand_dollar (groups : List (List Char)) (s : List Char) :
    expand groups ('$' :: s) =
      (expandReference groups s).1 ++ expand groups (expandReference groups s).2 := by
  rw [expand, if_pos rfl]

/-- Any other character stands for itself. -/
theorem expand_cons_of_ne {c : Char} (h : c ≠ '$') (groups : List (List Char)) (s : List Char) :
    expand groups (c :: s) = c :: expand groups s := by
  rw [expand, if_neg h]

/-- A fixed text stands for itself in front of any template. -/
theorem expand_escapeTemplate_append (groups : List (List Char)) (s template : List Char) :
    expand groups (escapeTemplate s ++ template) = s ++ expand groups template := by
  induction s with
  | nil => rfl
  | cons c s ih =>
      rw [escapeTemplate, List.flatMap_cons, List.append_assoc, List.cons_append, ← ih]
      by_cases hc : c = '$'
      · rw [if_pos hc, hc, List.cons_append, expand_dollar]
        rfl
      · rw [if_neg hc, List.singleton_append, expand_cons_of_ne hc]
        rfl

end Vendoring.Text
