/-!
# Edits between two lists of lines

An edit says what happens to a run of lines: it is kept, removed or added. Lines are counted from
zero in both lists; a removed run also knows where it would stand in the new list, and an added run
where in the old one.
-/

namespace Vendoring.LineDiff

/-- What happens to a run of lines. -/
inductive Action where
  | keep
  | remove
  | add
deriving DecidableEq

/-- A run of lines with its first index in either list. -/
structure Edit where
  action : Action
  old : Nat
  new : Nat
  length : Nat
deriving DecidableEq

namespace Edit

/-- Where the run ends in the old list; added lines are not in it. -/
def oldEnd (e : Edit) : Nat :=
  if e.action = .add then e.old else e.old + e.length

/-- Where the run ends in the new list; removed lines are not in it. -/
def newEnd (e : Edit) : Nat :=
  if e.action = .remove then e.new else e.new + e.length

/-- The run some lines earlier. -/
def earlier (e : Edit) (n : Nat) : Edit :=
  { e with old := e.old - n, new := e.new - n }

/-- The run some lines later. -/
def later (e : Edit) (n : Nat) : Edit :=
  { e with old := e.old + n, new := e.new + n }

/-- The run with more lines behind it. -/
def longer (e : Edit) (n : Nat) : Edit :=
  { e with length := e.length + n }

/-- The run without lines at its end. -/
def shorter (e : Edit) (n : Nat) : Edit :=
  { e with length := e.length - n }

end Edit

variable {α : Type} [BEq α]

/-- How many lines agree from two places on, up to a bound. -/
def agreeForward (a b : Array α) : Nat → Nat → Nat → Nat
  | 0, _, _ => 0
  | bound + 1, i, j =>
    match a[i]?, b[j]? with
    | some x, some y => if x == y then agreeForward a b bound (i + 1) (j + 1) + 1 else 0
    | _, _ => 0

/-- How many lines agree before two places, up to a bound. -/
def agreeBackward (a b : Array α) : Nat → Nat → Nat → Nat
  | 0, _, _ => 0
  | bound + 1, i, j =>
    match a[i - 1]?, b[j - 1]? with
    | some x, some y =>
      if 0 < i && 0 < j && x == y then agreeBackward a b bound (i - 1) (j - 1) + 1 else 0
    | _, _ => 0

end Vendoring.LineDiff
