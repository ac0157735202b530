import Vendoring.LineDiff.Settle
import Vendoring.Text.Line

/-!
# Unified differences

Differences are shown in hunks: changed runs with up to three kept lines around them, where runs
that lie six or fewer kept lines apart share a hunk. Each hunk tells which lines of either list it
covers, and a line without an end is marked.
-/

namespace Vendoring.LineDiff

/-- Kept lines, or a change of removed lines into added ones, with their places in either list. -/
structure Block where
  kept : Bool
  old : Nat
  oldLength : Nat
  new : Nat
  newLength : Nat
deriving DecidableEq

/-- An edit as a block of its own. -/
def blockOf (e : Edit) : Block :=
  match e.action with
  | .keep => ⟨true, e.old, e.length, e.new, e.length⟩
  | .remove => ⟨false, e.old, e.length, e.new, 0⟩
  | .add => ⟨false, e.old, 0, e.new, e.length⟩

/-- Join two blocks of the same sort. The places of a change are those of its removed lines in the
old list and of its added lines in the new one, as far as it has such lines. -/
def Block.join (p q : Block) : Block :=
  ⟨p.kept,
    if p.oldLength = 0 && q.oldLength ≠ 0 then q.old else p.old, p.oldLength + q.oldLength,
    if p.newLength = 0 && q.newLength ≠ 0 then q.new else p.new, p.newLength + q.newLength⟩

/-- The blocks of some edits: neighbours of the same sort are joined. -/
def blocks : List Edit → List Block
  | [] => []
  | e :: rest =>
    match blocks rest with
    | [] => [blockOf e]
    | block :: others =>
      if (blockOf e).kept = block.kept then (blockOf e).join block :: others
      else blockOf e :: block :: others

/-- How many kept lines are shown around a change. -/
def context : Nat := 3

/-- The last lines of a kept block. -/
def Block.tail (b : Block) (n : Nat) : Block :=
  { b with
    old := b.old + (b.oldLength - n)
    oldLength := min b.oldLength n
    new := b.new + (b.newLength - n)
    newLength := min b.newLength n }

/-- The first lines of a kept block. -/
def Block.front (b : Block) (n : Nat) : Block :=
  { b with oldLength := min b.oldLength n, newLength := min b.newLength n }

/-- Only the context of the first block is shown if it is kept. -/
def trimFirst : List Block → List Block
  | [] => []
  | b :: rest => (if b.kept then b.tail context else b) :: rest

/-- Only the context of the last block is shown if it is kept. -/
def trimLast (bs : List Block) : List Block :=
  match bs.reverse with
  | [] => []
  | b :: rest => ((if b.kept then b.front context else b) :: rest).reverse

/-- Divide blocks into hunks at kept blocks that are longer than two contexts. -/
def divide (current : List Block) : List Block → List (List Block)
  | [] =>
    match current with
    | [] => []
    | [b] => if b.kept then [] else [current]
    | _ => [current]
  | b :: rest =>
    if b.kept && 2 * context < b.oldLength then
      (current ++ [b.front context]) :: divide [b.tail context] rest
    else divide (current ++ [b]) rest

/-- The hunks of some edits. -/
def hunks (edits : List Edit) : List (List Block) :=
  divide [] (trimLast (trimFirst (blocks edits)))

/-- A range of lines from a start to an end, as the line of a hunk writes it. -/
def rangeText (first last : Nat) : String :=
  let length := last - first
  if length = 1 then toString (first + 1)
  else toString (if length = 0 then first else first + 1) ++ "," ++ toString length

/-- The line that begins a hunk. -/
def hunkLine (hunk : List Block) : String :=
  match hunk.head?, hunk.getLast? with
  | some first, some last =>
    "@@ -" ++ rangeText first.old (last.old + last.oldLength) ++ " +"
      ++ rangeText first.new (last.new + last.newLength) ++ " @@\n"
  | _, _ => ""

/-- A line behind a sign; one without an end is marked. -/
def signedLine (sign : Char) (line : List Char) : List Char :=
  let ended := line.getLast? == some '\n' || line.getLast? == some '\r'
  sign :: line ++ if ended then [] else "\n\\ No newline at end of file\n".toList

/-- The lines of a block with their signs. -/
def blockLines (a b : Array (List Char)) (block : Block) : List Char :=
  let olds := (List.range block.oldLength).map fun i => a.getD (block.old + i) []
  let news := (List.range block.newLength).map fun i => b.getD (block.new + i) []
  if block.kept then olds.flatMap (signedLine ' ')
  else olds.flatMap (signedLine '-') ++ news.flatMap (signedLine '+')

/-- The difference of two texts under two headings; it is empty if there is none. -/
def unified (oldHeading newHeading old new : String) : String :=
  let a := (Text.splitBreaks old.toList).toArray
  let b := (Text.splitBreaks new.toList).toArray
  match hunks (settle a b (shortest a b)) with
  | [] => ""
  | hs =>
    "--- " ++ oldHeading ++ "\n+++ " ++ newHeading ++ "\n"
      ++ String.join (hs.map fun hunk =>
        hunkLine hunk ++ String.ofList (hunk.flatMap (blockLines a b)))

end Vendoring.LineDiff
