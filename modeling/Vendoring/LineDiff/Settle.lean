import Vendoring.LineDiff.Shortest

/-!
# Settling edits

Where the same line occurs several times, a run of added lines can stand at more than one place. It
is moved up as far as it goes and then down as far as it goes, over kept lines that agree with its
own; runs of one kind that meet are joined, and a run moves past one of the other kind. Removed runs
meet and join in the same way, but no kept line moves them.
-/

namespace Vendoring.LineDiff

variable {α : Type} [BEq α]

/-- Edits around the one that is moved: those before it, the nearest first, the edit, and those
behind it. -/
structure Focus where
  before : List Edit
  this : Edit
  behind : List Edit

/-- Put kept lines in front of other edits, joined with kept lines that are there. -/
def keepBefore (n : Nat) (fresh : Edit) : List Edit → List Edit
  | e :: rest =>
    if e.action = .keep then (e.earlier n).longer n :: rest else fresh :: e :: rest
  | [] => [fresh]

/-- Put kept lines behind other edits, joined with kept lines that are there. -/
def keepBehind (n : Nat) (fresh : Edit) : List Edit → List Edit
  | e :: rest => if e.action = .keep then e.longer n :: rest else fresh :: e :: rest
  | [] => [fresh]

/-- How many lines an added run can move up over a kept one. -/
def liftBy (a b : Array α) (this kept : Edit) : Nat :=
  if this.action = .add then
    agreeBackward a b (min kept.length this.length) kept.oldEnd this.newEnd
  else 0

/-- How many lines an added run can move down over a kept one. -/
def lowerBy (a b : Array α) (this kept : Edit) : Nat :=
  if this.action = .add then
    agreeForward a b (min kept.length this.length) kept.old this.new
  else 0

/-- Move an edit up as far as it goes. -/
def moveUp (a b : Array α) : Nat → Focus → Focus
  | 0, f => f
  | steps + 1, f =>
    match f.before with
    | [] => f
    | last :: before =>
      if last.action = .keep then
        let n := liftBy a b f.this last
        if n = 0 then
          if last.length = 0 then moveUp a b steps { f with before := before } else f
        else
          let fresh : Edit := ⟨.keep, last.oldEnd - n, f.this.newEnd - n, n⟩
          let rest := last.shorter n
          moveUp a b steps
            { before := if rest.length = 0 then before else rest :: before
              this := f.this.earlier n
              behind := keepBefore n fresh f.behind }
      else if last.action = f.this.action then
        moveUp a b steps ⟨before, last.longer f.this.length, f.behind⟩
      else moveUp a b steps ⟨before, f.this, last :: f.behind⟩

/-- Move an edit down as far as it goes. -/
def moveDown (a b : Array α) : Nat → Focus → Focus
  | 0, f => f
  | steps + 1, f =>
    match f.behind with
    | [] => f
    | first :: behind =>
      if first.action = .keep then
        let n := lowerBy a b f.this first
        if n = 0 then
          if first.length = 0 then moveDown a b steps { f with behind := behind } else f
        else
          let fresh : Edit := ⟨.keep, first.old, f.this.new, n⟩
          let rest := (first.later n).shorter n
          moveDown a b steps
            { before := keepBehind n fresh f.before
              this := f.this.later n
              behind := if rest.length = 0 then behind else rest :: behind }
      else if first.action = f.this.action then
        moveDown a b steps ⟨f.before, f.this.longer first.length, behind⟩
      else moveDown a b steps ⟨first :: f.before, f.this, behind⟩

/-- Settle every edit of one kind, from the front. -/
def settleFrom (a b : Array α) (action : Action) (bound : Nat) :
    Nat → List Edit → List Edit → List Edit
  | 0, before, behind => before.reverse ++ behind
  | _ + 1, before, [] => before.reverse
  | steps + 1, before, this :: behind =>
    if this.action = action then
      let f := moveDown a b bound (moveUp a b bound ⟨before, this, behind⟩)
      settleFrom a b action bound steps (f.this :: f.before) f.behind
    else settleFrom a b action bound steps (this :: before) behind

/-- Settle the edits between two lists, the removed runs first. -/
def settle (a b : Array α) (edits : List Edit) : List Edit :=
  let bound := 4 * (a.size + b.size + edits.length) + 4
  settleFrom a b .add bound bound [] (settleFrom a b .remove bound bound [] edits)

end Vendoring.LineDiff
