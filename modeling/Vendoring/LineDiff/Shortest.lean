import Vendoring.LineDiff.Edit

/-!
# Shortest edits

Two lists are compared by dividing them. What agrees at the front and at the back is kept. In
between, two searches look for the fewest edits, one from each end, and where they meet the lists
are divided. A search goes by the number of edits; for each difference between the two indices it
knows how far it reaches.
-/

namespace Vendoring.LineDiff

variable {α : Type} [BEq α]

/-- How far a search reaches in the old list, by the difference between the two indices. -/
structure Reach where
  offset : Nat
  values : Array Nat

namespace Reach

/-- A search that has not begun, for differences up to a bound. -/
def start (bound : Nat) : Reach :=
  ⟨bound + 1, Array.replicate (2 * bound + 3) 0⟩

/-- How far the search reaches. -/
def get (r : Reach) (k : Int) : Nat :=
  r.values.getD (k + r.offset).toNat 0

/-- The search with one reach changed. -/
def set (r : Reach) (k : Int) (x : Nat) : Reach :=
  { r with values := r.values.setIfInBounds (k + r.offset).toNat x }

/-- Where the next step on a line of equal difference begins: below the line above it or to the
right of the line below it, whichever lies further. -/
def next (r : Reach) (d : Nat) (k : Int) : Nat :=
  if k = -d || (k ≠ d && r.get (k - 1) < r.get (k + 1)) then r.get (k + 1) else r.get (k - 1) + 1

end Reach

/-- A part of either list, from a first index to one behind the last. -/
structure Part where
  oldStart : Nat
  oldEnd : Nat
  newStart : Nat
  newEnd : Nat

/-- How many lines of the old list the part has. -/
def Part.oldSize (p : Part) : Nat :=
  p.oldEnd - p.oldStart

/-- How many lines of the new list the part has. -/
def Part.newSize (p : Part) : Nat :=
  p.newEnd - p.newStart

/-- How many rounds either search may need. -/
def Part.rounds (p : Part) : Nat :=
  (p.oldSize + p.newSize + 1) / 2 + 1

/-- How many more lines the old part has than the new one. -/
def Part.delta (p : Part) : Int :=
  (p.oldSize : Int) - p.newSize

/-- One round of the search from the front, over the differences from `k` down to `-d`. It ends
where it meets the other search, at the start of its last run of agreeing lines. -/
def forwardRound (a b : Array α) (p : Part) (back : Reach) (d : Nat) :
    Nat → Int → Reach → Reach × Option (Nat × Nat)
  | 0, _, front => (front, none)
  | steps + 1, k, front =>
    let x := front.next d k
    let y := ((x : Int) - k).toNat
    let run := if x < p.oldSize && y < p.newSize then
        agreeForward a b (min (p.oldSize - x) (p.newSize - y)) (p.oldStart + x) (p.newStart + y)
      else 0
    let front := front.set k (x + run)
    if p.delta % 2 = 1 && (k - p.delta).natAbs + 1 ≤ d &&
        p.oldSize ≤ x + run + back.get (p.delta - k) then
      (front, some (p.oldStart + x, p.newStart + y))
    else forwardRound a b p back d steps (k - 2) front

/-- One round of the search from the back. It ends where it meets the other search, at the front end
of its last run of agreeing lines. -/
def backwardRound (a b : Array α) (p : Part) (front : Reach) (d : Nat) :
    Nat → Int → Reach → Reach × Option (Nat × Nat)
  | 0, _, back => (back, none)
  | steps + 1, k, back =>
    let x := back.next d k
    let y := ((x : Int) - k).toNat
    let run := if x < p.oldSize && y < p.newSize then
        agreeBackward a b (min (p.oldSize - x) (p.newSize - y)) (p.oldEnd - x) (p.newEnd - y)
      else 0
    let back := back.set k (x + run)
    if p.delta % 2 = 0 && (k - p.delta).natAbs ≤ d &&
        p.oldSize ≤ x + run + front.get (p.delta - k) then
      (back, some (p.oldEnd - (x + run), p.newEnd - (y + run)))
    else backwardRound a b p front d steps (k - 2) back

/-- Search in rounds until the two searches meet. -/
def meetFrom (a b : Array α) (p : Part) : Nat → Nat → Reach → Reach → Option (Nat × Nat)
  | 0, _, _, _ => none
  | rounds + 1, d, front, back =>
    match forwardRound a b p back d (d + 1) d front with
    | (_, some place) => some place
    | (front, none) =>
      match backwardRound a b p front d (d + 1) d back with
      | (_, some place) => some place
      | (back, none) => meetFrom a b p rounds (d + 1) front back

/-- Where to divide a part. -/
def meet? (a b : Array α) (p : Part) : Option (Nat × Nat) :=
  meetFrom a b p p.rounds 0 (Reach.start p.rounds) (Reach.start p.rounds)

/-- A run of lines, unless it is empty. -/
def run (action : Action) (old new length : Nat) : List Edit :=
  if length = 0 then [] else [⟨action, old, new, length⟩]

/-- The edits of a part. -/
def editsOf (a b : Array α) : Nat → Part → List Edit
  | 0, p => run .remove p.oldStart p.newStart p.oldSize ++ run .add p.oldStart p.newStart p.newSize
  | steps + 1, p =>
    let front := agreeForward a b (min p.oldSize p.newSize) p.oldStart p.newStart
    let q : Part := { p with oldStart := p.oldStart + front, newStart := p.newStart + front }
    let back := agreeBackward a b (min q.oldSize q.newSize) q.oldEnd q.newEnd
    let q : Part := { q with oldEnd := q.oldEnd - back, newEnd := q.newEnd - back }
    let middle :=
      if q.oldSize = 0 || q.newSize = 0 then
        run .remove q.oldStart q.newStart q.oldSize ++ run .add q.oldStart q.newStart q.newSize
      else match meet? a b q with
        | some (i, j) =>
          editsOf a b steps { q with oldEnd := i, newEnd := j } ++
            editsOf a b steps { q with oldStart := i, newStart := j }
        | none =>
          run .remove q.oldStart q.newStart q.oldSize ++ run .add q.oldStart q.newStart q.newSize
    run .keep p.oldStart p.newStart front ++ middle ++ run .keep q.oldEnd q.newEnd back

/-- The edits that lead from one list to another. -/
def shortest (a b : Array α) : List Edit :=
  editsOf a b (a.size + b.size + 1) ⟨0, a.size, 0, b.size⟩

end Vendoring.LineDiff
