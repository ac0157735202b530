import Vendoring.Tree

/-!
# Finding the checkout

The checkout of the vendored project lies at the first of its candidate places that is a directory.
If none is, the message lists them all, and it tells how to make the first one.
-/

namespace Vendoring.Checkout

/-- None of the candidates is a directory. -/
structure NotFound where
  candidates : List Path
  cloneUrl : Option String
deriving DecidableEq

/-- How to make a checkout at the first candidate, if there is one and the place to clone from is
known. -/
def NotFound.hint (e : NotFound) : String :=
  match e.cloneUrl, e.candidates with
  | some url, first :: _ => "\nclone it with: git clone " ++ url ++ " " ++ first.text
  | _, _ => ""

/-- The wording of the error. -/
def NotFound.message (e : NotFound) : String :=
  "upstream tree not found; probed: " ++ ", ".intercalate (e.candidates.map Path.text) ++ e.hint

/-- The first candidate that is a directory. -/
def locate (tree : Tree) (candidates : List Path) (cloneUrl : Option String) :
    Except NotFound Path :=
  match candidates.find? tree.isDirectory with
  | some root => .ok root
  | none => .error ⟨candidates, cloneUrl⟩

/-- The first candidate that is a directory is found. -/
theorem locate_eq_ok_iff {tree : Tree} {candidates : List Path} {cloneUrl : Option String}
    {root : Path} :
    locate tree candidates cloneUrl = .ok root ↔
      candidates.find? tree.isDirectory = some root := by
  unfold locate
  cases candidates.find? tree.isDirectory <;> simp

end Vendoring.Checkout
