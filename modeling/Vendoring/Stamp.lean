import Vendoring.Text.Line
import Vendoring.Text.Space
import Vendoring.Text.Substitution
import Vendoring.Text.Utf8
import Vendoring.Update

/-!
# Version stamps

A stamp is one line at the top of a file: a fixed beginning, by which stamps are known, and a
version label. Stamping a file takes out every line that begins like a stamp and puts the new one on
top. A file whose only stamp says the same is left as it is.
-/

namespace Vendoring.Stamp

/-- What stamping a file did. -/
inductive Outcome where
  | inserted
  | alreadyPresent
  | targetMissing
deriving DecidableEq

/-- The stamp line of a label. -/
def line (beginning label : String) : String :=
  beginning ++ label ++ "\n"

/-- Whether a line begins like a stamp. -/
def isStamp (beginning line : List Char) : Bool :=
  (Text.dropPrefix? beginning line).isSome

/-- The stamps of a text, without their line ends. -/
def stamps (beginning s : List Char) : List (List Char) :=
  (Text.lines s).filter (isStamp beginning)

/-- The text without its stamps. -/
def unstamped (beginning s : List Char) : List Char :=
  ((Text.splitLines s).filter fun line => !isStamp beginning line).flatten

/-- Whether a line is the only stamp of a text. -/
def isStamped (beginning line s : List Char) : Bool :=
  stamps beginning s == [Text.dropEndWhile (· == '\n') line]

/-- The text with a line on top instead of its stamps. -/
def stamped (beginning line s : List Char) : List Char :=
  line ++ unstamped beginning s

/-- The text of the target of a stamp; there is none if the target does not exist. -/
def target? (tree : Tree) (target : Path) : Except FileError (Option String) :=
  match tree.read target with
  | .error .notFound => .ok none
  | .error cause => .error ⟨target, cause⟩
  | .ok content =>
    match Text.decode content with
    | .ok text => .ok (some text)
    | .error _ => .error ⟨target, .notText⟩

/-- Stamp a file with a line: what was done, and the tree left behind. -/
def apply (tree : Tree) (target : Path) (beginning line : String) :
    Except FileError Outcome × Tree :=
  match target? tree target with
  | .error error => (.error error, tree)
  | .ok none => (.ok .targetMissing, tree)
  | .ok (some text) =>
    if isStamped beginning.toList line.toList text.toList then (.ok .alreadyPresent, tree)
    else
      let fresh := String.ofList (stamped beginning.toList line.toList text.toList)
      match tree.update target fresh false with
      | (.ok _, left) => (.ok .inserted, left)
      | (.error error, left) => (.error error, left)

end Vendoring.Stamp
