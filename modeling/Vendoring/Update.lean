import Vendoring.Digest
import Vendoring.Tree

/-!
# Updates of files

A file is updated only if its bytes change, which is told by their digests. The new bytes are first
written to a staging file beside it, whose name is the file's with an ending, and the staging file
is then moved over the file. So the file has at any time its old bytes or all of the new ones, and a
failed update leaves no staging file behind. A dry run tells what an update would do and does
nothing.
-/

namespace Vendoring

/-- An operation on files failed at a path. -/
structure FileError where
  path : Path
  cause : IoError
deriving DecidableEq

/-- The wording of the error. -/
def FileError.message (e : FileError) : String :=
  "I/O error at " ++ e.path.text ++ ": " ++ e.cause.message

/-- What an update did. -/
inductive Update where
  | written
  | unchanged
  | wouldWrite
deriving DecidableEq

/-- Whether the file has, or would get, other bytes. -/
def Update.isChange : Update → Bool
  | .unchanged => false
  | _ => true

/-- What is appended to a path to name its staging file. -/
def stagingEnding : String := ".embedsync.tmp"

/-- The staging file of a path. -/
def Path.staging (p : Path) : Path :=
  ⟨p.text ++ stagingEnding⟩

namespace Tree

/-- The digest of the file at a path; there is none if nothing is there. -/
def digest? (tree : Tree) (p : Path) : Except FileError (Option String) :=
  match tree.read p with
  | .ok content => .ok (some (Digest.ofContent content))
  | .error .notFound => .ok none
  | .error cause => .error ⟨p, cause⟩

/-- Make the directory that a path lies in, and those above it. -/
def makeParent (tree : Tree) (p : Path) : Except FileError Unit × Tree :=
  match p.parent? with
  | none => (.ok (), tree)
  | some above =>
    match tree.makeDirectories above with
    | (.ok (), made) => (.ok (), made)
    | (.error cause, left) => (.error ⟨above, cause⟩, left)

/-- Write bytes to the staging file of a path and move it over the path. -/
def writeStaged (tree : Tree) (p : Path) (content : ByteArray) : Except FileError Unit × Tree :=
  match tree.write p.staging content with
  | .error cause => (.error ⟨p.staging, cause⟩, tree)
  | .ok staged =>
    match staged.moveFile p.staging p with
    | .ok moved => (.ok (), moved)
    | .error cause => (.error ⟨p, cause⟩, staged.remove p.staging)

/-- Update the file at a path to a text: what was done, and the tree left behind. -/
def update (tree : Tree) (p : Path) (text : String) (dryRun : Bool) :
    Except FileError Update × Tree :=
  match tree.digest? p with
  | .error error => (.error error, tree)
  | .ok old =>
    if old = some (Digest.ofContent text.toUTF8) then (.ok .unchanged, tree)
    else if dryRun then (.ok .wouldWrite, tree)
    else match tree.makeParent p with
      | (.error error, left) => (.error error, left)
      | (.ok (), made) =>
        match made.writeStaged p text.toUTF8 with
        | (.error error, left) => (.error error, left)
        | (.ok (), written) => (.ok .written, written)

end Tree

end Vendoring
