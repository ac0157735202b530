import Vendoring.Path
import Vendoring.Tree.Node

/-!
# A file system as a value

A tree holds everything below the root, and the place of the working directory, from which relative
paths are read. A path is followed piece by piece: each piece is looked up in a directory, `.` stays
and `..` goes up, and both need a directory to stand in. The operations fail for the causes of
`IoError` and with its wordings, and they return the tree they leave behind, so that a failure half
way shows what was done before it.
-/

namespace Vendoring

/-- Why an operation on files fails. -/
inductive IoError where
  | notFound
  | busy
  | alreadyExists
  | notADirectory
  | isADirectory
  | nameTooLong
  | nulInPath
  | nulInArgument
  | notText
deriving DecidableEq

/-- The wording of a cause. -/
def IoError.message : IoError → String
  | .notFound => "No such file or directory (os error 2)"
  | .busy => "Device or resource busy (os error 16)"
  | .alreadyExists => "File exists (os error 17)"
  | .notADirectory => "Not a directory (os error 20)"
  | .isADirectory => "Is a directory (os error 21)"
  | .nameTooLong => "File name too long (os error 36)"
  | .nulInPath => "file name contained an unexpected NUL byte"
  | .nulInArgument => "nul byte found in provided data"
  | .notText => "stream did not contain valid UTF-8"

/-- A file system: its root directory and the place of the working directory. -/
structure Tree where
  root : Node
  here : List Name
deriving Inhabited

namespace Tree

/-- Names of more bytes than this do not exist in any directory. -/
def longestName : Nat := 255

/-- Paths of more bytes than this are refused before they are followed. -/
def longestPath : Nat := 4095

/-- What stands at a place counted from the root. -/
def at? (tree : Tree) (place : List Name) : Option Node :=
  tree.root.get? place

/-- Whether the name is too long for an entry. -/
def tooLong (name : Name) : Bool :=
  longestName < (String.ofList name).utf8ByteSize

/-- Follow one piece of a path from a place. -/
def step (tree : Tree) (place : List Name) (piece : Name) : Except IoError (List Name) :=
  match tree.at? place with
  | none => .error .notFound
  | some (.file _) => .error .notADirectory
  | some (.directory entries) =>
    if piece = ['.'] then .ok place
    else if piece = ['.', '.'] then .ok place.dropLast
    else if tooLong piece then .error .nameTooLong
    else if (Node.entry? piece entries).isSome then .ok (place ++ [piece])
    else .error .notFound

/-- Follow pieces one after the other. -/
def walk (tree : Tree) (place : List Name) (pieces : List Name) : Except IoError (List Name) :=
  pieces.foldlM tree.step place

/-- A path is refused without a look at the tree if it holds a NUL, is empty or is too long. -/
def checkPath (p : Path) : Except IoError Unit :=
  if p.text.toList.contains '\x00' then .error .nulInPath
  else if p.text.isEmpty then .error .notFound
  else if longestPath < p.text.utf8ByteSize then .error .nameTooLong
  else .ok ()

/-- Where a path starts. -/
def start (tree : Tree) (p : Path) : List Name :=
  if p.isAbsolute then [] else tree.here

/-- The place a path names. A slash at its end asks for a directory. -/
def locate (tree : Tree) (p : Path) : Except IoError (List Name) := do
  checkPath p
  let place ← tree.walk (tree.start p) p.pieces
  match tree.at? place with
  | some (.file _) => if p.endsInSlash then .error .notADirectory else .ok place
  | _ => .ok place

/-- The bytes of the file that a path names. -/
def read (tree : Tree) (p : Path) : Except IoError ByteArray := do
  let place ← tree.locate p
  match tree.at? place with
  | some (.file content) => .ok content
  | some (.directory _) => .error .isADirectory
  | none => .error .notFound

/-- Whether the path names a directory. -/
def isDirectory (tree : Tree) (p : Path) : Bool :=
  match tree.locate p with
  | .ok place => (tree.at? place).any Node.isDirectory
  | .error _ => false

/-- The entry that a path names in its directory: the place of the directory, its entries and the
last piece. There is none for the root. -/
def lastEntry (tree : Tree) (p : Path) :
    Except IoError (Option (List Name × List (Name × Node) × Name)) := do
  checkPath p
  match p.pieces.getLast? with
  | none => .ok none
  | some last =>
    let place ← tree.walk (tree.start p) p.pieces.dropLast
    match tree.at? place with
    | some (.directory entries) => .ok (some (place, entries, last))
    | some (.file _) => .error .notADirectory
    | none => .error .notFound

/-- Whether the last piece of a path refers to a directory instead of naming an entry. -/
def isReference (piece : Name) : Bool :=
  piece == ['.'] || piece == ['.', '.']

/-- The tree with something else at a place. -/
def set (tree : Tree) (place : List Name) (node : Node) : Tree :=
  { tree with root := tree.root.put node place }

/-- Make one directory, in a directory that exists. -/
def makeDirectory (tree : Tree) (p : Path) : Except IoError Tree := do
  match ← tree.lastEntry p with
  | none => .error .alreadyExists
  | some (place, entries, last) =>
    if isReference last then .error .alreadyExists
    else if tooLong last then .error .nameTooLong
    else if (Node.entry? last entries).isSome then .error .alreadyExists
    else .ok (tree.set (place ++ [last]) (.directory []))

/-- Make a directory and the ones missing above it. The empty path asks for nothing. -/
def makeDirectories (tree : Tree) (p : Path) : Except IoError Unit × Tree :=
  if p.text.isEmpty then (.ok (), tree)
  else match tree.makeDirectory p with
    | .ok made => (.ok (), made)
    | .error .notFound =>
      match _h : p.parent? with
      | none => (.error .notFound, tree)
      | some above =>
        match tree.makeDirectories above with
        | (.error cause, left) => (.error cause, left)
        | (.ok (), left) =>
          match left.makeDirectory p with
          | .ok made => (.ok (), made)
          | .error cause => (if left.isDirectory p then .ok () else .error cause, left)
    | .error cause => (if tree.isDirectory p then .ok () else .error cause, tree)
termination_by p.text.toList.length
decreasing_by exact Path.length_of_parent? _h

/-- Write a file, new or over an old one, in a directory that exists. -/
def write (tree : Tree) (p : Path) (content : ByteArray) : Except IoError Tree := do
  match ← tree.lastEntry p with
  | none => .error .isADirectory
  | some (place, entries, last) =>
    if isReference last || p.endsInSlash then .error .isADirectory
    else if tooLong last then .error .nameTooLong
    else match Node.entry? last entries with
      | some (.directory _) => .error .isADirectory
      | _ => .ok (tree.set (place ++ [last]) (.file content))

/-- Move a file, over an old one if there is one, into a directory that exists. -/
def moveFile (tree : Tree) (source target : Path) : Except IoError Tree := do
  let origin ← tree.locate source
  match ← tree.lastEntry target with
  | none => .error .busy
  | some (place, entries, last) =>
    if isReference last then .error .busy
    else if tooLong last then .error .nameTooLong
    else if target.endsInSlash then .error .notADirectory
    else match Node.entry? last entries, tree.at? origin with
      | some (.directory _), _ => .error .isADirectory
      | _, some node =>
        let emptied : Tree := { tree with root := tree.root.erase origin }
        .ok (emptied.set (place ++ [last]) node)
      | _, none => .error .notFound

/-- Remove what a path names; nothing happens if there is nothing. -/
def remove (tree : Tree) (p : Path) : Tree :=
  match tree.locate p with
  | .ok place => { tree with root := tree.root.erase place }
  | .error _ => tree

end Tree

end Vendoring
