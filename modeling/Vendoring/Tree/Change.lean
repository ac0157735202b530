import Vendoring.Tree

/-!
# Changes between trees

What leads from one tree to another: the files whose bytes differ, the empty directories that are
new, and the files that are gone. A directory that holds something need not be listed, since its
files name it.
-/

namespace Vendoring

/-- A step from one tree to another. -/
inductive Change where
  | write (place : List Name) (content : ByteArray)
  | makeDirectory (place : List Name)
  | remove (place : List Name)

namespace Tree

/-- The files of a tree with their bytes, and its empty directories with none. -/
def leaves (tree : Tree) : List (List Name × Option ByteArray) :=
  tree.root.leaves []

/-- Whether a file with these bytes stands at a place. -/
def holds (tree : Tree) (place : List Name) (content : ByteArray) : Bool :=
  match tree.at? place with
  | some (.file found) => found == content
  | _ => false

/-- What has to be done to a tree so that it becomes another. -/
def changes (old new : Tree) : List Change :=
  new.leaves.filterMap (fun (place, content) =>
    match content with
    | some content => if old.holds place content then none else some (.write place content)
    | none =>
      if (old.at? place).any Node.isDirectory then none else some (.makeDirectory place)) ++
  old.leaves.filterMap fun (place, content) =>
    if content.isSome && (new.at? place).isNone then some (.remove place) else none

end Tree

end Vendoring
