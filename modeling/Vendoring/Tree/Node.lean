/-!
# Nodes of a file tree

A node is a file with its bytes or a directory with named entries. A place in a tree is the list of
names on the way to it. `get?` looks a place up, `put` sets what stands there and `erase` removes
it. `put` keeps the order of the entries and adds a new one at the end.
-/

namespace Vendoring

/-- The name of a directory entry. -/
abbrev Name := List Char

/-- A file with its bytes, or a directory with its entries. -/
inductive Node where
  | file (content : ByteArray)
  | directory (entries : List (Name × Node))

instance : Inhabited Node := ⟨.directory []⟩

namespace Node

/-- The entry of a name, the first one if there are several. -/
def entry? (name : Name) : List (Name × Node) → Option Node
  | [] => none
  | (other, node) :: entries => if other = name then some node else entry? name entries

/-- Set the entry of a name. -/
def setEntry (name : Name) (node : Node) : List (Name × Node) → List (Name × Node)
  | [] => [(name, node)]
  | (other, old) :: entries =>
    if other = name then (name, node) :: entries else (other, old) :: setEntry name node entries

/-- Remove the entry of a name. -/
def dropEntry (name : Name) (entries : List (Name × Node)) : List (Name × Node) :=
  entries.filter (·.1 ≠ name)

/-- What stands at a place. -/
def get? : Node → List Name → Option Node
  | node, [] => some node
  | .directory entries, name :: place =>
    match entry? name entries with
    | some child => child.get? place
    | none => none
  | .file _, _ :: _ => none

/-- Set what stands at a place whose directory exists; elsewhere nothing changes. -/
def put : Node → Node → List Name → Node
  | _, new, [] => new
  | .directory entries, new, [name] => .directory (setEntry name new entries)
  | .directory entries, new, name :: place =>
    match entry? name entries with
    | some child => .directory (setEntry name (child.put new place) entries)
    | none => .directory entries
  | .file content, _, _ :: _ => .file content

/-- Remove what stands at a place; the top itself cannot be removed. -/
def erase : Node → List Name → Node
  | node, [] => node
  | .directory entries, [name] => .directory (dropEntry name entries)
  | .directory entries, name :: place =>
    match entry? name entries with
    | some child => .directory (setEntry name (child.erase place) entries)
    | none => .directory entries
  | .file content, _ :: _ => .file content

mutual

/-- Every file below a node with its bytes, and every empty directory with none, by place. The node
itself stands at the given place. -/
def leaves (place : List Name) : Node → List (List Name × Option ByteArray)
  | .file content => [(place, some content)]
  | .directory [] => [(place, none)]
  | .directory (entry :: entries) => entryLeaves place (entry :: entries)

/-- The leaves below the entries of the directory at a place. -/
def entryLeaves (place : List Name) : List (Name × Node) → List (List Name × Option ByteArray)
  | [] => []
  | (name, node) :: entries => leaves (place ++ [name]) node ++ entryLeaves place entries

end

/-- Whether the node is a directory. -/
def isDirectory : Node → Bool
  | .directory _ => true
  | .file _ => false

end Node

end Vendoring
