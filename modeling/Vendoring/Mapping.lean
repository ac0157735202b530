import Vendoring.Path

/-!
# Mapping tables

A mapping says where a file of the vendored project goes: from a path below its source directory to
a path below the embedded root. A mapping table is a list of mappings in which no path is empty,
every destination names a file inside the root, and no source and no destination occurs twice once
`.` components are dropped. The table carries the proof of that, so every table in use has passed
the check. The first mapping at fault decides the error.
-/

namespace Vendoring

/-- Where a file comes from and where it goes. -/
structure Mapping where
  source : Path
  destination : Path
deriving DecidableEq, Inhabited

/-- How a mapping is shown. -/
def Mapping.display (m : Mapping) : String :=
  m.source.text ++ " -> " ++ m.destination.text

/-- Why a list of mappings is no table. -/
inductive MappingError where
  | emptyPath (index : Nat)
  | escapes (destination : Path)
  | isRoot (destination : Path)
  | repeatedSource (source : Path)
  | repeatedDestination (destination first second : Path)
deriving DecidableEq

/-- The wording of an error. -/
def MappingError.message : MappingError → String
  | .emptyPath index => "mapping entry #" ++ toString index ++ " has an empty path"
  | .escapes destination => "destination '" ++ destination.text ++ "' escapes the embedded root"
  | .isRoot destination =>
    "destination '" ++ destination.text ++ "' names the embedded root, not a file"
  | .repeatedSource source => "duplicate upstream path '" ++ source.text ++ "'"
  | .repeatedDestination destination first second =>
    "duplicate destination '" ++ destination.text ++ "' (mapped from '" ++ first.text ++ "' and '"
      ++ second.text ++ "')"

namespace MappingTable

/-- What is wrong with the mapping at an index, given the ones before it. -/
def fault? (earlier : List Mapping) (index : Nat) (m : Mapping) : Option MappingError :=
  if m.source.text = "" ∨ m.destination.text = "" then some (.emptyPath index)
  else if m.destination.staysInside = false then some (.escapes m.destination)
  else if m.destination.normalized = [] then some (.isRoot m.destination)
  else if earlier.any (·.source.normalized = m.source.normalized) then
    some (.repeatedSource m.source)
  else match earlier.find? (·.destination.normalized = m.destination.normalized) with
    | some first => some (.repeatedDestination m.destination first.source m.source)
    | none => none

/-- The fault of the first mapping that has one, behind the given ones. -/
def firstFaultFrom (earlier : List Mapping) : List Mapping → Option MappingError
  | [] => none
  | m :: rest =>
    match fault? earlier earlier.length m with
    | some fault => some fault
    | none => firstFaultFrom (earlier ++ [m]) rest

/-- The fault of the first mapping that has one. -/
def firstFault? (entries : List Mapping) : Option MappingError :=
  firstFaultFrom [] entries

end MappingTable

/-- A list of mappings without fault. -/
structure MappingTable where
  entries : List Mapping
  valid : MappingTable.firstFault? entries = none

namespace MappingTable

/-- The table of a list of mappings, or what is wrong with the list. -/
def ofList (entries : List Mapping) : Except MappingError MappingTable :=
  match h : firstFault? entries with
  | none => .ok ⟨entries, h⟩
  | some fault => .error fault

/-- The mappings of a table in order. -/
def toList (t : MappingTable) : List Mapping :=
  t.entries

instance : Inhabited MappingTable := ⟨⟨[], rfl⟩⟩

/-- Tables with the same entries are the same. -/
theorem ext {s t : MappingTable} (h : s.entries = t.entries) : s = t := by
  cases s; cases t; cases h; rfl

instance : DecidableEq MappingTable := fun s t =>
  decidable_of_iff (s.entries = t.entries) ⟨ext, fun h => h ▸ rfl⟩

/-- The entries of a table give the table back. -/
theorem ofList_toList (t : MappingTable) : ofList t.toList = .ok t := by
  simp only [ofList, toList]
  split
  · rfl
  · rename_i fault h
    rw [t.valid] at h
    simp at h

/-- The entry of a source path. -/
def get? (t : MappingTable) (source : Path) : Option Mapping :=
  t.entries.find? (fun m => m.source.Same source)

/-- Where a source path goes. -/
def destinationOf? (t : MappingTable) (source : Path) : Option Path :=
  (t.get? source).map (·.destination)

/-- Whether an entry has the destination. -/
def hasDestination (t : MappingTable) (destination : Path) : Bool :=
  t.entries.any (fun m => m.destination.Same destination)

/-- How many entries the table has. -/
def size (t : MappingTable) : Nat :=
  t.entries.length

/-- Whether two tables agree path by path. -/
def agrees (s t : MappingTable) : Bool :=
  s.entries.length == t.entries.length && (s.entries.zip t.entries).all fun (m, n) =>
    m.source.Same n.source && m.destination.Same n.destination

end MappingTable

/-- Where the file of a mapping lies below an embedded root. -/
def Mapping.target (m : Mapping) (embeddedRoot : Path) : Path :=
  embeddedRoot.join m.destination

end Vendoring
