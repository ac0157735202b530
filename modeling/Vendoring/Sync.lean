import Vendoring.Text.Utf8
import Vendoring.Transformer
import Vendoring.Update

/-!
# Synchronising a table of mappings

Every mapping is taken on its own, in the order of the table: its source is read, transformed and
written to its destination. A mapping that fails leaves a row in the report and the others go on.
The report has one row for each mapping, in order.
-/

namespace Vendoring

/-- Why a file does not give a text. -/
inductive TextFault where
  | unreadable (cause : IoError)
  | malformed (fault : Text.Utf8Fault)
deriving DecidableEq

/-- The wording of a fault. -/
def TextFault.message : TextFault → String
  | .unreadable cause => cause.message
  | .malformed fault => fault.message

/-- The wording of a fault behind the path it was met at. -/
def TextFault.messageAt (fault : TextFault) (p : Path) : String :=
  p.text ++ ": " ++ fault.message

/-- Read the text of a file; there is none if the path does not exist. -/
def Tree.readText? (tree : Tree) (p : Path) : Except TextFault (Option String) :=
  match tree.read p with
  | .error .notFound => .ok none
  | .error cause => .error (.unreadable cause)
  | .ok content =>
    match Text.decode content with
    | .ok text => .ok (some text)
    | .error fault => .error (.malformed fault)

namespace Sync

/-- What became of a mapping. -/
inductive Outcome where
  | synced (update : Update)
  | sourceMissing (source : Path)
  | unreadable (source : Path) (fault : TextFault)
  | unwritable (error : FileError)
deriving DecidableEq

namespace Outcome

/-- Whether the destination holds the transformed source, or would. -/
def isSynced : Outcome → Bool
  | .synced _ => true
  | _ => false

/-- The kind of outcome in words. -/
def status : Outcome → String
  | .synced _ => "synced"
  | .sourceMissing _ => "source missing"
  | .unreadable _ _ => "read error"
  | .unwritable _ => "write error"

/-- What went wrong, in words. -/
def detail? : Outcome → Option String
  | .synced _ => none
  | .sourceMissing source => some (source.text ++ " not found")
  | .unreadable source fault => some (fault.messageAt source)
  | .unwritable error => some error.message

/-- The update of the destination, if there was one. -/
def update? : Outcome → Option Update
  | .synced update => some update
  | _ => none

end Outcome

/-- A mapping with what became of it. -/
structure Row where
  mapping : Mapping
  outcome : Outcome
deriving DecidableEq

/-- One row for each mapping. -/
structure Report where
  rows : List Row
deriving DecidableEq

namespace Report

/-- How many mappings are synced. -/
def succeeded (r : Report) : Nat :=
  r.rows.countP (·.outcome.isSynced)

/-- How many mappings there are. -/
def total (r : Report) : Nat :=
  r.rows.length

/-- Whether every mapping is synced. -/
def isComplete (r : Report) : Bool :=
  r.succeeded == r.total

/-- The rows of the mappings that are not synced. -/
def failures (r : Report) : List Row :=
  r.rows.filter fun row => !row.outcome.isSynced

/-- How many destinations have, or would get, other bytes. -/
def changed (r : Report) : Nat :=
  r.rows.countP fun row => row.outcome.update?.any Update.isChange

end Report

/-- Where to read, where to write, how to transform, and whether to write at all. -/
structure Job where
  transformer : Transformer
  sourceDir : Path
  embeddedRoot : Path
  dryRun : Bool

namespace Job

/-- The source of a mapping. -/
def source (job : Job) (m : Mapping) : Path :=
  job.sourceDir.join m.source

/-- The destination of a mapping. -/
def target (job : Job) (m : Mapping) : Path :=
  m.target job.embeddedRoot

/-- Synchronise one mapping: what became of it, and the tree left behind. -/
def syncOne (job : Job) (m : Mapping) (tree : Tree) : Outcome × Tree :=
  let source := job.source m
  match tree.readText? source with
  | .error fault => (.unreadable source fault, tree)
  | .ok none => (.sourceMissing source, tree)
  | .ok (some text) =>
    match tree.update (job.target m) (job.transformer.transform text m.source) job.dryRun with
    | (.ok update, left) => (.synced update, left)
    | (.error error, left) => (.unwritable error, left)

/-- Synchronise mappings one after the other. -/
def syncAll (job : Job) : List Mapping → Tree → List Row × Tree
  | [], tree => ([], tree)
  | m :: ms, tree =>
    let (outcome, left) := job.syncOne m tree
    let (rows, final) := job.syncAll ms left
    (⟨m, outcome⟩ :: rows, final)

/-- Synchronise a table. -/
def run (job : Job) (table : MappingTable) (tree : Tree) : Report × Tree :=
  let (rows, left) := job.syncAll table.toList tree
  (⟨rows⟩, left)

end Job

end Sync

end Vendoring
