import Vendoring.LineDiff.Unified
import Vendoring.Sync

/-!
# Comparing a table of mappings

What synchronising would write is compared with what is there, mapping by mapping. A mapping whose
source does not exist is listed as missing, one whose source or destination gives no text as
unreadable, and one whose destination would change is shown as a unified difference; a destination
that does not exist counts as empty.
-/

namespace Vendoring.Sync

/-- What comparing a mapping shows. -/
inductive Comparison where
  | same
  | changed (destination : Path) (difference : String)
  | missing
  | unreadable (path : Path) (fault : TextFault)
deriving DecidableEq

/-- The difference of two texts of a destination. -/
def difference (destination : Path) (old new : String) : String :=
  LineDiff.unified ("a/" ++ destination.text) ("b/" ++ destination.text) old new

/-- Compare one mapping. -/
def Job.compareOne (job : Job) (tree : Tree) (m : Mapping) : Comparison :=
  let source := job.source m
  match tree.readText? source with
  | .error fault => .unreadable source fault
  | .ok none => .missing
  | .ok (some text) =>
    let target := job.target m
    let new := job.transformer.transform text m.source
    match tree.readText? target with
    | .error fault => .unreadable target fault
    | .ok found =>
      let old := found.getD ""
      if old = new then .same else .changed target (difference m.destination old new)

/-- What comparing every mapping of a table shows. -/
structure Differences where
  comparisons : List (Mapping × Comparison)

namespace Differences

/-- The destinations that would change, with their differences. -/
def changed (d : Differences) : List (Path × String) :=
  d.comparisons.filterMap fun
    | (_, .changed destination text) => some (destination, text)
    | _ => none

/-- The mappings whose sources do not exist. -/
def missing (d : Differences) : List Mapping :=
  d.comparisons.filterMap fun
    | (m, .missing) => some m
    | _ => none

/-- The mappings that cannot be compared, with the reason. -/
def unreadable (d : Differences) : List (Mapping × String) :=
  d.comparisons.filterMap fun
    | (m, .unreadable path fault) => some (m, fault.messageAt path)
    | _ => none

/-- Whether no destination would change. -/
def isClean (d : Differences) : Bool :=
  d.changed.isEmpty

end Differences

/-- Compare every mapping of a table. -/
def Job.compare (job : Job) (table : MappingTable) (tree : Tree) : Differences :=
  ⟨table.toList.map fun m => (m, job.compareOne tree m)⟩

end Vendoring.Sync
