import Vendoring.Compare
import Vendoring.Proofs.Mapping.Validation
import Vendoring.Proofs.Path.Components
import Vendoring.Proofs.Sync.Locality

/-!
# Where sources lie

Synchronising and comparing read the same path for a mapping, its source read from the source
directory. It lies beneath this directory if the source stays inside, which is asked of destinations
only: a table may have any sources that are not empty and differ (`exists_ofList_resourced`). A
source that climbs leaves the directory, and an absolute one forgets it (`sources_exact`).
-/

namespace Vendoring

namespace Path

/-- The path has the components of the directory and behind them names only. -/
def Beneath (p directory : Path) : Prop :=
  ∃ names : List Name, p.components = directory.components ++ names.map .name

/-- An absolute path is joined to any other one as itself. -/
theorem join_of_absolute (p : Path) {q : Path} (hq : q.isAbsolute = true) : p.join q = q := by
  unfold join
  rw [if_pos hq]

/-- Components other than the root, `.` and `..` are those of names. -/
theorem eq_map_name_iff {p : Path} (hp : p.isAbsolute = false) :
    (∃ names : List Name, p.normalized = names.map .name) ↔ .parent ∉ p.components := by
  have hnormalized : p.normalized = p.names.map componentOf := by
    rw [normalized_eq, hp]
    rfl
  rw [hnormalized, parent_mem_components]
  constructor
  · rintro ⟨names, hnames⟩ hup
    have hmem : .parent ∈ p.names.map componentOf :=
      List.mem_map.2 ⟨_, hup, componentOf_eq_parent.2 rfl⟩
    rw [hnames] at hmem
    simp at hmem
  · intro hup
    refine ⟨p.names, List.map_congr_left fun name hname => ?_⟩
    unfold componentOf
    rw [if_neg]
    rintro rfl
    exact hup hname

/-- A relative path that is read from a directory lies beneath it exactly if it does not climb. -/
theorem beneath_join_iff {directory q : Path} (hne : directory.text ≠ "")
    (hq : q.isAbsolute = false) :
    (directory.join q).Beneath directory ↔ .parent ∉ q.components := by
  unfold Beneath
  rw [components_join _ hq, if_neg hne]
  simp only [List.append_cancel_left_eq]
  exact eq_map_name_iff hq

end Path

namespace MappingTable

/-- A table remains one if its sources are replaced by any others that are not empty and differ. -/
theorem exists_ofList_resourced {entries : List Mapping} {table : MappingTable}
    (h : ofList entries = .ok table) (source : Mapping → Path)
    (hne : ∀ m ∈ entries, (source m).text ≠ "")
    (hapart : entries.Pairwise fun m n => (source m).normalized ≠ (source n).normalized) :
    ∃ other, ofList (entries.map fun m => ⟨source m, m.destination⟩) = .ok other := by
  obtain rfl := ofList_eq_ok_iff.1 h
  have haccepted := acceptable_iff.2 table.valid
  have hresourced : Acceptable (table.toList.map fun m => ⟨source m, m.destination⟩) := by
    refine ⟨?_, ?_, List.pairwise_map.2 hapart, List.pairwise_map.2 haccepted.destinations⟩
    · intro n hn
      obtain ⟨m, hm, rfl⟩ := List.mem_map.1 hn
      exact ⟨hne m hm, (haccepted.nonempty m hm).2⟩
    · intro n hn
      obtain ⟨m, hm, rfl⟩ := List.mem_map.1 hn
      exact haccepted.files m hm
  exact ⟨⟨_, acceptable_iff.1 hresourced⟩, ofList_eq_ok_iff.2 rfl⟩

end MappingTable

namespace Sync.Job

/-- What is read for a mapping, from a source directory that is not empty. -/
structure Sourced (job : Job) (m : Mapping) : Prop where
  relative : m.source.isAbsolute = false →
    (job.source m).components = job.sourceDir.components ++ m.source.normalized
  beneath : m.source.isAbsolute = false →
    ((job.source m).Beneath job.sourceDir ↔ .parent ∉ m.source.components)
  absolute : m.source.isAbsolute = true → job.source m = m.source
  inside : m.source.staysInside = true → ∀ (tree : Tree) (content : ByteArray),
    tree.read (job.source m) = .ok content →
      tree.kind (tree.placeOf job.sourceDir ++ m.source.names) = .file content

/-- Below a directory with a name every source is read from where its mapping says. -/
theorem sourced {job : Job} (hdir : job.sourceDir.text ≠ "") (m : Mapping) : job.Sourced m where
  relative hrelative := by
    unfold source
    rw [Path.components_join _ hrelative, if_neg hdir]
  beneath hrelative := Path.beneath_join_iff hdir hrelative
  absolute habsolute := Path.join_of_absolute _ habsolute
  inside hinside tree content hread := by
    obtain ⟨hrelative, hup⟩ := Path.staysInside_iff.1 hinside
    rw [← Tree.placeOf_join tree job.sourceDir hrelative (Tree.plain_names_iff.2 hup)]
    exact (Tree.read_eq_ok hread).2.2.1

/-- A relative source of a table adds its components to those of the source directory, so that
the path that is read lies beneath the directory exactly if the source has no `..`; then what is
read stands below the place of the directory. An absolute source is read as it is. The check of a
table refuses neither: any sources that are not empty and differ make a table with the same
destinations. -/
theorem sources_exact {job : Job} (hdir : job.sourceDir.text ≠ "") {entries : List Mapping}
    {table : MappingTable} (h : MappingTable.ofList entries = .ok table) :
    (∀ m ∈ table.toList, job.Sourced m) ∧
      ∀ source : Mapping → Path, (∀ m ∈ entries, (source m).text ≠ "") →
        (entries.Pairwise fun m n => (source m).normalized ≠ (source n).normalized) →
        ∃ other, MappingTable.ofList (entries.map fun m => ⟨source m, m.destination⟩) = .ok other :=
  ⟨fun m _ => sourced hdir m, fun source => MappingTable.exists_ofList_resourced h source⟩

/-- A table with a source that climbs and one that is absolute. -/
def strayTable : MappingTable :=
  ⟨[⟨⟨"a.hpp"⟩, ⟨"a.hpp"⟩⟩, ⟨⟨"../b.hpp"⟩, ⟨"b.hpp"⟩⟩, ⟨⟨"/c.hpp"⟩, ⟨"c.hpp"⟩⟩], by decide⟩

/-- A checkout with one header in its source directory, one beside it and one outside. -/
def strayTree : Tree :=
  { root := .directory [("up".toList, .directory
      [("src".toList, .directory [("a.hpp".toList, .file "int a;".toUTF8)]),
        ("b.hpp".toList, .file "int b;".toUTF8)]), ("c.hpp".toList, .file "int c;".toUTF8)]
    here := [] }

/-- The header beside the source directory and the one outside are vendored like the one inside. -/
theorem sources_exact_sample :
    sampleJob.sourceDir.text ≠ "" ∧
      MappingTable.ofList strayTable.toList = .ok strayTable ∧
      (sampleJob.source ⟨⟨"a.hpp"⟩, ⟨"a.hpp"⟩⟩).Beneath sampleJob.sourceDir ∧
      ¬ (sampleJob.source ⟨⟨"../b.hpp"⟩, ⟨"b.hpp"⟩⟩).Beneath sampleJob.sourceDir ∧
      sampleJob.source ⟨⟨"/c.hpp"⟩, ⟨"c.hpp"⟩⟩ = ⟨"/c.hpp"⟩ ∧
      (sampleJob.run strayTable strayTree).1.rows.map (·.outcome) =
        [.synced .written, .synced .written, .synced .written] ∧
      (sampleJob.compare strayTable strayTree).changed.map (·.1) =
        [⟨"host/src/a.hpp"⟩, ⟨"host/src/b.hpp"⟩, ⟨"host/src/c.hpp"⟩] := by
  have hdir : sampleJob.sourceDir.text ≠ "" := by decide
  have htable := MappingTable.ofList_toList strayTable
  have hsourced := (sources_exact hdir htable).1
  refine ⟨hdir, htable, ?_, ?_, ?_, by decide +kernel, by decide +kernel⟩
  · exact ((hsourced ⟨⟨"a.hpp"⟩, ⟨"a.hpp"⟩⟩ (by decide)).beneath (by decide)).2 (by decide)
  · exact fun hbeneath =>
      ((hsourced ⟨⟨"../b.hpp"⟩, ⟨"b.hpp"⟩⟩ (by decide)).beneath (by decide)).1 hbeneath (by decide)
  · exact (hsourced ⟨⟨"/c.hpp"⟩, ⟨"c.hpp"⟩⟩ (by decide)).absolute (by decide)

end Sync.Job

end Vendoring
