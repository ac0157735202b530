import Vendoring.Proofs.Sync.Locality

/-!
# What a report promises

A row that says that its mapping is synced tells the truth about the end of the run, and not only
about the moment when it was written: the destination can be read and holds the transformed text of
the source (`Delivered`). No other mapping writes to the destination, since the destinations of a
table differ. But a mapping also writes the staging file of its destination, and this may be the
destination of another mapping, which is then lost (`Swept`). Nothing else is ever lost
(`run_sound`).
-/

namespace Vendoring

/-- No staging file of the table lies at the destination of the mapping or above it. -/
def MappingTable.StagesClear (table : MappingTable) (m : Mapping) : Prop :=
  ∀ n ∈ table.toList, ¬ n.destination.staging.names <+: m.destination.names

namespace Sync.Job

/-- Synchronising the mapping gets as far as writing the staging file of its destination. -/
def Stages (job : Job) (m : Mapping) (tree : Tree) : Prop :=
  ∃ text, tree.readText? (job.source m) = .ok (some text) ∧
    tree.Stages (job.target m) (job.transformer.transform text m.source)

/-- While the mappings are synchronised, one of them writes its staging file over the path. -/
def Sweeps (job : Job) (mappings : List Mapping) (tree : Tree) (p : Path) : Prop :=
  ∃ done n rest, mappings = done ++ n :: rest ∧ job.Stages n (job.syncAll done tree).2 ∧
    job.stagingPlace tree n = tree.placeOf p

/-- A mapping behind this one in the table writes its staging file over the destination. -/
def Swept (job : Job) (table : MappingTable) (tree : Tree) (m : Mapping) : Prop :=
  ∃ front back, table.toList = front ++ m :: back ∧
    job.Sweeps back (job.syncAll (front ++ [m]) tree).2 (job.target m)

/-- In the second tree the destination has the transformed text of the source in the first one:
these bytes if they were written, and their digest in any case. -/
def Delivered (job : Job) (m : Mapping) (update : Update) (s t : Tree) : Prop :=
  ∃ text content, s.readText? (job.source m) = .ok (some text) ∧
    t.read (job.target m) = .ok content ∧
    Digest.ofContent content =
      Digest.ofContent (job.transformer.transform text m.source).toUTF8 ∧
    (update = .written → content = (job.transformer.transform text m.source).toUTF8)

/-! ## Places of destinations -/

/-- A destination lies straight below the place of the root, wherever that is. -/
theorem targetPlace_of_mem (job : Job) {table : MappingTable} {m : Mapping}
    (hm : m ∈ table.toList) (tree : Tree) :
    job.targetPlace tree m = tree.placeOf job.embeddedRoot ++ m.destination.names := by
  obtain ⟨hrelative, hplain, -⟩ := sound_of_mem hm
  exact Tree.placeOf_join tree job.embeddedRoot hrelative hplain

/-- Mappings further down in a table have other destinations. -/
theorem targetPlace_ne (job : Job) {table : MappingTable} {front back : List Mapping} {m : Mapping}
    (htable : table.toList = front ++ m :: back) (tree : Tree) :
    ∀ n ∈ back, job.targetPlace tree n ≠ job.targetPlace tree m := by
  intro n hn heq
  have hapart := (MappingTable.firstFault?_eq_none_iff.1 table.valid).2
  rw [show table.entries = front ++ m :: back from htable] at hapart
  have hne := ((List.pairwise_cons.1 (List.pairwise_append.1 hapart).2.1).1 n hn).2
  have hm : m ∈ table.toList := by simp [htable]
  have hn : n ∈ table.toList := by simp [htable, hn]
  rw [targetPlace_of_mem job hm, targetPlace_of_mem job hn, List.append_right_inj] at heq
  refine hne (Path.normalized_inj.2 ⟨?_, heq.symm⟩)
  rw [(sound_of_mem hm).1, (sound_of_mem hn).1]

/-- A staging file lies straight below the place of the root, wherever that is. -/
theorem stagingPlace_of_mem (job : Job) {table : MappingTable} {m : Mapping}
    (hm : m ∈ table.toList) (tree : Tree) :
    job.stagingPlace tree m = tree.placeOf job.embeddedRoot ++ m.destination.staging.names := by
  obtain ⟨hrelative, hplain, hne⟩ := sound_of_mem hm
  exact Tree.placeOf_staging_join tree job.embeddedRoot hrelative hplain hne

/-- A destination that is not named like a staging file is clear of all of them. -/
theorem stagesClear_of_unstaged {table : MappingTable} {m : Mapping}
    (h : m.destination.isUnstaged = true) : table.StagesClear m :=
  fun _ hn => Path.not_staging_prefix (sound_of_mem hn).2.2 h

/-! ## One mapping beside a file -/

variable {job : Job} {tree : Tree}

/-- A file stays readable if the mapping writes neither it nor a staging file over it. -/
theorem read_syncOne (hdry : job.dryRun = false) {n : Mapping} {p : Path} {content : ByteArray}
    (hread : tree.read p = .ok content) (htarget : job.targetPlace tree n ≠ tree.placeOf p)
    (hspared : ¬ (job.Stages n tree ∧ job.stagingPlace tree n = tree.placeOf p)) :
    (job.syncOne n tree).2.read p = .ok content := by
  by_cases htext : ∃ text, tree.readText? (job.source n) = .ok (some text)
  · obtain ⟨text, htext⟩ := htext
    rw [syncOne_of_text hdry htext]
    obtain ⟨hhere, hdirectories, hfiles, -⟩ :=
      tree.update_kind (job.target n) (job.transformer.transform text n.source)
    refine Tree.read_of_directories hhere hdirectories hread ?_
    refine hfiles _ _ (Tree.read_eq_ok hread).2.2.1 htarget.symm ?_
    rintro ⟨hstages, hplace⟩
    exact hspared ⟨⟨text, htext, hstages⟩, hplace.symm⟩
  · rw [(syncOne_of_lost fun text h => htext ⟨text, h⟩).2]
    exact hread

/-- Nothing is left of a file over which a staging file is written. -/
theorem kind_syncOne_of_stages (hdry : job.dryRun = false) {n : Mapping} {place : List Name}
    (htarget : job.targetPlace tree n ≠ place) (hstages : job.Stages n tree)
    (hplace : job.stagingPlace tree n = place) : (job.syncOne n tree).2.kind place = .missing := by
  obtain ⟨text, htext, hstages⟩ := hstages
  rw [syncOne_of_text hdry htext]
  exact (tree.update_kind (job.target n) (job.transformer.transform text n.source)).2.2.2 place
    htarget.symm hstages hplace.symm

/-- A file that stands anywhere but at the destination stood there before. -/
theorem file_of_syncOne (hdry : job.dryRun = false) {n : Mapping} {place : List Name}
    (htarget : job.targetPlace tree n ≠ place) {content : ByteArray}
    (h : (job.syncOne n tree).2.kind place = .file content) : tree.kind place = .file content := by
  rcases syncOne_tree hdry n tree with heq | ⟨text, heq⟩ <;> rw [heq] at h
  · exact h
  · exact Tree.file_of_update h htarget.symm

/-! ## Many mappings beside a file -/

/-- Mappings in front are synchronised first, those behind in the tree that they leave. -/
theorem syncAll_append (job : Job) (front back : List Mapping) (tree : Tree) :
    (job.syncAll (front ++ back) tree).2 = (job.syncAll back (job.syncAll front tree).2).2 := by
  induction front generalizing tree with
  | nil => rfl
  | cons m front ih =>
      rw [List.cons_append, syncAll_cons, syncAll_cons]
      exact ih _

/-- The last mapping is synchronised in the tree that the others leave. -/
theorem syncAll_concat (job : Job) (front : List Mapping) (m : Mapping) (tree : Tree) :
    (job.syncAll (front ++ [m]) tree).2 = (job.syncOne m (job.syncAll front tree).2).2 := by
  rw [syncAll_append]
  rfl

/-- A run goes through any mapping of its table. -/
theorem run_eq {table : MappingTable} {front back : List Mapping} {m : Mapping}
    (htable : table.toList = front ++ m :: back) :
    (job.run table tree).2 = (job.syncAll back (job.syncAll (front ++ [m]) tree).2).2 := by
  rw [← syncAll_append, List.append_assoc, List.singleton_append, ← htable]
  rfl

/-- The place of a destination is told by the working directory. -/
theorem targetPlace_congr {s t : Tree} (h : t.here = s.here) (m : Mapping) :
    job.targetPlace t m = job.targetPlace s m :=
  Tree.placeOf_congr h _

/-- A file that is no destination of the mappings, and that none of them sweeps, keeps its bytes. -/
theorem read_syncAll (hdry : job.dryRun = false) {p : Path} {content : ByteArray}
    {mappings : List Mapping} (hread : tree.read p = .ok content)
    (htargets : ∀ n ∈ mappings, job.targetPlace tree n ≠ tree.placeOf p)
    (hspared : ¬ job.Sweeps mappings tree p) :
    (job.syncAll mappings tree).2.read p = .ok content := by
  induction mappings generalizing tree with
  | nil => exact hread
  | cons n mappings ih =>
      have hhere := here_syncOne hdry n tree
      rw [syncAll_cons]
      refine ih (read_syncOne hdry hread (htargets n (by simp)) ?_) ?_ ?_
      · rintro ⟨hstages, hplace⟩
        exact hspared ⟨[], n, mappings, rfl, hstages, hplace⟩
      · intro k hk
        rw [targetPlace_congr hhere, Tree.placeOf_congr hhere]
        exact htargets k (by simp [hk])
      · rintro ⟨done, k, rest, rfl, hstages, hplace⟩
        refine hspared ⟨n :: done, k, rest, rfl, ?_, ?_⟩
        · rw [syncAll_cons]
          exact hstages
        · rw [stagingPlace, Tree.placeOf_congr hhere, Tree.placeOf_congr hhere] at hplace
          exact hplace

/-- A file that stands anywhere but at a destination stood there before the mappings. -/
theorem file_of_syncAll (hdry : job.dryRun = false) {place : List Name} {mappings : List Mapping}
    (htargets : ∀ n ∈ mappings, job.targetPlace tree n ≠ place) {content : ByteArray}
    (h : (job.syncAll mappings tree).2.kind place = .file content) :
    tree.kind place = .file content := by
  induction mappings generalizing tree with
  | nil => exact h
  | cons n mappings ih =>
      rw [syncAll_cons] at h
      refine file_of_syncOne hdry (htargets n (by simp)) (ih ?_ h)
      intro k hk
      rw [targetPlace_congr (here_syncOne hdry n tree)]
      exact htargets k (by simp [hk])

/-- A file over which a staging file is written is not there any more at the end. -/
theorem not_read_of_sweeps (hdry : job.dryRun = false) {p : Path} {mappings : List Mapping}
    (htargets : ∀ n ∈ mappings, job.targetPlace tree n ≠ tree.placeOf p)
    (hsweeps : job.Sweeps mappings tree p) (content : ByteArray) :
    (job.syncAll mappings tree).2.read p ≠ .ok content := by
  obtain ⟨done, n, rest, rfl, hstages, hplace⟩ := hsweeps
  intro hread
  have hhere := here_syncAll hdry done tree
  have hhere' := (here_syncOne hdry n (job.syncAll done tree).2).trans hhere
  have hfile := (Tree.read_eq_ok hread).2.2.1
  rw [Tree.placeOf_congr (here_syncAll hdry _ tree), syncAll_append, syncAll_cons] at hfile
  have hkept := file_of_syncAll hdry (fun k hk => ?_) hfile
  · rw [kind_syncOne_of_stages hdry ?_ hstages ?_] at hkept
    · cases hkept
    · rw [targetPlace_congr hhere]
      exact htargets n (by simp)
    · rw [stagingPlace, Tree.placeOf_congr hhere]
      exact hplace
  · rw [targetPlace_congr hhere']
    exact htargets k (by simp [hk])

/-! ## Rows -/

/-- A row is about a mapping that was synchronised behind those in front of it. -/
theorem exists_of_mem_rows {mappings : List Mapping} {row : Row}
    (h : row ∈ (job.syncAll mappings tree).1) :
    ∃ front back, mappings = front ++ row.mapping :: back ∧
      row.outcome = (job.syncOne row.mapping (job.syncAll front tree).2).1 := by
  induction mappings generalizing tree with
  | nil => exact absurd h List.not_mem_nil
  | cons m mappings ih =>
      rw [syncAll_cons] at h
      rcases List.mem_cons.1 h with rfl | h
      · exact ⟨[], mappings, rfl, rfl⟩
      · obtain ⟨front, back, rfl, houtcome⟩ := ih h
        refine ⟨m :: front, back, rfl, ?_⟩
        rw [houtcome, syncAll_cons]

/-- A synced mapping has a source text, to which its destination was updated. -/
theorem update_of_synced (hdry : job.dryRun = false) {m : Mapping} {update : Update}
    (h : (job.syncOne m tree).1 = .synced update) :
    ∃ text, tree.readText? (job.source m) = .ok (some text) ∧
      tree.update (job.target m) (job.transformer.transform text m.source) false =
        (.ok update, (job.syncOne m tree).2) := by
  by_cases htext : ∃ text, tree.readText? (job.source m) = .ok (some text)
  · obtain ⟨text, htext⟩ := htext
    refine ⟨text, htext, ?_⟩
    unfold syncOne at h ⊢
    simp only [htext, hdry] at h ⊢
    split at h
    · rename_i done left hupdate
      cases h
      rw [hupdate]
    · cases h
  · have hnone := (syncOne_of_lost fun text h => htext ⟨text, h⟩).1
    rw [h] at hnone
    cases hnone

/-- A synced mapping is delivered right away. -/
theorem delivered_syncOne (hdry : job.dryRun = false) {m : Mapping} {update : Update}
    (h : (job.syncOne m tree).1 = .synced update) :
    job.Delivered m update tree (job.syncOne m tree).2 := by
  obtain ⟨text, htext, hupdate⟩ := update_of_synced hdry h
  obtain ⟨content, hread, hcontent⟩ := Tree.read_of_update hupdate
  exact ⟨text, content, htext, hread, hcontent⟩

/-- A mapping whose destination was written has gone through its staging file. -/
theorem stages_of_synced (hdry : job.dryRun = false) {m : Mapping}
    (h : (job.syncOne m tree).1 = .synced .written) : job.Stages m tree := by
  obtain ⟨text, htext, hupdate⟩ := update_of_synced hdry h
  exact ⟨text, htext, Tree.stages_of_written hupdate⟩

section Tables

variable {table : MappingTable}

/-- A synced mapping is delivered at the end of the run, too, unless it is swept. -/
theorem run_delivered (hdry : job.dryRun = false) (hundisturbed : job.Undisturbed table.toList tree)
    {row : Row} (hrow : row ∈ (job.run table tree).1.rows) {update : Update}
    (hsynced : row.outcome = .synced update) (hspared : ¬ job.Swept table tree row.mapping) :
    job.Delivered row.mapping update tree (job.run table tree).2 := by
  obtain ⟨front, back, htable, houtcome⟩ := exists_of_mem_rows hrow
  rw [houtcome] at hsynced
  obtain ⟨text, content, htext, hread, hcontent⟩ := delivered_syncOne hdry hsynced
  rw [hundisturbed front ⟨_, htable.symm⟩ row.mapping (by simp [htable])] at htext
  rw [← syncAll_concat] at hread
  refine ⟨text, content, htext, ?_, hcontent⟩
  rw [run_eq htable]
  refine read_syncAll hdry hread (targetPlace_ne job htable _) ?_
  intro hsweeps
  exact hspared ⟨front, back, htable, hsweeps⟩

/-- A destination that is swept cannot be read at the end of the run. -/
theorem run_swept (hdry : job.dryRun = false) {m : Mapping} (h : job.Swept table tree m)
    (content : ByteArray) : (job.run table tree).2.read (job.target m) ≠ .ok content := by
  obtain ⟨front, back, htable, hsweeps⟩ := h
  rw [run_eq htable]
  exact not_read_of_sweeps hdry (targetPlace_ne job htable _) hsweeps content

/-- No mapping of the table writes its staging file over a destination that is clear of them. -/
theorem not_sweeps_of_stagesClear {m : Mapping} (hm : m ∈ table.toList) (hclear : table.StagesClear m)
    {mappings : List Mapping} (hmappings : ∀ n ∈ mappings, n ∈ table.toList) (tree : Tree) :
    ¬ job.Sweeps mappings tree (job.target m) := by
  rintro ⟨done, n, rest, rfl, -, hplace⟩
  have hn : n ∈ table.toList := hmappings n (by simp)
  rw [stagingPlace_of_mem job hn, ← targetPlace, targetPlace_of_mem job hm,
    List.append_right_inj] at hplace
  exact hclear n hn (hplace ▸ List.prefix_rfl)

/-- Only a mapping whose destination is named like a staging file can be swept. -/
theorem not_swept_of_unstaged {m : Mapping} (hunstaged : m.destination.isUnstaged = true) :
    ¬ job.Swept table tree m := by
  rintro ⟨front, back, htable, hsweeps⟩
  have hm : m ∈ table.toList := by simp [htable]
  have hback : ∀ n ∈ back, n ∈ table.toList := fun n hn => by simp [htable, hn]
  exact not_sweeps_of_stagesClear hm (stagesClear_of_unstaged hunstaged) hback _ hsweeps

/-- If no destination is named like a staging file, then all synced mappings are delivered. -/
theorem run_delivered_of_unstaged (hdry : job.dryRun = false)
    (hundisturbed : job.Undisturbed table.toList tree)
    (hunstaged : ∀ m ∈ table.toList, m.destination.isUnstaged = true) :
    ∀ row ∈ (job.run table tree).1.rows, ∀ update, row.outcome = .synced update →
      job.Delivered row.mapping update tree (job.run table tree).2 := by
  intro row hrow update hsynced
  obtain ⟨front, back, htable, -⟩ := exists_of_mem_rows hrow
  have hmem : row.mapping ∈ table.toList := by simp [htable]
  exact run_delivered hdry hundisturbed hrow hsynced
    (not_swept_of_unstaged (hunstaged row.mapping hmem))

/-- A row that says synced is right at the end of the run, unless a mapping behind it writes its
staging file over the destination; then the destination cannot be read. -/
theorem run_sound (hdry : job.dryRun = false) (hundisturbed : job.Undisturbed table.toList tree) :
    ∀ row ∈ (job.run table tree).1.rows, ∀ update, row.outcome = .synced update →
      (¬ job.Swept table tree row.mapping →
        job.Delivered row.mapping update tree (job.run table tree).2) ∧
      (job.Swept table tree row.mapping → ∀ content,
        (job.run table tree).2.read (job.target row.mapping) ≠ .ok content) := by
  intro row hrow update hsynced
  constructor
  · intro hspared
    exact run_delivered hdry hundisturbed hrow hsynced hspared
  · intro hswept
    exact run_swept hdry hswept

end Tables

/-- The first header goes where the second one is staged. -/
def sweepingTable : MappingTable :=
  ⟨[⟨⟨"a.hpp"⟩, ⟨"b.hpp.embedsync.tmp"⟩⟩, ⟨⟨"b.hpp"⟩, ⟨"b.hpp"⟩⟩], by decide⟩

/-- Both rows say that they were written, and the file of the first one is gone. -/
theorem run_sound_sample :
    sampleJob.Undisturbed sweepingTable.toList sampleTree ∧
      (sampleJob.run sweepingTable sampleTree).1.rows =
        [⟨⟨⟨"a.hpp"⟩, ⟨"b.hpp.embedsync.tmp"⟩⟩, .synced .written⟩,
          ⟨⟨⟨"b.hpp"⟩, ⟨"b.hpp"⟩⟩, .synced .written⟩] ∧
      (∀ content, (sampleJob.run sweepingTable sampleTree).2.read
        ⟨"host/src/b.hpp.embedsync.tmp"⟩ ≠ .ok content) ∧
      sampleJob.Delivered ⟨⟨"b.hpp"⟩, ⟨"b.hpp"⟩⟩ .written sampleTree
        (sampleJob.run sweepingTable sampleTree).2 := by
  have hundisturbed : sampleJob.Undisturbed sweepingTable.toList sampleTree := by decide +kernel
  have hrows : (sampleJob.run sweepingTable sampleTree).1.rows =
      [⟨⟨⟨"a.hpp"⟩, ⟨"b.hpp.embedsync.tmp"⟩⟩, .synced .written⟩,
        ⟨⟨⟨"b.hpp"⟩, ⟨"b.hpp"⟩⟩, .synced .written⟩] := by
    decide +kernel
  have hsound := run_sound rfl hundisturbed
  rw [hrows] at hsound
  have hswept : sampleJob.Swept sweepingTable sampleTree
      ⟨⟨"a.hpp"⟩, ⟨"b.hpp.embedsync.tmp"⟩⟩ :=
    ⟨[], [⟨⟨"b.hpp"⟩, ⟨"b.hpp"⟩⟩], rfl, [], ⟨⟨"b.hpp"⟩, ⟨"b.hpp"⟩⟩, [], rfl,
      stages_of_synced rfl (by decide +kernel), rfl⟩
  refine ⟨hundisturbed, hrows, ?_, ?_⟩
  · exact (hsound _ (List.mem_cons_self ..) .written rfl).2 hswept
  · have hrow := List.mem_cons_of_mem ⟨⟨⟨"a.hpp"⟩, ⟨"b.hpp.embedsync.tmp"⟩⟩, .synced .written⟩
      (List.mem_singleton_self (⟨⟨⟨"b.hpp"⟩, ⟨"b.hpp"⟩⟩, .synced .written⟩ : Row))
    exact (hsound _ hrow .written rfl).1 (not_swept_of_unstaged (by decide))

end Sync.Job

end Vendoring
