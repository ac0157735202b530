import Vendoring.Proofs.Stamp.Apply
import Vendoring.Proofs.Sync.Soundness

/-!
# Dry runs

A dry run looks at every destination and writes none, so each of its rows is about the tree as it
is. The run itself finds the tree that the mappings in front have left. What the two say about a
mapping is the same all the same, but for one thing: a file that would be written may turn out not
to be writable (`run_rehearsed`). This is told by the tree that the run finds there, and by the tree
at the beginning if no destination lies above another one.

It takes destinations that are clear of the staging files of the table (`StagesClear`), and that are
not hidden behind a directory which is missing until the run makes it (`Visible`).
-/

namespace Vendoring

namespace Sync

/-! ## What a rehearsal says -/

/-- What becomes of a mapping by the update of its destination. -/
def Outcome.ofUpdate : Except FileError Update → Outcome
  | .ok update => .synced update
  | .error error => .unwritable error

/-- What can become of a mapping, by what its rehearsal says. -/
inductive Outcome.Foretells : Outcome → Outcome → Prop where
  | unchanged : Foretells (.synced .unchanged) (.synced .unchanged)
  | written : Foretells (.synced .wouldWrite) (.synced .written)
  | thwarted (error : FileError) : Foretells (.synced .wouldWrite) (.unwritable error)
  | sourceMissing (source : Path) : Foretells (.sourceMissing source) (.sourceMissing source)
  | unreadable (source : Path) (fault : TextFault) :
      Foretells (.unreadable source fault) (.unreadable source fault)
  | unwritable (error : FileError) : Foretells (.unwritable error) (.unwritable error)

/-- The rows are about one mapping, and the first one foretells the second one. -/
def Row.Foretells (rehearsed real : Row) : Prop :=
  rehearsed.mapping = real.mapping ∧ rehearsed.outcome.Foretells real.outcome

/-- How many mappings are synced in the first report and not in the second one. -/
def Report.thwarted (rehearsed real : Report) : Nat :=
  (rehearsed.rows.zip real.rows).countP fun (before, after) =>
    before.outcome.isSynced && !after.outcome.isSynced

/-- A mapping counts for its rehearsal as it counts for itself, and for being thwarted. -/
theorem Outcome.Foretells.count {before after : Outcome} (h : before.Foretells after) :
    (if before.isSynced then 1 else 0) =
        (if after.isSynced then 1 else 0) + (if before.isSynced && !after.isSynced then 1 else 0) ∧
      (if before.update?.any Update.isChange then 1 else 0) =
        (if after.update?.any Update.isChange then 1 else 0) +
          (if before.isSynced && !after.isSynced then 1 else 0) := by
  cases h <;> exact ⟨rfl, rfl⟩

/-- Reports with rows that foretell one another differ in what they count by the mappings that were
thwarted. -/
theorem counts_of_foretells {rehearsed real : Report}
    (h : List.Forall₂ Row.Foretells rehearsed.rows real.rows) :
    rehearsed.total = real.total ∧
      rehearsed.succeeded = real.succeeded + rehearsed.thwarted real ∧
      rehearsed.changed = real.changed + rehearsed.thwarted real := by
  refine ⟨h.length_eq, ?_⟩
  obtain ⟨before⟩ := rehearsed
  obtain ⟨after⟩ := real
  unfold Report.succeeded Report.changed Report.thwarted
  simp only at h ⊢
  induction h with
  | nil => exact ⟨rfl, rfl⟩
  | cons hrow _ ih =>
      obtain ⟨hsynced, hchange⟩ := hrow.2.count
      obtain ⟨hsucceeded, hchanged⟩ := ih
      simp only [List.zip_cons_cons, List.countP_cons]
      constructor
      · rw [hsucceeded, hsynced]
        omega
      · rw [hchanged, hchange]
        omega

namespace Job

/-- The job as a dry run. -/
def rehearsal (job : Job) : Job :=
  { job with dryRun := true }

/-- A file that stands at the place of a destination is not missed when the destination is read, as
it would be behind a directory that is not there. -/
def Visible (job : Job) (table : MappingTable) (tree : Tree) : Prop :=
  ∀ m ∈ table.toList, ∀ content, tree.kind (job.targetPlace tree m) = .file content →
    tree.read (job.target m) ≠ .error .notFound

variable {job : Job} {table : MappingTable} {tree : Tree}

/-- The rows of a report are those of its mappings. -/
theorem rows_run (job : Job) (table : MappingTable) (tree : Tree) :
    (job.run table tree).1.rows = (job.syncAll table.toList tree).1 := rfl

/-- The rows of a dry run are about the tree as it is. -/
theorem rows_rehearsal (job : Job) (mappings : List Mapping) (tree : Tree) :
    (job.rehearsal.syncAll mappings tree).1 =
      mappings.map fun m => ⟨m, (job.rehearsal.syncOne m tree).1⟩ := by
  induction mappings with
  | nil => rfl
  | cons m mappings ih =>
      rw [syncAll_cons, syncOne_dry rfl, List.map_cons, ih]

/-- What became of a mapping is told by what its source reads and by the update of its
destination. -/
theorem syncOne_outcome (job : Job) (m : Mapping) (tree : Tree) :
    (job.syncOne m tree).1 =
      match tree.readText? (job.source m) with
      | .error fault => .unreadable (job.source m) fault
      | .ok none => .sourceMissing (job.source m)
      | .ok (some text) => .ofUpdate
        (tree.update (job.target m) (job.transformer.transform text m.source) job.dryRun).1 := by
  unfold syncOne
  simp only
  cases tree.readText? (job.source m) with
  | error fault => rfl
  | ok found =>
      cases found with
      | none => rfl
      | some text =>
          simp only
          split <;> rename_i hupdate <;> rw [hupdate] <;> rfl

/-- A rehearsed mapping has the outcome of its source, or that of a dry update. -/
theorem syncOne_rehearsal (job : Job) (m : Mapping) (tree : Tree) :
    (job.rehearsal.syncOne m tree).1 =
      match tree.readText? (job.source m) with
      | .error fault => .unreadable (job.source m) fault
      | .ok none => .sourceMissing (job.source m)
      | .ok (some text) => .ofUpdate
        (tree.update (job.target m) (job.transformer.transform text m.source) true).1 :=
  syncOne_outcome job.rehearsal m tree

/-- Nothing is written to a destination that has the digest of the text. -/
theorem syncOne_of_holds {m : Mapping} {text : String}
    (htext : tree.readText? (job.source m) = .ok (some text))
    (hholds : tree.Holds (job.target m) (job.transformer.transform text m.source).toUTF8) :
    (job.syncOne m tree).1 = .synced .unchanged := by
  rw [syncOne_outcome, htext]
  simp only
  rw [Tree.update_of_holds hholds]
  rfl

/-! ## Destinations that are not hidden -/

/-- Below a root that is reached without climbing no destination is hidden. -/
theorem visible_of_root (hroot : .parent ∉ job.embeddedRoot.components) (table : MappingTable)
    (tree : Tree) : job.Visible table tree := by
  intro m hm content hfile
  obtain ⟨hplain, hne⟩ := plain_of_root hroot table m hm
  rw [targetPlace, Tree.placeOf_of_plain hplain] at hfile
  have hexists : tree.kind (tree.start (job.target m) ++ (job.target m).names) ≠ .missing := by
    rw [hfile]
    simp
  have henter : tree.enter (tree.start (job.target m)) [] = .ok (tree.start (job.target m)) := by
    rw [Tree.enter_nil, Tree.kind_of_append_ne_missing hne hexists]
  exact Tree.read_ne_notFound (List.nil_append _).symm hplain hne henter hexists

/-- Below a root that is there no destination is hidden. -/
theorem visible_of_isDirectory (hroot : tree.isDirectory job.embeddedRoot = true)
    (table : MappingTable) : job.Visible table tree := by
  intro m hm content hfile
  obtain ⟨hrelative, hplain, hne⟩ := sound_of_mem hm
  obtain ⟨-, dir, henter⟩ := Tree.isDirectory_iff.1 hroot
  have hdir : dir = tree.placeOf job.embeddedRoot := by
    rw [(Tree.enter_eq_ok henter).1, ← Path.names_eq_filter]
    rfl
  have hstart : tree.start (job.target m) = tree.start job.embeddedRoot :=
    Tree.start_of_isAbsolute (Path.isAbsolute_join _ hrelative)
  rw [Tree.enter_pieces, ← hstart] at henter
  rw [targetPlace_of_mem job hm, ← hdir] at hfile
  refine Tree.read_ne_notFound (Path.names_join _ hrelative) hplain hne henter ?_
  rw [hfile]
  simp

/-! ## What a run keeps of a destination -/

/-- Mappings further up in a table have other destinations. -/
theorem targetPlace_ne_of_front (job : Job) {front back : List Mapping} {m : Mapping}
    (htable : table.toList = front ++ m :: back) (tree : Tree) :
    ∀ n ∈ front, job.targetPlace tree n ≠ job.targetPlace tree m := by
  intro n hn
  obtain ⟨above, below, rfl⟩ := List.append_of_mem hn
  rw [List.append_assoc, List.cons_append] at htable
  exact (targetPlace_ne job htable tree m (by simp)).symm

/-- A destination that fails to be read, but not for a missing name, fails for the same cause behind
any mapping of the table. -/
theorem read_syncOne_of_failed (hdry : job.dryRun = false) {m n : Mapping} (hm : m ∈ table.toList)
    (hn : n ∈ table.toList) (hclear : table.StagesClear m) {cause : IoError}
    (hread : tree.read (job.target m) = .error cause) (hcause : cause ≠ .notFound) :
    (job.syncOne n tree).2.read (job.target m) = .error cause := by
  rcases syncOne_tree hdry n tree with heq | ⟨text, heq⟩ <;> rw [heq]
  · exact hread
  refine Tree.read_of_passes (tree.update_kind _ _).1 ?_ hread hcause
  rintro place ⟨front, hfront, rfl⟩ hexists
  refine tree.form_update _ _ hexists ?_
  rintro content hfile ⟨hstages, hplace⟩
  obtain ⟨hmrelative, hmplain, -⟩ := sound_of_mem hm
  obtain ⟨hnrelative, -, hnne⟩ := sound_of_mem hn
  have hstart : tree.start (job.target m) = tree.start job.embeddedRoot :=
    Tree.start_of_isAbsolute (Path.isAbsolute_join _ hmrelative)
  have hnames : (job.target m).names = job.embeddedRoot.names ++ m.destination.names :=
    Path.names_join _ hmrelative
  rw [hnames] at hfront
  rw [hstart] at hfile hplace
  rcases List.prefix_or_prefix_of_prefix hfront (List.prefix_append _ _) with
    ⟨rest, hroot⟩ | ⟨names, rfl⟩
  -- on the way to the root, which is entered when the staging file is written
  · have hstagingNames : (job.target n).staging.names =
        front ++ (rest ++ n.destination.staging.names) := by
      rw [show (job.target n).staging.names = _ from
        Path.names_staging_join job.embeddedRoot hnrelative hnne, ← hroot, List.append_assoc]
    have hstagingNe : rest ++ n.destination.staging.names ≠ [] := by
      obtain ⟨above, last, hstaging, -⟩ := Path.names_staging hnne
      simp [hstaging]
    have hstagingStart : tree.start (job.target n).staging = tree.start job.embeddedRoot := by
      have hne : (job.target n).names ≠ [] := by
        rw [show (job.target n).names = _ from Path.names_join _ hnrelative]
        simp [hnne]
      rw [Tree.start_staging tree hne]
      exact Tree.start_of_isAbsolute (Path.isAbsolute_join _ hnrelative)
    have hentered := Tree.not_file_of_stages hstages hstagingNames hstagingNe content
    rw [hstagingStart] at hentered
    exact hentered hfile
  -- below the root, where the destination is clear of the staging files
  · rw [List.prefix_append_right_inj] at hfront
    have hplain : Tree.Plain names := fun name hname => hmplain name (hfront.subset hname)
    have hwhere : (job.embeddedRoot.names ++ names).foldl Tree.climb (tree.start job.embeddedRoot) =
        tree.placeOf job.embeddedRoot ++ names := by
      rw [List.foldl_append, Tree.foldl_climb hplain]
      rfl
    rw [hwhere, show tree.placeOf (job.target n).staging = _ from stagingPlace_of_mem job hn tree,
      List.append_right_inj] at hplace
    exact hclear n hn (hplace ▸ hfront)

/-- A destination that cannot be read, though it is not missing, cannot be read for the same cause
after any mappings. -/
theorem read_syncAll_of_failed (hdry : job.dryRun = false) {m : Mapping} (hm : m ∈ table.toList)
    (hclear : table.StagesClear m) {cause : IoError} (hcause : cause ≠ .notFound)
    {mappings : List Mapping} (hmappings : ∀ n ∈ mappings, n ∈ table.toList)
    (hread : tree.read (job.target m) = .error cause) :
    (job.syncAll mappings tree).2.read (job.target m) = .error cause := by
  induction mappings generalizing tree with
  | nil => exact hread
  | cons n mappings ih =>
      rw [syncAll_cons]
      refine ih (fun k hk => hmappings k (by simp [hk])) ?_
      exact read_syncOne_of_failed hdry hm (hmappings n (by simp)) hclear hread hcause

/-- The mappings in front leave a destination to be read as it was. -/
theorem read_front_iff (hdry : job.dryRun = false) (hvisible : job.Visible table tree)
    {front back : List Mapping} {m : Mapping} (htable : table.toList = front ++ m :: back)
    (hclear : table.StagesClear m) {content : ByteArray} :
    (job.syncAll front tree).2.read (job.target m) = .ok content ↔
      tree.read (job.target m) = .ok content := by
  have hm : m ∈ table.toList := by simp [htable]
  have hfront : ∀ n ∈ front, n ∈ table.toList := fun n hn => by simp [htable, hn]
  have htargets := targetPlace_ne_of_front job htable tree
  have hkept : ∀ {old}, tree.read (job.target m) = .ok old →
      (job.syncAll front tree).2.read (job.target m) = .ok old := fun hread =>
    read_syncAll hdry hread htargets (not_sweeps_of_stagesClear hm hclear hfront tree)
  refine ⟨fun hread => ?_, hkept⟩
  have hfile := (Tree.read_eq_ok hread).2.2.1
  rw [Tree.placeOf_congr (here_syncAll hdry front tree)] at hfile
  have hthere := hvisible m hm content (file_of_syncAll hdry htargets hfile)
  cases hold : tree.read (job.target m) with
  | ok old => rw [← hkept hold, hread]
  | error cause =>
      have hcause : cause ≠ .notFound := fun heq => hthere (heq ▸ hold)
      rw [read_syncAll_of_failed hdry hm hclear hcause hfront hold] at hread
      cases hread

/-- A destination that is clear of staging files has the digest of a text after the mappings in
front of it exactly if it has had it. -/
theorem holds_front_iff (hdry : job.dryRun = false) (hvisible : job.Visible table tree)
    {front back : List Mapping} {m : Mapping} (htable : table.toList = front ++ m :: back)
    (hclear : table.StagesClear m) (content : ByteArray) :
    (job.syncAll front tree).2.Holds (job.target m) content ↔
      tree.Holds (job.target m) content := by
  unfold Tree.Holds
  simp only [read_front_iff hdry hvisible htable hclear]

/-! ## A run and its rehearsal -/

/-- The rehearsal of a mapping on the tree at the beginning foretells what becomes of it behind the
mappings in front. -/
theorem foretells_syncOne (hdry : job.dryRun = false) (hvisible : job.Visible table tree)
    (hundisturbed : job.Undisturbed table.toList tree) {front back : List Mapping} {m : Mapping}
    (htable : table.toList = front ++ m :: back) (hclear : table.StagesClear m) :
    (job.rehearsal.syncOne m tree).1.Foretells (job.syncOne m (job.syncAll front tree).2).1 := by
  have hm : m ∈ table.toList := by simp [htable]
  have hfront : ∀ n ∈ front, n ∈ table.toList := fun n hn => by simp [htable, hn]
  have hsource := hundisturbed front ⟨_, htable.symm⟩ m hm
  rw [syncOne_rehearsal, syncOne_outcome, hsource, hdry]
  cases tree.readText? (job.source m) with
  | error fault => exact .unreadable _ _
  | ok found =>
      cases found with
      | none => exact .sourceMissing _
      | some text =>
          simp only
          -- the mappings in front neither give the destination the digest of the text nor take it
          by_cases hholds : tree.Holds (job.target m) (job.transformer.transform text m.source).toUTF8
          · have hholds' := (holds_front_iff hdry hvisible htable hclear _).2 hholds
            rw [Tree.update_of_holds hholds, Tree.update_of_holds hholds']
            exact .unchanged
          have hholds' := (holds_front_iff hdry hvisible htable hclear _).not.2 hholds
          -- nor do they change a fault, unless nothing is there
          rcases tree.read_cases (job.target m) with hthere | ⟨cause, hfailed, hcause⟩
          swap
          · have hfailed' := read_syncAll_of_failed hdry hm hclear hcause hfront hfailed
            rw [Tree.update_of_failed hfailed hcause, Tree.update_of_failed hfailed' hcause]
            exact .unwritable _
          -- the dry run stops here, and only the run finds out whether the file can be written
          rw [Tree.update_rehearsed hthere hholds]
          rcases Tree.update_of_not_holds hholds' with hwritten | ⟨error, hfailed⟩
          · rw [hwritten]
            exact .written
          · rw [hfailed]
            exact .thwarted error

/-- The rows of a dry run foretell those of the run, one by one. -/
theorem foretells_syncAll (hdry : job.dryRun = false) (hvisible : job.Visible table tree)
    (hundisturbed : job.Undisturbed table.toList tree)
    (hclear : ∀ m ∈ table.toList, table.StagesClear m) {front back : List Mapping}
    (htable : table.toList = front ++ back) :
    List.Forall₂ Row.Foretells (job.rehearsal.syncAll back tree).1
      (job.syncAll back (job.syncAll front tree).2).1 := by
  rw [rows_rehearsal]
  induction back generalizing front with
  | nil => exact .nil
  | cons m back ih =>
      rw [syncAll_cons, ← syncAll_concat]
      refine .cons ⟨rfl, ?_⟩ (ih (by simpa using htable))
      exact foretells_syncOne hdry hvisible hundisturbed htable
        (hclear m (by simp [htable]))

/-- Below a root that is reached without climbing, a file that would be written is written exactly
if the run finds it writable. -/
theorem written_iff_writable (hdry : job.dryRun = false)
    (hroot : .parent ∉ job.embeddedRoot.components) {m : Mapping} (hm : m ∈ table.toList)
    {left : Tree} (h : Outcome.Foretells (.synced .wouldWrite) (job.syncOne m left).1) :
    (job.syncOne m left).1 = .synced .written ↔ left.Writable (job.target m) := by
  obtain ⟨hplain, hne⟩ := plain_of_root hroot table m hm
  rw [syncOne_outcome, hdry] at h ⊢
  cases hread : left.readText? (job.source m) with
  | error fault =>
      rw [hread] at h
      cases h
  | ok found =>
      cases found with
      | none =>
          rw [hread] at h
          cases h
      | some text =>
          simp only [hread] at h ⊢
          rcases left.update_cases hplain hne (job.transformer.transform text m.source) with
            ⟨-, hupdate⟩ | ⟨-, ⟨hwritable, t, hupdate, -⟩ | ⟨hwritable, error, t, hupdate, -⟩⟩ <;>
            rw [hupdate] at h ⊢
          · cases h
          · simp [Outcome.ofUpdate, hwritable]
          · simp [Outcome.ofUpdate, hwritable]

/-- If no destination lies above another one, the run finds a file writable if it was so at the
beginning. -/
theorem Separate.writable_iff (h : job.Separate table) (hdry : job.dryRun = false)
    {front back : List Mapping} {m : Mapping} (htable : table.toList = front ++ m :: back) :
    (job.syncAll front tree).2.Writable (job.target m) ↔ tree.Writable (job.target m) := by
  have hapart := h.apart
  rw [htable] at hapart
  have hplain : job.Plain front := fun n hn =>
    plain_of_root h.root table n (by simp [htable, hn])
  have hbeside := beside_syncAll hdry hplain
    (fun n hn => ((List.pairwise_append.1 hapart).2.2 n hn m (by simp)).2) tree
  exact ⟨fun hw => hw.of_hinders hbeside.hinders, fun hw => hw.of_hinders hbeside.hindered⟩

/-- A run says of every mapping what its dry run says, except that a file that would be written may
fail to be. So the two reports differ in what they count by the mappings that were thwarted. Below a
root that is reached without climbing these are the mappings whose destination is not writable in
the tree that those in front have left, or in the tree at the beginning if no destination lies above
another one. -/
theorem run_rehearsed (hdry : job.dryRun = false)
    (hclear : ∀ m ∈ table.toList, table.StagesClear m)
    (hvisible : job.Visible table tree) (hundisturbed : job.Undisturbed table.toList tree) :
    List.Forall₂ Row.Foretells (job.rehearsal.run table tree).1.rows (job.run table tree).1.rows ∧
      (job.rehearsal.run table tree).1.succeeded = (job.run table tree).1.succeeded +
        (job.rehearsal.run table tree).1.thwarted (job.run table tree).1 ∧
      (job.rehearsal.run table tree).1.changed = (job.run table tree).1.changed +
        (job.rehearsal.run table tree).1.thwarted (job.run table tree).1 ∧
      ((job.run table tree).1.isComplete = true ↔
        (job.rehearsal.run table tree).1.isComplete = true ∧
          (job.rehearsal.run table tree).1.thwarted (job.run table tree).1 = 0) ∧
      ∀ before ∈ (job.rehearsal.run table tree).1.rows, ∀ after ∈ (job.run table tree).1.rows,
        after.mapping = before.mapping → before.outcome = .synced .wouldWrite →
        .parent ∉ job.embeddedRoot.components →
        ∃ front back, table.toList = front ++ after.mapping :: back ∧
          (after.outcome = .synced .written ↔
            (job.syncAll front tree).2.Writable (job.target after.mapping)) ∧
          (job.Separate table → (after.outcome = .synced .written ↔
            tree.Writable (job.target after.mapping))) := by
  have hrows : List.Forall₂ Row.Foretells (job.rehearsal.run table tree).1.rows
      (job.run table tree).1.rows :=
    foretells_syncAll hdry hvisible hundisturbed hclear (List.nil_append table.toList).symm
  obtain ⟨htotal, hsucceeded, hchanged⟩ := counts_of_foretells hrows
  refine ⟨hrows, hsucceeded, hchanged, ?_, ?_⟩
  · have hmost : (job.rehearsal.run table tree).1.succeeded ≤
        (job.rehearsal.run table tree).1.total := List.countP_le_length
    simp only [Report.isComplete, beq_iff_eq]
    omega
  · intro before hbefore after hafter hmapping hwould hroot
    obtain ⟨front, back, htable, hafterOutcome⟩ := exists_of_mem_rows hafter
    have hm : after.mapping ∈ table.toList := by simp [htable]
    have hbeforeOutcome : before.outcome = (job.rehearsal.syncOne after.mapping tree).1 := by
      rw [rows_run, rows_rehearsal] at hbefore
      obtain ⟨m, -, rfl⟩ := List.mem_map.1 hbefore
      rw [hmapping]
    have hforetells := foretells_syncOne hdry hvisible hundisturbed htable (hclear _ hm)
    rw [← hbeforeOutcome, hwould] at hforetells
    have hwritten := written_iff_writable hdry hroot hm hforetells
    rw [← hafterOutcome] at hwritten
    refine ⟨front, back, htable, hwritten, fun hseparate => ?_⟩
    rw [hwritten, hseparate.writable_iff hdry htable]

/-- Sources that can be read are not disturbed if no destination and no staging file has the place
of one, wherever the root is. -/
theorem undisturbed_of_isOk (hdry : job.dryRun = false)
    (hapart : ∀ m ∈ table.toList, (tree.read (job.source m)).isOk = true ∧
      ∀ n ∈ table.toList, tree.placeOf (job.source m) ≠ job.targetPlace tree n ∧
        tree.placeOf (job.source m) ≠ job.stagingPlace tree n) :
    job.Undisturbed table.toList tree := by
  intro done hdone m hm
  obtain ⟨hok, hplaces⟩ := hapart m hm
  cases hread : tree.read (job.source m) with
  | error cause =>
      rw [hread] at hok
      cases hok
  | ok content =>
      have hkept : (job.syncAll done tree).2.read (job.source m) = .ok content := by
        refine read_syncAll hdry hread (fun n hn => (hplaces n (hdone.subset hn)).1.symm) ?_
        rintro ⟨front, n, rest, rfl, -, hplace⟩
        exact (hplaces n (hdone.subset (by simp))).2 hplace.symm
      unfold Tree.readText?
      rw [hread, hkept]

/-- The second header goes below the first one. -/
def nestedTable : MappingTable :=
  ⟨[⟨⟨"a.hpp"⟩, ⟨"x"⟩⟩, ⟨⟨"b.hpp"⟩, ⟨"x/y"⟩⟩], by decide⟩

/-- The two headers stay as they are. -/
theorem nested_undisturbed : sampleJob.Undisturbed nestedTable.toList sampleTree :=
  undisturbed_of_isOk rfl (by decide +kernel)

/-- Two headers are rehearsed as synced and one of them is: the first is in the way of the
second. -/
theorem run_rehearsed_sample :
    (∀ m ∈ nestedTable.toList, nestedTable.StagesClear m) ∧
      sampleJob.Visible nestedTable sampleTree ∧
      sampleJob.Undisturbed nestedTable.toList sampleTree ∧
      (sampleJob.rehearsal.run nestedTable sampleTree).1.succeeded = 2 ∧
      (sampleJob.run nestedTable sampleTree).1.succeeded = 1 ∧
      (sampleJob.rehearsal.run nestedTable sampleTree).1.thwarted
        (sampleJob.run nestedTable sampleTree).1 = 1 := by
  have hclear : ∀ m ∈ nestedTable.toList, nestedTable.StagesClear m := by
    unfold MappingTable.StagesClear
    decide
  have hvisible : sampleJob.Visible nestedTable sampleTree := visible_of_root (by decide) _ _
  have hthwarted : (sampleJob.rehearsal.run nestedTable sampleTree).1.thwarted
      (sampleJob.run nestedTable sampleTree).1 = 1 := by
    decide +kernel
  have hsucceeded : (sampleJob.run nestedTable sampleTree).1.succeeded = 1 := by decide +kernel
  refine ⟨hclear, hvisible, nested_undisturbed, ?_, hsucceeded, hthwarted⟩
  have hcount := (run_rehearsed rfl hclear hvisible nested_undisturbed).2.1
  rw [hthwarted, hsucceeded] at hcount
  exact hcount

/-- The second header goes where the first one is staged. -/
def stagedTable : MappingTable :=
  ⟨[⟨⟨"a.hpp"⟩, ⟨"x"⟩⟩, ⟨⟨"b.hpp"⟩, ⟨"x.embedsync.tmp"⟩⟩], by decide⟩

/-- The root is reached through a directory that need not be there. -/
def climbingJob : Job :=
  { sampleJob with embeddedRoot := ⟨"gone/../host/src"⟩ }

/-- The second header is in the host already, and stands where a file `x` would be staged, too. -/
def hostTree : Tree :=
  { root := .directory [("up".toList, .directory [("src".toList, .directory
        [("a.hpp".toList, .file "int a;".toUTF8), ("b.hpp".toList, .file "int b;".toUTF8)])]),
      ("host".toList, .directory [("src".toList, .directory
        [("x.embedsync.tmp".toList, .file "int b;".toUTF8),
          ("core".toList, .directory [("b.hpp".toList, .file "int b;".toUTF8)])])])]
    here := [] }

/-- The two headers stay as they are. -/
theorem staged_undisturbed : sampleJob.Undisturbed stagedTable.toList hostTree :=
  undisturbed_of_isOk rfl (by decide +kernel)

/-- The two headers stay as they are. -/
theorem climbing_undisturbed : climbingJob.Undisturbed sampleTable.toList hostTree :=
  undisturbed_of_isOk rfl (by decide +kernel)

/-- The dry run finds the second header in the host. -/
theorem rehearsal_staged : (sampleJob.rehearsal.run stagedTable hostTree).1.rows =
    [⟨⟨⟨"a.hpp"⟩, ⟨"x"⟩⟩, .synced .wouldWrite⟩,
      ⟨⟨⟨"b.hpp"⟩, ⟨"x.embedsync.tmp"⟩⟩, .synced .unchanged⟩] := by
  have hfirst : (sampleJob.rehearsal.syncOne ⟨⟨"a.hpp"⟩, ⟨"x"⟩⟩ hostTree).1 =
      .synced .wouldWrite := by
    decide +kernel
  have htext : hostTree.readText? (sampleJob.rehearsal.source ⟨⟨"b.hpp"⟩, ⟨"x.embedsync.tmp"⟩⟩) =
      .ok (some "int b;") := by
    decide +kernel
  have hread : hostTree.read (sampleJob.rehearsal.target ⟨⟨"b.hpp"⟩, ⟨"x.embedsync.tmp"⟩⟩) =
      .ok "int b;".toUTF8 := rfl
  have hkept : sampleJob.rehearsal.transformer.transform "int b;" ⟨"b.hpp"⟩ = "int b;" := by
    decide +kernel
  have hsecond := syncOne_of_holds htext ⟨_, hread, by rw [hkept]⟩
  rw [rows_run, rows_rehearsal]
  simp only [stagedTable, MappingTable.toList, List.map_cons, List.map_nil, hfirst, hsecond]

/-- The run finds the second header once it has made the directory on the way to the root. -/
theorem run_climbing : (climbingJob.run sampleTable hostTree).1.rows =
    [⟨⟨⟨"a.hpp"⟩, ⟨"a.hpp"⟩⟩, .synced .written⟩,
      ⟨⟨⟨"b.hpp"⟩, ⟨"core/b.hpp"⟩⟩, .synced .unchanged⟩] := by
  have hfirst : (climbingJob.syncOne ⟨⟨"a.hpp"⟩, ⟨"a.hpp"⟩⟩ hostTree).1 = .synced .written := by
    decide +kernel
  have htext : (climbingJob.syncOne ⟨⟨"a.hpp"⟩, ⟨"a.hpp"⟩⟩ hostTree).2.readText?
      (climbingJob.source ⟨⟨"b.hpp"⟩, ⟨"core/b.hpp"⟩⟩) = .ok (some "int b;") := by
    decide +kernel
  have hread : (climbingJob.syncOne ⟨⟨"a.hpp"⟩, ⟨"a.hpp"⟩⟩ hostTree).2.read
      (climbingJob.target ⟨⟨"b.hpp"⟩, ⟨"core/b.hpp"⟩⟩) = .ok "int b;".toUTF8 := by
    decide +kernel
  have hkept : climbingJob.transformer.transform "int b;" ⟨"b.hpp"⟩ = "int b;" := by
    decide +kernel
  have hsecond := syncOne_of_holds htext ⟨_, hread, by rw [hkept]⟩
  have htable : sampleTable.toList =
      [⟨⟨"a.hpp"⟩, ⟨"a.hpp"⟩⟩, ⟨⟨"b.hpp"⟩, ⟨"core/b.hpp"⟩⟩] := rfl
  rw [rows_run, htable, syncAll_cons, syncAll_cons, hfirst, hsecond]
  rfl

/-- A run does not come out as its dry run says if a destination lies above another one, if one is
written over as a staging file, or if one is hidden behind a directory that the run makes. -/
theorem run_not_rehearsed :
    (sampleJob.Undisturbed nestedTable.toList sampleTree ∧
      (sampleJob.rehearsal.run nestedTable sampleTree).1.rows.map (·.outcome.update?) =
        [some .wouldWrite, some .wouldWrite] ∧
      (sampleJob.run nestedTable sampleTree).1.rows.map (·.outcome.update?) =
        [some .written, none]) ∧
    (sampleJob.Undisturbed stagedTable.toList hostTree ∧
      (sampleJob.rehearsal.run stagedTable hostTree).1.rows.map (·.outcome.update?) =
        [some .wouldWrite, some .unchanged] ∧
      (sampleJob.run stagedTable hostTree).1.rows.map (·.outcome.update?) =
        [some .written, some .written]) ∧
    climbingJob.Undisturbed sampleTable.toList hostTree ∧
      (climbingJob.rehearsal.run sampleTable hostTree).1.rows.map (·.outcome.update?) =
        [some .wouldWrite, some .wouldWrite] ∧
      (climbingJob.run sampleTable hostTree).1.rows.map (·.outcome.update?) =
        [some .written, some .unchanged] := by
  refine ⟨⟨nested_undisturbed, by decide +kernel, by decide +kernel⟩,
    ⟨staged_undisturbed, ?_, by decide +kernel⟩, climbing_undisturbed, by decide +kernel, ?_⟩
  · rw [rehearsal_staged]
    rfl
  · rw [run_climbing]
    rfl

end Job

end Sync

end Vendoring
