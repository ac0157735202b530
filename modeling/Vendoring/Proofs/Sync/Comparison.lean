import Mathlib.Data.List.Infix
import Vendoring.Compare
import Vendoring.Proofs.Sync.Rehearsal
import Vendoring.Proofs.Sync.Repetition

/-!
# Comparing and synchronising

A comparison looks at the texts of the destinations, and a dry run at the digests of their bytes. On
one tree they sort the mappings alike (`compare_rehearsed`), with one exception: a destination that
does not exist counts as empty for the comparison, so if the text for it is empty, too, the
comparison shows nothing where the dry run would write a file (`Blank`).

On the tree that a run leaves behind, if nothing was unwritable, a comparison shows no destination
that would change, and the sources that are missing or unreadable are those that the report names
(`compare_synced`).
-/

namespace Vendoring

/-- A text that is not there is one whose file is missing. -/
theorem Tree.readText?_eq_none_iff {tree : Tree} {p : Path} :
    tree.readText? p = .ok none ↔ tree.read p = .error .notFound := by
  unfold Tree.readText?
  cases tree.read p with
  | error cause => cases cause <;> simp
  | ok content => cases hdecode : Text.decode content <;> simp [hdecode]

/-- If digests tell the texts apart, a file has the digest of a text exactly if it has the text. -/
theorem Tree.holds_iff_text {tree : Tree} {p : Path} {found : Option String} {text : String}
    (hfound : tree.readText? p = .ok found) (hdiscerned : tree.Discerned p text.toUTF8) :
    tree.Holds p text.toUTF8 ↔ found = some text := by
  constructor
  · rintro ⟨old, hread, hdigest⟩
    obtain rfl := hdiscerned old hread hdigest
    rw [Tree.readText?_eq_some_iff.2 hread] at hfound
    exact (Except.ok.inj hfound).symm
  · rintro rfl
    exact ⟨_, Tree.readText?_eq_some_iff.1 hfound, rfl⟩

/-- Behind a successful update a file has the new bytes, if digests told them from the old ones. -/
theorem Tree.read_of_discerned {tree left : Tree} {p : Path} {text : String} {update : Update}
    (hdiscerned : tree.Discerned p text.toUTF8)
    (h : tree.update p text false = (.ok update, left)) : left.read p = .ok text.toUTF8 := by
  rcases tree.update_outcomes p text with
    ⟨⟨old, hread, hdigest⟩, -, hupdate⟩ | ⟨made, -, ⟨-, error, hupdate⟩ |
      ⟨-, written, hupdate, hwritten⟩ | ⟨-, error, written, hupdate, -⟩⟩ <;>
    rw [hupdate] at h <;> cases h
  · obtain rfl := hdiscerned old hread hdigest
    exact hread
  · exact hwritten.read

namespace Sync

/-- Whether the source does not exist. -/
def Outcome.isSourceMissing : Outcome → Bool
  | .sourceMissing _ => true
  | _ => false

/-- Whether the source gives no text although it exists. -/
def Outcome.isUnreadable : Outcome → Bool
  | .unreadable _ _ => true
  | _ => false

/-- What a comparison shows for a mapping behind a run in which it was synced, or in which its
source gave no text. -/
inductive Outcome.Shows : Outcome → Comparison → Prop where
  | synced (update : Update) : Shows (.synced update) .same
  | sourceMissing (source : Path) : Shows (.sourceMissing source) .missing
  | unreadable (source : Path) (fault : TextFault) :
      Shows (.unreadable source fault) (.unreadable source fault)

/-- The row and the comparison are about one mapping, and the comparison shows it. -/
def Row.Shows (row : Row) (compared : Mapping × Comparison) : Prop :=
  row.mapping = compared.1 ∧ row.outcome.Shows compared.2

/-- Comparisons that show the rows of a report list no change, and what the report says of missing
and unreadable sources. -/
theorem lists_of_shows {rows : List Row} {d : Differences}
    (h : List.Forall₂ Row.Shows rows d.comparisons) :
    d.changed = [] ∧
      d.missing = (rows.filter (·.outcome.isSourceMissing)).map Row.mapping ∧
      d.unreadable.map (fun (m, reason) => (m, some reason)) =
        (rows.filter (·.outcome.isUnreadable)).map fun row =>
          (row.mapping, row.outcome.detail?) := by
  obtain ⟨comparisons⟩ := d
  unfold Differences.changed Differences.missing Differences.unreadable
  simp only at h ⊢
  induction h with
  | nil => exact ⟨rfl, rfl, rfl⟩
  | @cons row compared rows comparisons hrow _ ih =>
      obtain ⟨mapping, outcome⟩ := row
      obtain ⟨mapping', comparison⟩ := compared
      obtain ⟨rfl, hshows⟩ := hrow
      obtain ⟨hchanged, hmissing, hunreadable⟩ := ih
      cases hshows with
      | synced update => exact ⟨hchanged, hmissing, hunreadable⟩
      | sourceMissing source => exact ⟨hchanged, congrArg (mapping :: ·) hmissing, hunreadable⟩
      | unreadable source fault =>
          exact ⟨hchanged, hmissing,
            congrArg ((mapping, some (fault.messageAt source)) :: ·) hunreadable⟩

namespace Job

variable {job : Job} {table : MappingTable} {tree : Tree}

/-- The destination of the mapping does not exist, and the text for it is empty. -/
def Blank (job : Job) (m : Mapping) (tree : Tree) : Prop :=
  ∃ text, tree.readText? (job.source m) = .ok (some text) ∧
    tree.readText? (job.target m) = .ok none ∧ job.transformer.transform text m.source = ""

/-- A comparison lists nothing about the mapping. -/
def Omits (job : Job) (d : Differences) (m : Mapping) : Prop :=
  (∀ difference, (job.target m, difference) ∉ d.changed) ∧ m ∉ d.missing ∧
    ∀ reason, (m, reason) ∉ d.unreadable

/-! ## What a comparison lists -/

/-- Different mappings of a table have different destinations. -/
theorem target_inj {m n : Mapping} (hm : m ∈ table.toList) (hn : n ∈ table.toList)
    (h : job.target n = job.target m) : n = m := by
  obtain ⟨front, back, htable⟩ := List.append_of_mem hm
  have hplace : job.targetPlace default n = job.targetPlace default m := by
    unfold targetPlace
    rw [h]
  rw [htable] at hn
  rcases List.mem_append.1 hn with hfront | hrest
  · exact absurd hplace (targetPlace_ne_of_front job htable default n hfront)
  · rcases List.mem_cons.1 hrest with rfl | hback
    · rfl
    · exact absurd hplace (targetPlace_ne job htable default n hback)

/-- A change is listed under the destination of its mapping. -/
theorem changed_target {m : Mapping} {p : Path} {text : String}
    (h : job.compareOne tree m = .changed p text) : p = job.target m := by
  unfold compareOne at h
  simp only at h
  split at h
  · cases h
  · cases h
  · split at h
    · cases h
    · split at h
      · cases h
      · cases h
        rfl

/-- A change of a destination is listed exactly if its mapping compares as changed. -/
theorem mem_changed_iff {m : Mapping} (hm : m ∈ table.toList) {text : String} :
    (job.target m, text) ∈ (job.compare table tree).changed ↔
      job.compareOne tree m = .changed (job.target m) text := by
  unfold Differences.changed compare
  simp only [List.mem_filterMap, List.mem_map]
  constructor
  · rintro ⟨_, ⟨n, hn, rfl⟩, h⟩
    cases hcompare : job.compareOne tree n <;> simp only [hcompare] at h <;> cases h
    obtain rfl := target_inj hm hn (changed_target hcompare).symm
    exact hcompare
  · intro h
    exact ⟨_, ⟨m, hm, rfl⟩, by simp only [h]⟩

/-- A mapping of the table is listed as missing exactly if it compares so. -/
theorem mem_missing_iff {m : Mapping} (hm : m ∈ table.toList) :
    m ∈ (job.compare table tree).missing ↔ job.compareOne tree m = .missing := by
  unfold Differences.missing compare
  simp only [List.mem_filterMap, List.mem_map]
  constructor
  · rintro ⟨_, ⟨n, hn, rfl⟩, h⟩
    cases hcompare : job.compareOne tree n <;> simp only [hcompare] at h <;> cases h
    exact hcompare
  · intro h
    exact ⟨_, ⟨m, hm, rfl⟩, by simp only [h]⟩

/-- A mapping of the table is listed as unreadable exactly if it compares so, with the wording of
the fault. -/
theorem mem_unreadable_iff {m : Mapping} (hm : m ∈ table.toList) {reason : String} :
    (m, reason) ∈ (job.compare table tree).unreadable ↔
      ∃ path fault, job.compareOne tree m = .unreadable path fault ∧
        fault.messageAt path = reason := by
  unfold Differences.unreadable compare
  simp only [List.mem_filterMap, List.mem_map]
  constructor
  · rintro ⟨_, ⟨n, hn, rfl⟩, h⟩
    cases hcompare : job.compareOne tree n <;> simp only [hcompare] at h <;> cases h
    exact ⟨_, _, hcompare, rfl⟩
  · rintro ⟨path, fault, h, rfl⟩
    exact ⟨_, ⟨m, hm, rfl⟩, by simp only [h]⟩

/-- A mapping compares as missing exactly if its source is not there. -/
theorem compareOne_eq_missing_iff {m : Mapping} :
    job.compareOne tree m = .missing ↔ tree.readText? (job.source m) = .ok none := by
  unfold compareOne
  simp only
  cases tree.readText? (job.source m) with
  | error fault => simp
  | ok found =>
      cases found with
      | none => simp
      | some text =>
          cases tree.readText? (job.target m) with
          | error fault => simp
          | ok found =>
              simp only
              split <;> simp

section Texts

variable {m : Mapping} {text : String} {found : Option String}

/-- With both texts at hand a mapping compares as the same exactly if the new text is the old one,
which is taken to be empty if it is not there. -/
theorem compareOne_of_texts (htext : tree.readText? (job.source m) = .ok (some text))
    (hfound : tree.readText? (job.target m) = .ok found) :
    job.compareOne tree m =
      if found.getD "" = job.transformer.transform text m.source then .same
      else .changed (job.target m) (difference m.destination (found.getD "")
        (job.transformer.transform text m.source)) := by
  unfold compareOne
  simp only [htext, hfound]

/-- Between two texts a comparison shows the destination as changed if they differ. -/
theorem exists_changed_iff (hm : m ∈ table.toList)
    (htext : tree.readText? (job.source m) = .ok (some text))
    (hfound : tree.readText? (job.target m) = .ok found) :
    (∃ difference, (job.target m, difference) ∈ (job.compare table tree).changed) ↔
      found.getD "" ≠ job.transformer.transform text m.source := by
  simp only [mem_changed_iff hm, compareOne_of_texts htext hfound]
  split
  · rename_i hsame
    simp [hsame]
  · rename_i hother
    simp [hother]

/-- With both texts at hand a comparison omits the mapping exactly if the texts are the same. -/
theorem omits_iff (hm : m ∈ table.toList)
    (htext : tree.readText? (job.source m) = .ok (some text))
    (hfound : tree.readText? (job.target m) = .ok found) :
    job.Omits (job.compare table tree) m ↔
      found.getD "" = job.transformer.transform text m.source := by
  have hchanged := exists_changed_iff hm htext hfound
  constructor
  · rintro ⟨hnone, -, -⟩
    refine Classical.byContradiction fun hne => ?_
    obtain ⟨difference, hmem⟩ := hchanged.2 hne
    exact hnone difference hmem
  · intro hsame
    refine ⟨fun difference hmem => hchanged.1 ⟨difference, hmem⟩ hsame, ?_, ?_⟩
    · rw [mem_missing_iff hm, compareOne_eq_missing_iff, htext]
      simp
    · intro reason
      rw [mem_unreadable_iff hm, compareOne_of_texts htext hfound]
      split <;> simp

/-- With both texts at hand a mapping is blank exactly if there is no old text and the new one is
empty. -/
theorem blank_iff (htext : tree.readText? (job.source m) = .ok (some text))
    (hfound : tree.readText? (job.target m) = .ok found) :
    job.Blank m tree ↔ found = none ∧ job.transformer.transform text m.source = "" := by
  constructor
  · rintro ⟨text', htext', hnone, hempty⟩
    obtain rfl := Option.some.inj (Except.ok.inj (htext.symm.trans htext'))
    exact ⟨Except.ok.inj (hfound.symm.trans hnone), hempty⟩
  · rintro ⟨rfl, hempty⟩
    exact ⟨text, htext, hfound, hempty⟩

/-! ## A comparison and a dry run -/

/-- A dry run tells by the digest whether the destination has the text. -/
theorem rehearsal_of_texts (htext : tree.readText? (job.source m) = .ok (some text))
    (hfound : tree.readText? (job.target m) = .ok found)
    (hdiscerned : tree.Discerned (job.target m) (job.transformer.transform text m.source).toUTF8) :
    (job.rehearsal.syncOne m tree).1 =
      if found = some (job.transformer.transform text m.source) then .synced .unchanged
      else .synced .wouldWrite := by
  have hholds := Tree.holds_iff_text hfound hdiscerned
  rw [syncOne_rehearsal, htext]
  simp only
  split
  · rename_i hsame
    rw [Tree.update_of_holds (hholds.2 hsame)]
    rfl
  · rename_i hchanged
    have hthere : (∃ old, tree.read (job.target m) = .ok old) ∨
        tree.read (job.target m) = .error .notFound := by
      cases found with
      | none => exact Or.inr (Tree.readText?_eq_none_iff.1 hfound)
      | some old => exact Or.inl ⟨_, Tree.readText?_eq_some_iff.1 hfound⟩
    rw [Tree.update_rehearsed hthere fun h => hchanged (hholds.1 h)]
    rfl

end Texts

/-- Synchronising finds no source exactly where there is none. -/
theorem isSourceMissing_syncOne (job : Job) (m : Mapping) (tree : Tree) :
    (job.syncOne m tree).1.isSourceMissing = true ↔
      tree.readText? (job.source m) = .ok none := by
  rw [syncOne_outcome]
  cases tree.readText? (job.source m) with
  | error fault => simp [Outcome.isSourceMissing]
  | ok found =>
      cases found with
      | none => simp [Outcome.isSourceMissing]
      | some text =>
          simp only
          cases (tree.update (job.target m) (job.transformer.transform text m.source) job.dryRun).1 <;>
            simp [Outcome.isSourceMissing, Outcome.ofUpdate]

/-- A comparison and a dry run on the same tree sort the mappings alike. A mapping is missing for
both or for none; and if its source and its destination give texts, or there is no destination, it
is shown as changed if it would be written, and not listed at all if it is unchanged. Only a blank
mapping is not listed although it would be written. -/
theorem compare_rehearsed (job : Job)
    (hdiscerned : ∀ m ∈ table.toList, ∀ text, tree.readText? (job.source m) = .ok (some text) →
      tree.Discerned (job.target m) (job.transformer.transform text m.source).toUTF8) :
    (job.rehearsal.run table tree).1.rows.map Row.mapping = table.toList ∧
      ∀ row ∈ (job.rehearsal.run table tree).1.rows,
        (row.mapping ∈ (job.compare table tree).missing ↔ row.outcome.isSourceMissing = true) ∧
        ∀ text found, tree.readText? (job.source row.mapping) = .ok (some text) →
          tree.readText? (job.target row.mapping) = .ok found →
          (row.outcome = .synced .wouldWrite ∨ row.outcome = .synced .unchanged) ∧
          (job.Blank row.mapping tree → row.outcome = .synced .wouldWrite) ∧
          ((∃ difference, (job.target row.mapping, difference) ∈
              (job.compare table tree).changed) ↔
            row.outcome = .synced .wouldWrite ∧ ¬ job.Blank row.mapping tree) ∧
          (job.Omits (job.compare table tree) row.mapping ↔
            row.outcome = .synced .unchanged ∨ job.Blank row.mapping tree) := by
  have hrows : (job.rehearsal.run table tree).1.rows =
      table.toList.map fun m => ⟨m, (job.rehearsal.syncOne m tree).1⟩ :=
    rows_rehearsal job table.toList tree
  rw [hrows]
  refine ⟨by simp [List.map_map, Function.comp_def], ?_⟩
  intro row hrow
  obtain ⟨m, hm, rfl⟩ := List.mem_map.1 hrow
  simp only
  refine ⟨?_, fun text found htext hfound => ?_⟩
  · rw [mem_missing_iff hm, compareOne_eq_missing_iff]
    exact (isSourceMissing_syncOne job.rehearsal m tree).symm
  · rw [rehearsal_of_texts htext hfound (hdiscerned m hm text htext),
      exists_changed_iff hm htext hfound, omits_iff hm htext hfound, blank_iff htext hfound]
    cases found with
    | none => by_cases hempty : job.transformer.transform text m.source = "" <;> simp [hempty, eq_comm]
    | some old => by_cases hsame : old = job.transformer.transform text m.source <;> simp [hsame]

/-- A checkout in which the first header is empty, and no host yet. -/
def blankTree : Tree :=
  { root := .directory [("up".toList, .directory [("src".toList, .directory
      [("a.hpp".toList, .file "".toUTF8), ("b.hpp".toList, .file "int b;".toUTF8)])])]
    here := [] }

/-- Both headers would be written, and the comparison omits the empty one of them. -/
theorem compare_rehearsed_sample :
    (∀ m ∈ sampleTable.toList, blankTree.read (sampleJob.target m) = .error .notFound) ∧
      (sampleJob.rehearsal.run sampleTable blankTree).1.rows =
        [⟨⟨⟨"a.hpp"⟩, ⟨"a.hpp"⟩⟩, .synced .wouldWrite⟩,
          ⟨⟨⟨"b.hpp"⟩, ⟨"core/b.hpp"⟩⟩, .synced .wouldWrite⟩] ∧
      sampleJob.Omits (sampleJob.compare sampleTable blankTree) ⟨⟨"a.hpp"⟩, ⟨"a.hpp"⟩⟩ ∧
      ∃ difference, (sampleJob.target ⟨⟨"b.hpp"⟩, ⟨"core/b.hpp"⟩⟩, difference) ∈
        (sampleJob.compare sampleTable blankTree).changed := by
  have hmissing : ∀ m ∈ sampleTable.toList,
      blankTree.read (sampleJob.target m) = .error .notFound := by
    decide +kernel
  have hnone : ∀ m ∈ sampleTable.toList, blankTree.readText? (sampleJob.target m) = .ok none :=
    fun m hm => Tree.readText?_eq_none_iff.2 (hmissing m hm)
  have hrows : (sampleJob.rehearsal.run sampleTable blankTree).1.rows =
      [⟨⟨⟨"a.hpp"⟩, ⟨"a.hpp"⟩⟩, .synced .wouldWrite⟩,
        ⟨⟨⟨"b.hpp"⟩, ⟨"core/b.hpp"⟩⟩, .synced .wouldWrite⟩] := by
    decide +kernel
  have hempty : blankTree.readText? (sampleJob.source ⟨⟨"a.hpp"⟩, ⟨"a.hpp"⟩⟩) =
      .ok (some "") := by
    decide +kernel
  have hfull : blankTree.readText? (sampleJob.source ⟨⟨"b.hpp"⟩, ⟨"core/b.hpp"⟩⟩) =
      .ok (some "int b;") := by
    decide +kernel
  have hdiscerned : ∀ m ∈ sampleTable.toList, ∀ text,
      blankTree.readText? (sampleJob.source m) = .ok (some text) →
        blankTree.Discerned (sampleJob.target m)
          (sampleJob.transformer.transform text m.source).toUTF8 := by
    intro m hm text _ old hold
    rw [hmissing m hm] at hold
    cases hold
  have hcompare := (compare_rehearsed sampleJob hdiscerned).2
  rw [hrows] at hcompare
  refine ⟨hmissing, hrows, ?_, ?_⟩
  · obtain ⟨-, htexts⟩ := hcompare _ (List.mem_cons_self ..)
    obtain ⟨-, -, -, homits⟩ := htexts _ _ hempty (hnone _ (by decide))
    exact homits.2 (Or.inr ⟨_, hempty, hnone _ (by decide), by decide +kernel⟩)
  · obtain ⟨-, htexts⟩ := hcompare _ (List.mem_cons_of_mem _ (List.mem_cons_self ..))
    obtain ⟨-, -, hchanged, -⟩ := htexts _ _ hfull (hnone _ (by decide))
    refine hchanged.2 ⟨rfl, fun hblank => ?_⟩
    have hnothing := ((blank_iff hfull (hnone _ (by decide))).1 hblank).2
    exact absurd hnothing (by decide +kernel)

/-! ## A comparison behind a run -/

/-- A synced destination has the transformed text at the end of the run. -/
theorem text_of_synced (hdry : job.dryRun = false)
    (hunstaged : ∀ m ∈ table.toList, m.destination.isUnstaged = true)
    (hdiscerning : job.Discerning table.toList tree) {front back : List Mapping} {m : Mapping}
    (htable : table.toList = front ++ m :: back) {text : String}
    (htext : (job.syncAll front tree).2.readText? (job.source m) = .ok (some text)) {update : Update}
    (hsynced : (job.syncOne m (job.syncAll front tree).2).1 = .synced update) :
    (job.run table tree).2.readText? (job.target m) =
      .ok (some (job.transformer.transform text m.source)) := by
  have hm : m ∈ table.toList := by simp [htable]
  have hback : ∀ n ∈ back, n ∈ table.toList := fun n hn => by simp [htable, hn]
  obtain ⟨text', htext', hupdate⟩ := update_of_synced hdry hsynced
  obtain rfl := Option.some.inj (Except.ok.inj (htext.symm.trans htext'))
  have hdiscerned := hdiscerning front m ⟨back, by simp [htable]⟩ text htext
  have hread := Tree.read_of_discerned hdiscerned hupdate
  -- what the mapping has left there is kept by those further down in the table
  rw [← syncAll_concat] at hread
  rw [Tree.readText?_eq_some_iff, run_eq htable]
  exact read_syncAll hdry hread (targetPlace_ne job htable _)
    (not_sweeps_of_stagesClear hm (stagesClear_of_unstaged (hunstaged m hm)) hback _)

/-- Unless a mapping could not be written, a comparison behind the run shows what became of it. -/
theorem compareOne_of_row (hdry : job.dryRun = false)
    (hunstaged : ∀ m ∈ table.toList, m.destination.isUnstaged = true)
    (hundisturbed : job.Undisturbed table.toList tree)
    (hdiscerning : job.Discerning table.toList tree) {row : Row}
    (hrow : row ∈ (job.run table tree).1.rows)
    (hwritable : ∀ error, row.outcome ≠ .unwritable error) :
    row.outcome.Shows (job.compareOne (job.run table tree).2 row.mapping) := by
  obtain ⟨front, back, htable, houtcome⟩ := exists_of_mem_rows hrow
  have hm : row.mapping ∈ table.toList := by simp [htable]
  -- the row is about the source behind the mappings in front, and the comparison about the source
  -- behind all of them; both read what the source gave at the beginning
  have hbefore := hundisturbed front ⟨_, htable.symm⟩ row.mapping hm
  have hafter : (job.run table tree).2.readText? (job.source row.mapping) =
      tree.readText? (job.source row.mapping) :=
    hundisturbed table.toList List.prefix_rfl row.mapping hm
  have hrowOutcome := houtcome
  rw [syncOne_outcome, hbefore] at houtcome
  unfold compareOne
  simp only [hafter]
  cases hsource : tree.readText? (job.source row.mapping) with
  | error fault =>
      simp only [hsource] at houtcome ⊢
      rw [houtcome]
      exact .unreadable _ _
  | ok found =>
      cases found with
      | none =>
          simp only [hsource] at houtcome ⊢
          rw [houtcome]
          exact .sourceMissing _
      | some text =>
          simp only [hsource] at houtcome ⊢
          cases hupdate : ((job.syncAll front tree).2.update (job.target row.mapping)
              (job.transformer.transform text row.mapping.source) job.dryRun).1 with
          | error error =>
              rw [hupdate] at houtcome
              exact absurd houtcome (hwritable error)
          | ok update =>
              rw [hupdate] at houtcome
              have htext := text_of_synced hdry hunstaged hdiscerning htable (hbefore.trans hsource)
                (hrowOutcome.symm.trans houtcome)
              simp only [htext, Option.getD_some, if_true]
              rw [houtcome]
              exact .synced update

/-- Behind a run in which nothing was unwritable a comparison shows no destination that would
change. The sources that it lists as missing or unreadable are those of the report, in the order of
the table and with the same wording. -/
theorem compare_synced (hdry : job.dryRun = false)
    (hunstaged : ∀ m ∈ table.toList, m.destination.isUnstaged = true)
    (hundisturbed : job.Undisturbed table.toList tree)
    (hdiscerning : job.Discerning table.toList tree)
    (hwritable : ∀ row ∈ (job.run table tree).1.rows, ∀ error, row.outcome ≠ .unwritable error) :
    (job.run table tree).1.rows.map Row.mapping = table.toList ∧
      (job.compare table (job.run table tree).2).changed = [] ∧
      (job.compare table (job.run table tree).2).missing =
        ((job.run table tree).1.rows.filter (·.outcome.isSourceMissing)).map Row.mapping ∧
      (job.compare table (job.run table tree).2).unreadable.map
          (fun (m, reason) => (m, some reason)) =
        ((job.run table tree).1.rows.filter (·.outcome.isUnreadable)).map fun row =>
          (row.mapping, row.outcome.detail?) := by
  have hmappings : (job.run table tree).1.rows.map Row.mapping = table.toList :=
    mappings_syncAll job table.toList tree
  refine ⟨hmappings, lists_of_shows ?_⟩
  show List.Forall₂ Row.Shows _
    (table.toList.map fun m => (m, job.compareOne (job.run table tree).2 m))
  rw [← hmappings, List.map_map, List.forall₂_map_right_iff, List.forall₂_same]
  intro row hrow
  exact ⟨rfl, compareOne_of_row hdry hunstaged hundisturbed hdiscerning hrow (hwritable row hrow)⟩

/-- Three headers that stay where they are. -/
def mixedTable : MappingTable :=
  ⟨[⟨⟨"a.hpp"⟩, ⟨"a.hpp"⟩⟩, ⟨⟨"b.hpp"⟩, ⟨"b.hpp"⟩⟩, ⟨⟨"c.hpp"⟩, ⟨"c.hpp"⟩⟩], by decide⟩

/-- The first header is a text, the second one is not, and the third one is not there. -/
def mixedTree : Tree :=
  { root := .directory [("up".toList, .directory [("src".toList, .directory
      [("a.hpp".toList, .file "int a;".toUTF8), ("b.hpp".toList, .file ⟨#[255]⟩)])])]
    here := [] }

/-- Behind a run the first header shows no change, the second one is listed with the wording of its
row, and the third one is missing. -/
theorem compare_synced_sample :
    (sampleJob.run mixedTable mixedTree).1.rows.map (·.outcome.update?) =
        [some .written, none, none] ∧
      (sampleJob.compare mixedTable (sampleJob.run mixedTable mixedTree).2).changed = [] ∧
      (sampleJob.compare mixedTable (sampleJob.run mixedTable mixedTree).2).missing =
        [⟨⟨"c.hpp"⟩, ⟨"c.hpp"⟩⟩] ∧
      (sampleJob.compare mixedTable (sampleJob.run mixedTable mixedTree).2).unreadable.map
          (fun (m, reason) => (m, some reason)) =
        [(⟨⟨"b.hpp"⟩, ⟨"b.hpp"⟩⟩,
          some "up/src/b.hpp: invalid utf-8 sequence of 1 bytes from index 0")] := by
  have hundisturbed : sampleJob.Undisturbed mixedTable.toList mixedTree := by decide +kernel
  have hrows : (sampleJob.run mixedTable mixedTree).1.rows =
      [⟨⟨⟨"a.hpp"⟩, ⟨"a.hpp"⟩⟩, .synced .written⟩,
        ⟨⟨⟨"b.hpp"⟩, ⟨"b.hpp"⟩⟩, .unreadable ⟨"up/src/b.hpp"⟩ (.malformed (.malformed 1 0))⟩,
        ⟨⟨⟨"c.hpp"⟩, ⟨"c.hpp"⟩⟩, .sourceMissing ⟨"up/src/c.hpp"⟩⟩] := by
    decide +kernel
  have hmissing : ∀ done ∈ mixedTable.toList.inits, ∀ m ∈ mixedTable.toList, m ∉ done →
      (sampleJob.syncAll done mixedTree).2.read (sampleJob.target m) = .error .notFound := by
    decide +kernel
  have hdiscerning : sampleJob.Discerning mixedTable.toList mixedTree := by
    intro done m hdone text _ old hold
    have hm : m ∈ mixedTable.toList := hdone.subset (by simp)
    have hnodup : mixedTable.toList.Nodup := by decide
    have hnew : m ∉ done := fun hmem =>
      (List.nodup_append.1 (hnodup.sublist hdone.sublist)).2.2 m hmem m (by simp) rfl
    have hinit : done ∈ mixedTable.toList.inits :=
      (List.mem_inits done _).2 ((List.prefix_append done [m]).trans hdone)
    rw [hmissing done hinit m hm hnew] at hold
    cases hold
  have hwritable : ∀ row ∈ (sampleJob.run mixedTable mixedTree).1.rows,
      ∀ error, row.outcome ≠ .unwritable error := by
    rw [hrows]
    simp
  obtain ⟨-, hchanged, hmissing, hunreadable⟩ :=
    compare_synced rfl (by decide) hundisturbed hdiscerning hwritable
  refine ⟨by rw [hrows]; rfl, hchanged, ?_, ?_⟩
  · rw [hmissing, hrows]
    rfl
  · rw [hunreadable, hrows]
    decide +kernel

end Job

end Sync

end Vendoring
