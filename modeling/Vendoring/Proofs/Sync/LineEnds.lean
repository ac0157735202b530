import Vendoring.Proofs.Stamp.Apply
import Vendoring.Proofs.Sync.Locality
import Vendoring.Proofs.Transformer.LineEnds
import Vendoring.Proofs.Update.Parallel

/-!
# Checkouts with other line ends

One checkout may have its files with line feeds, with two characters at the end of each line, or
with a mixture. Trees that differ only in this, and not at a destination, are synchronised step by
step in parallel (`answers_syncOne`, `answers_syncAll`): the reports are the same, and so is what
destinations hold (`run_lineEnds`).
-/

namespace Vendoring

open Text

/-- The bytes of two texts that are one text with carriage returns in front of some line feeds. -/
def Text.LineEnds (old new : ByteArray) : Prop :=
  ∃ x y z : String, Unreturned x.toList ∧ Returned x.toList y.toList ∧ Returned x.toList z.toList ∧
    old = y.toUTF8 ∧ new = z.toUTF8

namespace Sync.Job

/-- The bytes of files that may stand at a place of two trees that differ in line ends: at a
destination they are the same. -/
def LineEnds (job : Job) (table : MappingTable) (tree : Tree) (place : List Name)
    (old new : ByteArray) : Prop :=
  new = old ∨ Text.LineEnds old new ∧ ∀ m ∈ table.toList, place ≠ job.targetPlace tree m

/-! ## One mapping -/

section

variable {R : List Name → ByteArray → ByteArray → Prop} {s t : Tree}

/-- Files whose bytes differ in line ends at most are read alike or give two such texts. -/
theorem readText?_parallel (hlines : ∀ place old new, R place old new → new = old ∨ Text.LineEnds old new)
    (h : s.Parallel R t) (p : Path) :
    t.readText? p = s.readText? p ∨
      ∃ x y z : String, Unreturned x.toList ∧ Returned x.toList y.toList ∧
        Returned x.toList z.toList ∧ s.readText? p = .ok (some y) ∧ t.readText? p = .ok (some z) := by
  rcases Tree.read_forms p h.here h.form with ⟨cause, hs, ht⟩ | ⟨old, new, hs, ht, hold, hnew⟩
  · left
    unfold Tree.readText?
    rw [hs, ht]
  · have hkind := h.kind (s.placeOf p)
    rw [hold, hnew] at hkind
    cases hkind with
    | file hrelated =>
        rcases hlines _ _ _ hrelated with rfl | ⟨x, y, z, hx, hy, hz, rfl, rfl⟩
        · left
          unfold Tree.readText?
          rw [hs, ht]
        · exact Or.inr ⟨x, y, z, hx, hy, hz, Tree.readText?_eq_some_iff.2 hs,
            Tree.readText?_eq_some_iff.2 ht⟩

/-- A mapping comes out the same in trees that differ in line ends, but not at its destination. -/
theorem answers_syncOne {job : Job} {m : Mapping} (hR : ∀ place content, R place content content)
    (hlines : ∀ place old new, R place old new → new = old ∨ Text.LineEnds old new)
    (hsame : ∀ old new, R (job.targetPlace s m) old new → new = old) (h : s.Parallel R t) :
    Tree.Answers R (job.syncOne m s) (job.syncOne m t) := by
  -- a text that is read is transformed to the same in both trees
  have htext : ∀ y z, s.readText? (job.source m) = .ok (some y) →
      t.readText? (job.source m) = .ok (some z) →
      job.transformer.transform z m.source = job.transformer.transform y m.source →
      Tree.Answers R (job.syncOne m s) (job.syncOne m t) := by
    intro y z hs ht htransform
    obtain ⟨answer, left, left', hs', ht', hleft⟩ :=
      (h.update hR hsame (job.transformer.transform y m.source) job.dryRun).exists_parallel
    unfold syncOne
    simp only [hs, ht, htransform, hs', ht']
    cases answer with
    | ok update => exact ⟨rfl, hleft⟩
    | error error => exact ⟨rfl, hleft⟩
  rcases readText?_parallel hlines h (job.source m) with hread | ⟨x, y, z, hx, hy, hz, hs, ht⟩
  · cases hs : s.readText? (job.source m) with
    | error fault =>
        unfold syncOne
        simp only [hread, hs]
        exact ⟨rfl, h⟩
    | ok found =>
        cases found with
        | none =>
            unfold syncOne
            simp only [hread, hs]
            exact ⟨rfl, h⟩
        | some text => exact htext text text hs (hread.trans hs) rfl
  · refine htext y z hs ht ?_
    rw [job.transformer.transform_returned m.source hx hy,
      job.transformer.transform_returned m.source hx hz]

/-! ## All mappings -/

/-- Synchronising a mapping keeps the working directory, be it a dry run or not. -/
theorem syncOne_here (job : Job) (m : Mapping) (tree : Tree) :
    (job.syncOne m tree).2.here = tree.here := by
  cases hdry : job.dryRun with
  | false => exact here_syncOne hdry m tree
  | true => rw [syncOne_dry hdry]

/-- Synchronising mappings keeps the working directory, be it a dry run or not. -/
theorem syncAll_here (job : Job) (mappings : List Mapping) (tree : Tree) :
    (job.syncAll mappings tree).2.here = tree.here := by
  cases hdry : job.dryRun with
  | false => exact here_syncAll hdry mappings tree
  | true => rw [syncAll_dry hdry]

/-- Trees that differ in line ends have the same rows and are left with the same differences, if the
destinations are alike. -/
theorem answers_syncAll {job : Job} (hR : ∀ place content, R place content content)
    (hlines : ∀ place old new, R place old new → new = old ∨ Text.LineEnds old new)
    {mappings : List Mapping}
    (hsame : ∀ m ∈ mappings, ∀ old new, R (job.targetPlace s m) old new → new = old)
    (h : s.Parallel R t) : Tree.Answers R (job.syncAll mappings s) (job.syncAll mappings t) := by
  induction mappings generalizing s t with
  | nil => exact ⟨rfl, h⟩
  | cons m mappings ih =>
      obtain ⟨outcome, left, left', hs, ht, hleft⟩ :=
        (answers_syncOne hR hlines (hsame m (by simp)) h).exists_parallel
      have hhere : left.here = s.here := by
        rw [← syncOne_here job m s, hs]
      have hrest := ih (s := left) (t := left') (fun n hn old new hrelated => ?_) hleft
      · obtain ⟨rows, final, final', hs', ht', hfinal⟩ := hrest.exists_parallel
        unfold syncAll
        rw [hs, ht]
        simp only [hs', ht']
        exact ⟨rfl, hfinal⟩
      · unfold targetPlace at hrelated
        rw [Tree.placeOf_congr hhere] at hrelated
        exact hsame n (by simp [hn]) old new hrelated

end

/-- Every transformation makes the same of all texts that arise from one text, without line feeds
behind carriage returns, by carriage returns in front of some of its line feeds. So trees that
differ in line ends, and not at a destination, are synchronised with the same report, whether it is
a dry run or not; the destinations are read alike afterwards, and the trees differ in nothing else
than before. -/
theorem run_lineEnds :
    (∀ (transformer : Transformer) (source : Path) (x y : String), Unreturned x.toList →
      Returned x.toList y.toList → transformer.transform y source = transformer.transform x source) ∧
    ∀ (job : Job) (table : MappingTable) (s t : Tree), s.Parallel (job.LineEnds table s) t →
      (job.run table t).1 = (job.run table s).1 ∧
      (∀ m ∈ table.toList, (job.run table t).2.read (job.target m) =
        (job.run table s).2.read (job.target m)) ∧
      (job.run table s).2.Parallel (job.LineEnds table s) (job.run table t).2 := by
  refine ⟨fun transformer source x y hx hy => transformer.transform_returned source hx hy, ?_⟩
  intro job table s t h
  have hsame : ∀ m ∈ table.toList, ∀ old new,
      job.LineEnds table s (job.targetPlace s m) old new → new = old := by
    intro m hm old new hrelated
    exact hrelated.resolve_right fun hother => hother.2 m hm rfl
  have hrun : Tree.Answers (job.LineEnds table s) (job.syncAll table.toList s)
      (job.syncAll table.toList t) :=
    answers_syncAll (fun _ _ => Or.inl rfl) (fun _ _ _ hrelated => hrelated.imp_right And.left)
      hsame h
  obtain ⟨rows, left, left', hs, ht, hleft⟩ := hrun.exists_parallel
  unfold run
  simp only [hs, ht]
  refine ⟨trivial, fun m hm => hleft.read fun old new hrelated => ?_, hleft⟩
  have hhere : left.here = s.here := by
    rw [← syncAll_here job table.toList s, hs]
  rw [Tree.placeOf_congr hhere] at hrelated
  exact hsame m hm old new hrelated

/-- A checkout with one source. -/
def linedTree (content : ByteArray) : Tree :=
  { root := .directory [("up".toList, .directory [("src".toList, .directory
      [("a.hpp".toList, .file content)])])]
    here := [] }

/-- A table with this source. -/
def linedTable : MappingTable :=
  ⟨[⟨⟨"a.hpp"⟩, ⟨"a.hpp"⟩⟩], by decide⟩

/-- The checkouts with a source and with its twin differ in line ends only. -/
theorem linedTree_parallel {old new : ByteArray} (h : Text.LineEnds old new) :
    (linedTree old).Parallel (sampleJob.LineEnds linedTable (linedTree old)) (linedTree new) := by
  have hset : linedTree new =
      (linedTree old).set (["up".toList, "src".toList] ++ ["a.hpp".toList]) (.file new) := by
    simp [linedTree, Tree.set, Node.put, Node.setEntry, Node.entry?]
  have hdir : (linedTree old).kind ["up".toList, "src".toList] = .directory := by
    simp [linedTree, Tree.kind, Tree.at?, Node.get?, Node.entry?, NodeKind.of]
  have hfile : (linedTree old).kind (["up".toList, "src".toList] ++ ["a.hpp".toList]) =
      .file old := by
    simp [linedTree, Tree.kind, Tree.at?, Node.get?, Node.entry?, NodeKind.of]
  -- where a destination is does not depend on what files hold
  have hplace : ∀ m ∈ linedTable.toList, ["up".toList, "src".toList] ++ ["a.hpp".toList] ≠
      sampleJob.targetPlace sampleTree m := by decide
  have hsame : sampleJob.targetPlace (linedTree old) = sampleJob.targetPlace sampleTree :=
    funext fun m => Tree.placeOf_congr (s := sampleTree) (t := linedTree old) rfl (sampleJob.target m)
  rw [hset]
  exact .of_set (fun _ _ => Or.inl rfl) hdir hfile (Or.inr ⟨h, hsame ▸ hplace⟩)

/-- The first line and the empty one end in two characters in one checkout, and in one character in
the other. -/
theorem run_lineEnds_sample :
    (linedTree "int a;\n\nint b;\n".toUTF8).Parallel
        (sampleJob.LineEnds linedTable (linedTree "int a;\n\nint b;\n".toUTF8))
        (linedTree "int a;\r\n\r\nint b;\n".toUTF8) ∧
      (sampleJob.run linedTable (linedTree "int a;\r\n\r\nint b;\n".toUTF8)).1 =
        (sampleJob.run linedTable (linedTree "int a;\n\nint b;\n".toUTF8)).1 ∧
      (sampleJob.run linedTable (linedTree "int a;\n\nint b;\n".toUTF8)).1.rows =
        [⟨⟨⟨"a.hpp"⟩, ⟨"a.hpp"⟩⟩, .synced .written⟩] ∧
      (sampleJob.run linedTable (linedTree "int a;\r\n\r\nint b;\n".toUTF8)).2.read
          ⟨"host/src/a.hpp"⟩ =
        (sampleJob.run linedTable (linedTree "int a;\n\nint b;\n".toUTF8)).2.read
          ⟨"host/src/a.hpp"⟩ := by
  -- the text has no carriage return at all
  have hplain : Unreturned "int a;\n\nint b;\n".toList := fun h =>
    absurd (h.subset List.mem_cons_self) (by decide)
  have hreturned : Returned "int a;\n\nint b;\n".toList "int a;\r\n\r\nint b;\n".toList :=
    (unifyLineEnds_eq_iff hplain).1 (by decide +kernel)
  have hends : Text.LineEnds "int a;\n\nint b;\n".toUTF8 "int a;\r\n\r\nint b;\n".toUTF8 :=
    ⟨_, _, _, hplain, .refl _, hreturned, rfl, rfl⟩
  have hparallel := linedTree_parallel hends
  obtain ⟨hreport, hreads, -⟩ := run_lineEnds.2 sampleJob linedTable _ _ hparallel
  exact ⟨hparallel, hreport, by decide +kernel, hreads ⟨⟨"a.hpp"⟩, ⟨"a.hpp"⟩⟩ (by decide)⟩

end Sync.Job

end Vendoring
