import Vendoring.Proofs.Update.Anywhere

/-!
# Updates are atomic

Whatever the path is and whatever stands in its way, an update leaves one of two trees
(`update_atomic`). Either the file has all of the new bytes and its staging file is gone
(`Installs`), or no file has other bytes than before and no staging file is left (`Aborts`). In both
trees every directory is still there and a new one lies above the path (`Builds`). Only a dry run
answers what it would do, and it does not do it.

The one file that a failed update can cost is one that stood at the place of the staging file
already: the staging file is written over it and then removed.
-/

namespace Vendoring.Tree

/-- Directories stay, and those that are new were missing on the way to the path. -/
structure Builds (s t : Tree) (p : Path) : Prop where
  directory : ∀ place, s.kind place = .directory → t.kind place = .directory
  made : ∀ place, t.kind place = .directory →
    s.kind place = .directory ∨ s.Above p place ∧ s.kind place = .missing

/-- The second tree has the bytes at the path and nothing at the staging file, which stands
somewhere else; all other files are those of the first one. -/
structure Installs (s t : Tree) (p : Path) (content : ByteArray) : Prop extends Builds s t p where
  read : t.read p = .ok content
  apart : s.placeOf p.staging ≠ s.placeOf p
  staging : t.kind (s.placeOf p.staging) = .missing
  elsewhere : ∀ place, place ≠ s.placeOf p → place ≠ s.placeOf p.staging →
    ∀ old, t.kind place = .file old ↔ s.kind place = .file old

/-- The second tree has no file that the first one does not have, and all of its files but perhaps
one at the place of the staging file. -/
structure Aborts (s t : Tree) (p : Path) : Prop extends Builds s t p where
  kept : ∀ place old, place ≠ s.placeOf p.staging → s.kind place = .file old →
    t.kind place = .file old
  old : ∀ place content, t.kind place = .file content → s.kind place = .file content

/-- What an update comes to, with its answer and the tree that it leaves. -/
structure Atomic (tree : Tree) (p : Path) (text : String) (dryRun : Bool)
    (answer : Except FileError Update) (left : Tree) : Prop where
  unchanged_iff : answer = .ok .unchanged ↔ tree.Holds p text.toUTF8
  done : dryRun = false → answer ≠ .ok .wouldWrite
  undone : dryRun = true → answer ≠ .ok .written
  still : answer = .ok .unchanged ∨ dryRun = true → left = tree
  written : answer = .ok .written → tree.Installs left p text.toUTF8
  settled : answer = .ok .written → ∀ again, left.update p text again = (.ok .unchanged, left)
  failed : ∀ error, answer = .error error → tree.Aborts left p
  unstaged : ∀ error, answer = .error error → dryRun = false → tree.Stages p text →
    left.kind (tree.placeOf p.staging) = .missing

/-! ## The trees that are left -/

/-- Growth above a path keeps directories and makes new ones on the way to it. -/
theorem Builds.of_grows {s t : Tree} {p : Path} (h : s.Grows t (s.Above p)) : s.Builds t p := by
  refine ⟨fun _ => h.directory, ?_⟩
  intro place hdirectory
  rcases h.kind place with heq | ⟨habove, hmissing, -⟩
  · exact Or.inl (heq ▸ hdirectory)
  · exact Or.inr ⟨habove, hmissing⟩

/-- A tree in which nothing but files of another one are new or gone has the same directories. -/
theorem Builds.of_files {s made t : Tree} {p : Path} (h : s.Builds made p)
    (hfiles : ∀ place, t.kind place = made.kind place ∨
      made.kind place ≠ .directory ∧ t.kind place ≠ .directory) : s.Builds t p := by
  refine ⟨?_, ?_⟩
  · intro place hdirectory
    have hmade := h.directory place hdirectory
    rcases hfiles place with heq | ⟨hne, -⟩
    · exact heq.trans hmade
    · exact absurd hmade hne
  · intro place hdirectory
    rcases hfiles place with heq | ⟨-, hne⟩
    · exact h.made place (heq ▸ hdirectory)
    · exact absurd hdirectory hne

/-- The staging file of a file that can be read stands at another place. -/
theorem placeOf_staging_ne_of_read {tree : Tree} {p : Path} {content : ByteArray}
    (h : tree.read p = .ok content) : tree.placeOf p.staging ≠ tree.placeOf p := by
  obtain ⟨-, hend, -, dir, last, hlast, href, -, hdir⟩ := read_eq_ok h
  rw [placeOf_staging hend hlast hdir, placeOf_eq hlast href hdir]
  simpa using (stagingName_ne last).symm

/-- A file replaced through its staging file, on top of directories that were made. -/
theorem Installs.of_swapped {tree made left : Tree} {p : Path} {content : ByteArray}
    (hgrows : tree.Grows made (tree.Above p)) (h : made.Swapped left p content) :
    tree.Installs left p content := by
  have hapart : tree.placeOf p.staging ≠ tree.placeOf p := by
    have hleft := placeOf_staging_ne_of_read h.read
    rwa [placeOf_congr (h.here.trans hgrows.here), placeOf_congr (h.here.trans hgrows.here)] at hleft
  obtain ⟨-, htarget, hstaging, hread, hkinds⟩ := h
  rw [placeOf_congr hgrows.here] at htarget hstaging
  rw [placeOf_congr hgrows.here, placeOf_congr hgrows.here] at hkinds
  refine ⟨(Builds.of_grows hgrows).of_files ?_, hread, hapart, ?_, ?_⟩
  · intro place
    rw [hkinds]
    by_cases hp : place = tree.placeOf p
    · exact Or.inr ⟨hp ▸ htarget, by simp [hp]⟩
    by_cases hs : place = tree.placeOf p.staging
    · exact Or.inr ⟨hs ▸ hstaging, by simp [hs, hapart]⟩
    · exact Or.inl (by rw [if_neg hp, if_neg hs])
  · rw [hkinds, if_neg hapart, if_pos rfl]
  · intro place hp hs old
    rw [hkinds, if_neg hp, if_neg hs]
    exact hgrows.file_iff

/-- Directories that were made, and nothing else. -/
theorem Aborts.of_grows {tree made : Tree} {p : Path} (h : tree.Grows made (tree.Above p)) :
    tree.Aborts made p :=
  ⟨Builds.of_grows h, fun _ _ _ => h.file_iff.2, fun _ _ => h.file_iff.1⟩

/-- A staging file that was written on top of directories that were made, and was removed again. -/
theorem Aborts.of_dropped {tree made left : Tree} {p : Path}
    (hgrows : tree.Grows made (tree.Above p)) (h : made.Dropped left p) :
    tree.Aborts left p ∧ left.kind (tree.placeOf p.staging) = .missing := by
  obtain ⟨-, hstaging, hkinds⟩ := h
  rw [placeOf_congr hgrows.here] at hstaging hkinds
  refine ⟨⟨(Builds.of_grows hgrows).of_files ?_, ?_, ?_⟩, ?_⟩
  · intro place
    rw [hkinds]
    by_cases hs : place = tree.placeOf p.staging
    · exact Or.inr ⟨hs ▸ hstaging, by simp [hs]⟩
    · exact Or.inl (if_neg hs)
  · intro place old hs hfile
    rw [hkinds, if_neg hs]
    exact hgrows.file_iff.2 hfile
  · intro place content hfile
    rw [hkinds] at hfile
    split at hfile
    · cases hfile
    · exact hgrows.file_iff.1 hfile
  · rw [hkinds, if_pos rfl]

/-! ## The answers -/

/-- A dry update leaves the tree as it is, and tells whether the file has the text. -/
theorem atomic_dry (tree : Tree) (p : Path) (text : String) :
    tree.Atomic p text true (tree.update p text true).1 (tree.update p text true).2 := by
  rcases update_dry_outcomes tree p text with
    ⟨hholds, hupdate⟩ | ⟨hholds, hupdate | ⟨error, hupdate⟩⟩ <;> rw [hupdate]
  · exact ⟨⟨fun _ => hholds, fun _ => rfl⟩, nofun, nofun, fun _ => rfl, nofun, nofun, nofun, nofun⟩
  · exact ⟨⟨nofun, fun h => absurd h hholds⟩, nofun, nofun, fun _ => rfl, nofun, nofun, nofun, nofun⟩
  · refine ⟨⟨nofun, fun h => absurd h hholds⟩, nofun, nofun, fun _ => rfl, nofun, nofun,
      fun _ _ => ?_, nofun⟩
    exact Aborts.of_grows (Grows.refl tree _)

/-- An update that is no dry one installs the text, or leaves the files that there were. -/
theorem atomic_run (tree : Tree) (p : Path) (text : String) :
    tree.Atomic p text false (tree.update p text false).1 (tree.update p text false).2 := by
  rcases update_outcomes tree p text with
    ⟨hholds, -, hupdate⟩ | ⟨made, hgrows, ⟨hstages, error, hupdate⟩ |
      ⟨-, left, hupdate, hswapped⟩ | ⟨-, error, left, hupdate, hdropped⟩⟩
  · rw [hupdate]
    exact ⟨⟨fun _ => hholds, fun _ => rfl⟩, nofun, nofun, fun _ => rfl, nofun, nofun, nofun, nofun⟩
  all_goals
    have hholds : ¬ tree.Holds p text.toUTF8 := by
      intro hholds
      rw [update_of_holds hholds] at hupdate
      cases hupdate
    have hunchanged : ∀ answer : Except FileError Update, answer ≠ .ok .unchanged →
        (answer = .ok .unchanged ↔ tree.Holds p text.toUTF8) :=
      fun answer hne => ⟨fun h => absurd h hne, fun h => absurd h hholds⟩
    rw [hupdate]
  · refine ⟨hunchanged _ nofun, nofun, nofun, nofun, nofun, nofun, fun _ _ => ?_, fun _ _ _ h => ?_⟩
    · exact Aborts.of_grows hgrows
    · exact absurd h hstages
  · refine ⟨hunchanged _ nofun, nofun, nofun, nofun, fun _ => ?_, fun _ => ?_, nofun, nofun⟩
    · exact Installs.of_swapped hgrows hswapped
    · exact update_of_holds ⟨_, hswapped.read, rfl⟩
  · obtain ⟨haborts, hmissing⟩ := Aborts.of_dropped hgrows hdropped
    exact ⟨hunchanged _ nofun, nofun, nofun, nofun, nofun, nofun, fun _ _ => haborts,
      fun _ _ _ _ => hmissing⟩

/-- An update is atomic, whether or not it is a dry one. -/
theorem update_atomic (tree : Tree) (p : Path) (text : String) (dryRun : Bool) :
    tree.Atomic p text dryRun (tree.update p text dryRun).1 (tree.update p text dryRun).2 := by
  cases dryRun with
  | true => exact atomic_dry tree p text
  | false => exact atomic_run tree p text

/-- A failed update costs the file in place of the staging file: nothing can be moved to the empty
path. -/
example :
    let tree : Tree := { root := .directory [(stagingEnding.toList, .file "mine".toUTF8)], here := [] }
    (tree.update ⟨""⟩ "text" false).1 = .error ⟨⟨""⟩, .notFound⟩ ∧
      (tree.update ⟨""⟩ "text" false).2.kind (tree.placeOf (Path.staging ⟨""⟩)) = .missing := by
  decide +kernel

end Vendoring.Tree
