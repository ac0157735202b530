import Mathlib.Data.List.Chain
import Vendoring.Proofs.Update.Staging

/-!
# The trail of an update

An update changes the tree step by step: it makes the directories above the file, writes the staging
file, and moves it over the file or removes it again. `updateTrail` lists the trees it leaves behind
one after the other, of which the last is the one that is left in the end (`getLastD_updateTrail`).
Whatever the path is, a step changes nothing but the file, its staging file and directories above
them (`isChain_updateTrail`). For a file that can be read no directory is made, and it is replaced
unless nothing is changed at all (`updateTrail_of_read`).
-/

namespace Vendoring

/-- The steps along two lists, one behind the other, are those along each of them. -/
theorem isChain_append {α : Type} {R : α → α → Prop} {a : α} {l l' : List α} :
    List.IsChain R (a :: (l ++ l')) ↔
      List.IsChain R (a :: l) ∧ List.IsChain R (l.getLastD a :: l') := by
  induction l generalizing a with
  | nil => simp
  | cons b l ih =>
      rw [List.cons_append, List.isChain_cons_cons, List.isChain_cons_cons, List.getLastD_cons, ih,
        and_assoc]

/-- The last element of a list behind another one. -/
theorem getLastD_append {α : Type} (a : α) (l l' : List α) :
    (l ++ l').getLastD a = l'.getLastD (l.getLastD a) := by
  induction l generalizing a with
  | nil => rfl
  | cons b l ih => rw [List.cons_append, List.getLastD_cons, List.getLastD_cons, ih]

namespace Tree

/-- The trees that writing through the staging file leaves behind one after the other: with the
staging file written, and with it moved or removed. -/
def writeStagedTrail (tree : Tree) (p : Path) (content : ByteArray) : List Tree :=
  match tree.write p.staging content with
  | .error _ => []
  | .ok staged =>
    match staged.moveFile p.staging p with
    | .ok moved => [staged, moved]
    | .error _ => [staged, staged.remove p.staging]

/-- The trees that an update leaves behind one after the other: with the directories made, and those
of writing through the staging file. -/
def updateTrail (tree : Tree) (p : Path) (text : String) (dryRun : Bool) : List Tree :=
  match tree.digest? p with
  | .error _ => []
  | .ok old =>
    if old = some (Digest.ofContent text.toUTF8) then []
    else if dryRun then []
    else match tree.makeParent p with
      | (.error _, left) => [left]
      | (.ok (), made) => made :: made.writeStagedTrail p text.toUTF8

/-- The last tree of the trail is the one that writing through the staging file leaves. -/
theorem getLastD_writeStagedTrail (tree : Tree) (p : Path) (content : ByteArray) :
    (tree.writeStagedTrail p content).getLastD tree = (tree.writeStaged p content).2 := by
  unfold writeStagedTrail writeStaged
  cases tree.write p.staging content with
  | error cause => rfl
  | ok staged => cases hmove : staged.moveFile p.staging p <;> simp [hmove]

/-- The trail ends with the tree that an update leaves behind. -/
theorem getLastD_updateTrail (tree : Tree) (p : Path) (text : String) (dryRun : Bool) :
    (tree.updateTrail p text dryRun).getLastD tree = (tree.update p text dryRun).2 := by
  unfold updateTrail update
  cases tree.digest? p with
  | error error => rfl
  | ok old =>
      by_cases hsame : old = some (Digest.ofContent text.toUTF8)
      · simp only [if_pos hsame]
        rfl
      by_cases hdry : dryRun = true
      · simp only [if_neg hsame, if_pos hdry]
        rfl
      simp only [if_neg hsame, if_neg hdry]
      cases tree.makeParent p with
      | mk result made =>
          cases result with
          | error error => rfl
          | ok _ =>
              have hlast := getLastD_writeStagedTrail made p text.toUTF8
              simp only [List.getLastD_cons, hlast]
              cases hwritten : made.writeStaged p text.toUTF8 with
              | mk result written => cases result <;> rfl

/-! ## What a step touches -/

/-- A place on the way to the directory that a path lies in, the directory itself included. -/
def Above (tree : Tree) (p : Path) (place : List Name) : Prop :=
  ∃ above, p.parent? = some above ∧ tree.OnTheWay above place

/-- The second tree differs from the first one at most at a file, at its staging file, and by
directories above them that were missing. -/
structure Touches (s t : Tree) (p : Path) : Prop where
  here : t.here = s.here
  kind : ∀ place, t.kind place = s.kind place ∨ place = s.placeOf p ∨ place = s.placeOf p.staging ∨
    (∃ above, p.parent? = some above ∧ s.OnTheWay above place) ∧ s.kind place = .missing ∧
      t.kind place = .directory

/-- Making the directories above a path makes no other ones. -/
theorem makeParent_grows (tree : Tree) (p : Path) :
    tree.Grows (tree.makeParent p).2 (tree.Above p) := by
  unfold makeParent
  cases hparent : p.parent? with
  | none => exact Grows.refl tree _
  | some above =>
      have hgrows : tree.Grows (tree.makeDirectories above).2 (tree.Above p) :=
        (makeDirectories_grows tree above).mono fun place hway => ⟨above, hparent, hway⟩
      cases hmake : tree.makeDirectories above with
      | mk result left =>
          rw [hmake] at hgrows
          cases result <;> simpa [hmake] using hgrows

/-- Making the directories above a path touches nothing else. -/
theorem Touches.of_makeParent (tree : Tree) (p : Path) : tree.Touches (tree.makeParent p).2 p := by
  have hgrows := makeParent_grows tree p
  refine ⟨hgrows.here, ?_⟩
  intro place
  rcases hgrows.kind place with heq | hmade
  · exact Or.inl heq
  · exact Or.inr (Or.inr (Or.inr hmade))

/-- Writing the staging file touches nothing else. -/
theorem Touches.of_write {tree staged : Tree} {p : Path} {content : ByteArray}
    (h : tree.write p.staging content = .ok staged) : tree.Touches staged p := by
  obtain ⟨hhere, -, -, -, hkinds⟩ := write_spec h
  refine ⟨hhere, ?_⟩
  intro place
  rw [hkinds]
  by_cases hplace : place = tree.placeOf p.staging
  · exact Or.inr (Or.inr (Or.inl hplace))
  · exact Or.inl (if_neg hplace)

/-- A staging file that was written is the only thing, besides the file, that is changed by moving
or removing it. -/
theorem Touches.of_staged {tree staged : Tree} {p : Path} {content : ByteArray}
    (h : tree.write p.staging content = .ok staged) :
    (∀ moved, staged.moveFile p.staging p = .ok moved → staged.Touches moved p) ∧
      staged.Touches (staged.remove p.staging) p := by
  obtain ⟨hhere, hne, -, hlocate, hkinds⟩ := write_spec h
  have hplace := placeOf_congr hhere p.staging
  have hfile : staged.kind (tree.placeOf p.staging) = .file content := by
    rw [hkinds, if_pos rfl]
  rw [← hplace] at hne hlocate hfile
  refine ⟨?_, ?_⟩
  · intro moved hmove
    obtain ⟨hhere', hkinds'⟩ := moveFile_spec hmove hlocate hne hfile
    refine ⟨hhere', ?_⟩
    intro place
    rw [hkinds']
    by_cases htarget : place = staged.placeOf p
    · exact Or.inr (Or.inl htarget)
    by_cases hstaging : place = staged.placeOf p.staging
    · exact Or.inr (Or.inr (Or.inl hstaging))
    · rw [if_neg htarget, if_neg hstaging]
      exact Or.inl rfl
  · have hremove : staged.remove p.staging = staged.without (staged.placeOf p.staging) := by
      unfold remove
      rw [hlocate]
      rfl
    rw [hremove]
    refine ⟨rfl, ?_⟩
    intro place
    rw [kind_without hne (by simp [hfile])]
    by_cases hstaging : place = staged.placeOf p.staging
    · exact Or.inr (Or.inr (Or.inl hstaging))
    · exact Or.inl (if_neg hstaging)

/-- A step of an update touches the file, its staging file and the directories above them. -/
theorem isChain_updateTrail (tree : Tree) (p : Path) (text : String) (dryRun : Bool) :
    List.IsChain (fun s t => s.Touches t p) (tree :: tree.updateTrail p text dryRun) := by
  have hparent := Touches.of_makeParent tree p
  unfold updateTrail
  cases tree.digest? p with
  | error error => simp
  | ok old =>
      simp only
      split
      · simp
      split
      · simp
      cases hmake : tree.makeParent p with
      | mk result made =>
          rw [hmake] at hparent
          cases result with
          | error error => simpa using hparent
          | ok _ =>
              refine List.isChain_cons_cons.2 ⟨hparent, ?_⟩
              unfold writeStagedTrail
              cases hwrite : made.write p.staging text.toUTF8 with
              | error cause => simp
              | ok staged =>
                  have hstaged := Touches.of_write hwrite
                  obtain ⟨hmoved, hremoved⟩ := Touches.of_staged hwrite
                  cases hmove : staged.moveFile p.staging p with
                  | ok moved => simpa [hmove] using ⟨hstaged, hmoved moved hmove⟩
                  | error cause => simpa [hmove] using ⟨hstaged, hremoved⟩

/-- The steps of updating a file that can be read, unless they change nothing: its staging file is
written beside it and moved over it, which gives it other bytes. -/
structure Replaced (tree staged moved : Tree) (p : Path) (old content : ByteArray) : Prop where
  differs : content ≠ old
  beside : (tree.placeOf p.staging).dropLast = (tree.placeOf p).dropLast
  ends : tree.placeOf p.staging ≠ [] ∧ tree.placeOf p ≠ []
  file : tree.kind (tree.placeOf p) = .file old
  staged : staged.here = tree.here ∧ ∀ place, place ≠ tree.placeOf p.staging →
    staged.kind place = tree.kind place
  moved : moved.here = tree.here ∧ moved.kind (tree.placeOf p) = .file content ∧
    moved.kind (tree.placeOf p.staging) = .missing ∧
    ∀ place, place ≠ tree.placeOf p → place ≠ tree.placeOf p.staging →
      moved.kind place = tree.kind place

/-- Updating a file that can be read changes nothing, or replaces the file. -/
theorem updateTrail_of_read {tree : Tree} {p : Path} {old : ByteArray} (h : tree.read p = .ok old)
    (text : String) :
    (∀ left ∈ tree.updateTrail p text false, left = tree) ∨
      ∃ staged moved, tree.updateTrail p text false = [tree, staged, moved] ∧
        tree.Replaced staged moved p old text.toUTF8 := by
  obtain ⟨hcheck, hend, hfile, dir, last, hlast, href, -, hdir⟩ := read_eq_ok h
  have hdigest : tree.digest? p = .ok (some (Digest.ofContent old)) := by
    unfold digest?
    rw [h]
  unfold updateTrail
  rw [hdigest, makeParent_of_directoryOf hcheck hlast href hdir]
  simp only
  by_cases hsame : some (Digest.ofContent old) = some (Digest.ofContent text.toUTF8)
  · rw [if_pos hsame]
    exact Or.inl (by simp)
  rw [if_neg hsame, if_neg (by simp)]
  unfold writeStagedTrail
  cases hwrite : tree.write p.staging text.toUTF8 with
  | error cause => exact Or.inl (by simp)
  | ok staged =>
      right
      have hplace := placeOf_eq hlast href hdir
      have hstaging := placeOf_staging hend hlast hdir
      obtain ⟨hhere, -, -, -, hkinds⟩ := write_spec hwrite
      rw [hplace] at hfile
      obtain ⟨moved, hmove, hhere', hkinds'⟩ :=
        writeStaged_of_write hwrite hcheck hend hlast href hdir (by simp [hfile])
      refine ⟨staged, moved, by simp [hmove], ?_⟩
      have hne : dir ++ [Path.stagingName last] ≠ dir ++ [last] := by
        simpa using (stagingName_ne last).symm
      rw [hstaging] at hkinds
      refine ⟨fun heq => hsame (by rw [heq]), by simp [hplace, hstaging], by simp [hplace, hstaging],
        hplace ▸ hfile, ⟨hhere, ?_⟩, hhere', ?_, ?_, ?_⟩
      · intro place hplace'
        rw [hkinds, if_neg (by rwa [hstaging] at hplace')]
      · rw [hplace, hkinds', if_pos rfl]
      · rw [hstaging, hkinds', if_neg hne, if_pos rfl]
      · intro place htarget hstaging'
        rw [hplace] at htarget
        rw [hstaging] at hstaging'
        rw [hkinds', if_neg htarget, if_neg hstaging']

end Tree

end Vendoring
