import Vendoring.Proofs.Update.Staging

/-!
# Updates of parallel trees

Two trees are parallel if they have the same directories and files at the same places, and the bytes
of two files at one place are related (`Parallel`). Operations that do not look at bytes answer the
same in both and leave parallel trees behind (`Parallel.write`, `Parallel.makeDirectories`,
`Parallel.moveFile`). An update looks at the bytes of its own file only, so it does, too, if these
are the same (`Parallel.update`).
-/

namespace Vendoring

/-- At a place of two trees stands nothing, or a directory, or a file with related bytes. -/
inductive NodeKind.Parallel (R : ByteArray → ByteArray → Prop) : NodeKind → NodeKind → Prop
  | missing : Parallel R .missing .missing
  | directory : Parallel R .directory .directory
  | file {old new : ByteArray} (h : R old new) : Parallel R (.file old) (.file new)

namespace NodeKind.Parallel

variable {R : ByteArray → ByteArray → Prop} {kind kind' : NodeKind}

/-- Parallel kinds are the same but for the bytes of files. -/
theorem form (h : Parallel R kind kind') : kind.form = kind'.form := by
  cases h <;> rfl

/-- A directory is parallel to directories alone. -/
theorem eq_directory_iff (h : Parallel R kind kind') : kind' = .directory ↔ kind = .directory := by
  cases h <;> simp

/-- A missing place is parallel to missing places alone. -/
theorem eq_missing_iff (h : Parallel R kind kind') : kind' = .missing ↔ kind = .missing := by
  cases h <;> simp

/-- What a place of parallel kinds is located as is the same. -/
theorem located (h : Parallel R kind kind') (slash : Bool) (place : List Name) :
    kind'.located slash place = kind.located slash place := by
  cases h <;> rfl

/-- A kind is parallel to itself if its bytes are related to themselves. -/
theorem refl (hR : ∀ content, R content content) (kind : NodeKind) : Parallel R kind kind := by
  cases kind with
  | missing => exact .missing
  | directory => exact .directory
  | file content => exact .file (hR content)

end NodeKind.Parallel

namespace Tree

/-- The trees have the same directories and files at the same places, the bytes of which are
related. -/
structure Parallel (R : List Name → ByteArray → ByteArray → Prop) (s t : Tree) : Prop where
  here : t.here = s.here
  kind : ∀ place, NodeKind.Parallel (R place) (s.kind place) (t.kind place)

/-- Two operations fail for the same cause or succeed with parallel trees. -/
inductive Returns (R : List Name → ByteArray → ByteArray → Prop) :
    Except IoError Tree → Except IoError Tree → Prop
  | error (cause : IoError) : Returns R (.error cause) (.error cause)
  | ok {s t : Tree} (h : s.Parallel R t) : Returns R (.ok s) (.ok t)

/-- Two operations answer the same and leave parallel trees behind. -/
def Answers {α : Type} (R : List Name → ByteArray → ByteArray → Prop) (left right : α × Tree) : Prop :=
  right.1 = left.1 ∧ left.2.Parallel R right.2

section

variable {R : List Name → ByteArray → ByteArray → Prop}

/-- Operations that return alike fail for the same causes. -/
theorem Returns.eq_error_iff {left right : Except IoError Tree} (h : Returns R left right)
    {cause : IoError} : right = .error cause ↔ left = .error cause := by
  cases h <;> simp

/-- If the first of two operations that return alike succeeds, the second one does, and leaves a
parallel tree. -/
theorem Returns.exists_ok {left right : Except IoError Tree} (h : Returns R left right) {s : Tree}
    (hs : left = .ok s) : ∃ t, right = .ok t ∧ s.Parallel R t := by
  cases h with
  | error cause => cases hs
  | ok h =>
      obtain rfl := Except.ok.inj hs
      exact ⟨_, rfl, h⟩

/-- Operations that answer alike give one answer and leave parallel trees. -/
theorem Answers.exists_parallel {α : Type} {left right : α × Tree} (h : Answers R left right) :
    ∃ answer s t, left = (answer, s) ∧ right = (answer, t) ∧ s.Parallel R t :=
  ⟨left.1, left.2, right.2, rfl, by rw [← h.1], h.2⟩

end

/-- A path without one above it is not made below a missing directory. -/
theorem makeDirectories_of_top {tree : Tree} {p : Path} (hempty : p.text ≠ "")
    (h : tree.makeDirectory p = .error .notFound) (hparent : p.parent? = none) :
    tree.makeDirectories p = (.error .notFound, tree) := by
  rw [makeDirectories, if_neg (by simpa using hempty), h]
  simp only
  split
  · rfl
  · rename_i above habove
    rw [hparent] at habove
    cases habove

namespace Parallel

variable {R : List Name → ByteArray → ByteArray → Prop} {s t : Tree}

/-! ## Looking at entries -/

/-- Places of parallel trees have the same form. -/
theorem form (h : s.Parallel R t) (place : List Name) : (s.kind place).form = (t.kind place).form :=
  (h.kind place).form

/-- Where one tree has a directory, a parallel one has. -/
theorem kind_eq_directory (h : s.Parallel R t) {place : List Name}
    (hdir : s.kind place = .directory) : t.kind place = .directory :=
  (h.kind place).eq_directory_iff.2 hdir

/-- The directory of a path is the same in parallel trees. -/
theorem directoryOf (h : s.Parallel R t) (p : Path) : t.directoryOf p = s.directoryOf p := by
  unfold Tree.directoryOf
  rw [start_congr h.here, enter_congr h.form]

/-- What is done at the entry of a path answers alike, if it does so for the kinds of the entry. -/
theorem atEntry (h : s.Parallel R t) {α : Type} {Q : Except IoError α → Except IoError α → Prop}
    (p : Path) {missing missing' : Except IoError α}
    {look look' : List Name → Name → NodeKind → Except IoError α}
    (herror : ∀ cause, Q (.error cause) (.error cause)) (hmissing : Q missing missing')
    (hlook : ∀ dir last, s.directoryOf p = .ok dir →
      Q (look dir last (s.kind (dir ++ [last]))) (look' dir last (t.kind (dir ++ [last])))) :
    Q (s.atEntry p missing look) (t.atEntry p missing' look') := by
  unfold Tree.atEntry
  rw [h.directoryOf]
  cases checkPath p with
  | error cause => exact herror cause
  | ok _ =>
      cases p.pieces.getLast? with
      | none => exact hmissing
      | some last =>
          cases hdir : s.directoryOf p with
          | error cause => exact herror cause
          | ok dir => exact hlook dir last hdir

/-- A path is located at the same place of parallel trees, or for the same cause at none. -/
theorem locate (h : s.Parallel R t) (p : Path) : t.locate p = s.locate p := by
  rw [locate_eq, locate_eq, start_congr h.here]
  refine Eq.symm (h.atEntry p (fun _ => rfl) ?_ ?_)
  · exact ((h.kind _).located _ _).symm
  · intro dir last _
    simp only [(h.kind (dir ++ [last])).eq_missing_iff, (h.kind (dir ++ [last])).located]

/-- A path leads to a directory in both of two parallel trees, or in none. -/
theorem isDirectory (h : s.Parallel R t) (p : Path) : t.isDirectory p = s.isDirectory p := by
  have hback : ∀ place, t.kind place = .directory → s.kind place = .directory := fun place =>
    (h.kind place).eq_directory_iff.1
  rw [Bool.eq_iff_iff]
  exact ⟨isDirectory_of_directories h.here hback,
    isDirectory_of_directories h.here.symm fun _ => h.kind_eq_directory⟩

/-- A file with the same bytes in both trees, or with none, is read alike. -/
theorem read (h : s.Parallel R t) {p : Path}
    (hsame : ∀ old new, R (s.placeOf p) old new → new = old) : t.read p = s.read p := by
  rcases read_forms p h.here h.form with ⟨cause, hs, ht⟩ | ⟨old, new, hs, ht, hold, hnew⟩
  · rw [hs, ht]
  · have hkind := h.kind (s.placeOf p)
    rw [hold, hnew] at hkind
    cases hkind with
    | file hrelated => rw [hs, ht, hsame _ _ hrelated]

/-! ## Changing one place -/

/-- A directory put into parallel trees at a missing place leaves parallel trees. -/
theorem set_directory (h : s.Parallel R t) {dir : List Name} {name : Name}
    (hdir : s.kind dir = .directory) (hplace : s.kind (dir ++ [name]) = .missing) :
    (s.set (dir ++ [name]) (.directory [])).Parallel R (t.set (dir ++ [name]) (.directory [])) := by
  have hplace' : t.kind (dir ++ [name]) = .missing := (h.kind _).eq_missing_iff.2 hplace
  refine ⟨h.here, fun place => ?_⟩
  rw [kind_set_directory hdir hplace, kind_set_directory (h.kind_eq_directory hdir) hplace']
  split
  · exact .directory
  · exact h.kind place

/-- Taking a file away from parallel trees leaves parallel trees. -/
theorem without (h : s.Parallel R t) {place : List Name} (hne : place ≠ [])
    (hplace : s.kind place ≠ .directory) : (s.without place).Parallel R (t.without place) := by
  have hplace' : t.kind place ≠ .directory := mt (h.kind _).eq_directory_iff.1 hplace
  refine ⟨h.here, fun other => ?_⟩
  rw [kind_without hne hplace, kind_without hne hplace']
  split
  · exact .missing
  · exact h.kind other

/-! ## Directories -/

/-- Making one directory returns alike in parallel trees. -/
theorem makeDirectory (h : s.Parallel R t) (p : Path) :
    Returns R (s.makeDirectory p) (t.makeDirectory p) := by
  rw [makeDirectory_eq, makeDirectory_eq]
  refine h.atEntry p .error (.error _) ?_
  intro dir last hdir
  simp only [(h.kind (dir ++ [last])).eq_missing_iff]
  split
  · exact .error _
  · split
    · exact .error _
    · split
      · rename_i hplace
        exact .ok (h.set_directory (enter_eq_ok hdir).2 hplace)
      · exact .error _

/-- Making one directory unless it is there answers alike in parallel trees. -/
theorem lastDirectory (h : s.Parallel R t) (p : Path) :
    Answers R (s.lastDirectory p) (t.lastDirectory p) := by
  have hmake := h.makeDirectory p
  unfold Tree.lastDirectory
  rw [h.isDirectory]
  cases hs : s.makeDirectory p with
  | error cause =>
      rw [hmake.eq_error_iff.2 hs]
      exact ⟨rfl, h⟩
  | ok made =>
      obtain ⟨made', ht, hmade⟩ := hmake.exists_ok hs
      rw [ht]
      exact ⟨rfl, hmade⟩

/-- Making a directory with those above it answers alike in parallel trees. -/
theorem makeDirectories (h : s.Parallel R t) (p : Path) :
    Answers R (s.makeDirectories p) (t.makeDirectories p) := by
  -- a parent is written with fewer characters
  induction hn : p.text.toList.length using Nat.strongRecOn generalizing p with
  | ind n ih =>
      by_cases hempty : p.text = ""
      · rw [Tree.makeDirectories, Tree.makeDirectories, if_pos (by simpa using hempty),
          if_pos (by simpa using hempty)]
        exact ⟨rfl, h⟩
      have hmake := h.makeDirectory p
      by_cases hmissing : s.makeDirectory p = .error .notFound
      · have hmissing' := hmake.eq_error_iff.2 hmissing
        cases hparent : p.parent? with
        | none =>
            rw [makeDirectories_of_top hempty hmissing hparent,
              makeDirectories_of_top hempty hmissing' hparent]
            exact ⟨rfl, h⟩
        | some above =>
            have habove := ih _ (hn ▸ Path.length_of_parent? hparent) above rfl
            rw [makeDirectories_of_missing hempty hmissing hparent,
              makeDirectories_of_missing hempty hmissing' hparent]
            obtain ⟨answer, left, left', hs, ht, hleft⟩ := habove.exists_parallel
            rw [hs, ht]
            cases answer with
            | error cause => exact ⟨rfl, hleft⟩
            | ok _ => exact hleft.lastDirectory p
      · have hmissing' := mt hmake.eq_error_iff.1 hmissing
        rw [makeDirectories_of_ne hempty hmissing, makeDirectories_of_ne hempty hmissing']
        exact h.lastDirectory p

/-- Making the directory of a file answers alike in parallel trees. -/
theorem makeParent (h : s.Parallel R t) (p : Path) : Answers R (s.makeParent p) (t.makeParent p) := by
  unfold Tree.makeParent
  cases p.parent? with
  | none => exact ⟨rfl, h⟩
  | some above =>
      obtain ⟨answer, left, left', hs, ht, hleft⟩ :=
        (h.makeDirectories above).exists_parallel
      simp only [hs, ht]
      cases answer with
      | error cause => exact ⟨rfl, hleft⟩
      | ok _ => exact ⟨rfl, hleft⟩

section

variable (hR : ∀ place content, R place content content)

include hR

/-! ## Files -/

/-- A file with the same bytes put into parallel trees leaves parallel trees. -/
theorem set_file (h : s.Parallel R t) {dir : List Name} {name : Name} (content : ByteArray)
    (hdir : s.kind dir = .directory) (hplace : s.kind (dir ++ [name]) ≠ .directory) :
    (s.set (dir ++ [name]) (.file content)).Parallel R (t.set (dir ++ [name]) (.file content)) := by
  have hplace' : t.kind (dir ++ [name]) ≠ .directory := mt (h.kind _).eq_directory_iff.1 hplace
  refine ⟨h.here, fun place => ?_⟩
  rw [kind_set_file content hdir hplace, kind_set_file content (h.kind_eq_directory hdir) hplace']
  split
  · exact .file (hR place content)
  · exact h.kind place

/-- A file of a tree is written anew with related bytes. -/
theorem of_set {tree : Tree} {dir : List Name} {name : Name} {old new : ByteArray}
    (hdir : tree.kind dir = .directory) (hfile : tree.kind (dir ++ [name]) = .file old)
    (h : R (dir ++ [name]) old new) : tree.Parallel R (tree.set (dir ++ [name]) (.file new)) := by
  refine ⟨rfl, fun place => ?_⟩
  rw [kind_set_file new hdir (by simp [hfile])]
  split
  · rename_i hplace
    rw [hplace, hfile]
    exact .file h
  · exact .refl (hR place) _

/-- Writing the same bytes returns alike in parallel trees. -/
theorem write (h : s.Parallel R t) (p : Path) (content : ByteArray) :
    Returns R (s.write p content) (t.write p content) := by
  rw [write_eq, write_eq]
  refine h.atEntry p .error (.error _) ?_
  intro dir last hdir
  simp only [(h.kind (dir ++ [last])).eq_directory_iff]
  split
  · exact .error _
  · split
    · exact .error _
    · split
      · exact .error _
      · rename_i hplace
        exact .ok (h.set_file hR content (enter_eq_ok hdir).2 hplace)

/-- A file with the same bytes in both trees is moved alike. -/
theorem moveFile (h : s.Parallel R t) {source : Path} (target : Path) {origin : List Name}
    {content : ByteArray} (horigin : s.locate source = .ok origin) (hne : origin ≠ [])
    (hs : s.kind origin = .file content) (ht : t.kind origin = .file content) :
    Returns R (s.moveFile source target) (t.moveFile source target) := by
  rw [moveFile_eq, moveFile_eq, h.locate, horigin, ok_bind, ok_bind]
  refine h.atEntry target .error (.error _) ?_
  intro dir last hdir
  simp only [(h.kind (dir ++ [last])).eq_directory_iff, kind_eq_file.1 hs, kind_eq_file.1 ht]
  split
  · exact .error _
  · split
    · exact .error _
    · split
      · exact .error _
      · split
        · exact .error _
        · rename_i hplace
          have hdirectory := (enter_eq_ok hdir).2
          have hplace' : t.kind (dir ++ [last]) ≠ .directory := mt (h.kind _).eq_directory_iff.1 hplace
          refine .ok ⟨h.here, fun place => ?_⟩
          rw [kind_move hs hne hdirectory hplace,
            kind_move ht hne (h.kind_eq_directory hdirectory) hplace']
          split
          · exact .file (hR place content)
          · split
            · exact .missing
            · exact h.kind place

/-! ## Updates -/

/-- Writing the same bytes through the staging file answers alike in parallel trees. -/
theorem writeStaged (h : s.Parallel R t) (p : Path) (content : ByteArray) :
    Answers R (s.writeStaged p content) (t.writeStaged p content) := by
  have hwrite := h.write hR p.staging content
  unfold Tree.writeStaged
  cases hs : s.write p.staging content with
  | error cause =>
      rw [hwrite.eq_error_iff.2 hs]
      exact ⟨rfl, h⟩
  | ok staged =>
      obtain ⟨staged', ht, hstaged⟩ := hwrite.exists_ok hs
      obtain ⟨-, hne, -, hlocate, hkinds⟩ := write_spec hs
      obtain ⟨-, -, -, -, hkinds'⟩ := write_spec ht
      rw [placeOf_congr h.here] at hkinds'
      have hfile : staged.kind (s.placeOf p.staging) = .file content := by
        rw [hkinds, if_pos rfl]
      have hfile' : staged'.kind (s.placeOf p.staging) = .file content := by
        rw [hkinds', if_pos rfl]
      have hmove := hstaged.moveFile hR p hlocate hne hfile hfile'
      have hremove : (staged.remove p.staging).Parallel R (staged'.remove p.staging) := by
        unfold Tree.remove
        rw [hstaged.locate, hlocate]
        exact hstaged.without hne (by simp [hfile])
      rw [ht]
      cases hmoved : staged.moveFile p.staging p with
      | error cause =>
          simp only [hmoved, hmove.eq_error_iff.2 hmoved]
          exact ⟨rfl, hremove⟩
      | ok moved =>
          obtain ⟨moved', hmoved', hparallel⟩ := hmove.exists_ok hmoved
          simp only [hmoved, hmoved']
          exact ⟨rfl, hparallel⟩

/-- An update of a file with the same bytes in both trees answers the same, and nothing that
differed is changed. -/
theorem update (h : s.Parallel R t) {p : Path}
    (hsame : ∀ old new, R (s.placeOf p) old new → new = old) (text : String) (dryRun : Bool) :
    Answers R (s.update p text dryRun) (t.update p text dryRun) := by
  unfold Tree.update digest?
  rw [h.read hsame]
  split
  · exact ⟨rfl, h⟩
  · split
    · exact ⟨rfl, h⟩
    · split
      · exact ⟨rfl, h⟩
      · obtain ⟨answer, made, made', hs, ht, hmade⟩ := (h.makeParent p).exists_parallel
        simp only [hs, ht]
        cases answer with
        | error error => exact ⟨rfl, hmade⟩
        | ok _ =>
            obtain ⟨answer, left, left', hs, ht, hleft⟩ :=
              (hmade.writeStaged hR p text.toUTF8).exists_parallel
            simp only [hs, ht]
            cases answer with
            | error error => exact ⟨rfl, hleft⟩
            | ok _ => exact ⟨rfl, hleft⟩

end

end Parallel

end Tree

end Vendoring
