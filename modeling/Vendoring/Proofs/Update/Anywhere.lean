import Vendoring.Proofs.Update.Effect
import Vendoring.Proofs.Update.Trail

/-!
# Updates by any path

A path may climb, and then nothing is told by its names alone. What an update does is still one of
few things (`update_outcomes`): the file has the digest of the new bytes; or directories are made
above it and the update stops; or its staging file is written on top of that and moved over the
file, or removed again. So a place changes in few ways (`update_kind`): a file that is not at the
target stays, unless the staging file is written over it, and a file that can be read is left alone
or replaced, and nothing else is touched (`update_of_file`).
-/

namespace Vendoring.Tree

/-- The update gets as far as writing the staging file. -/
def Stages (tree : Tree) (p : Path) (text : String) : Prop :=
  ∃ made staged left, tree.updateTrail p text false = [made, staged, left]

/-- The second tree is the first one with the file at a path written and its staging file gone. -/
structure Swapped (s t : Tree) (p : Path) (content : ByteArray) : Prop where
  here : t.here = s.here
  target : s.kind (s.placeOf p) ≠ .directory
  staging : s.kind (s.placeOf p.staging) ≠ .directory
  read : t.read p = .ok content
  kind : ∀ place, t.kind place =
    if place = s.placeOf p then .file content
    else if place = s.placeOf p.staging then .missing else s.kind place

/-- The second tree is the first one without the staging file of a path. -/
structure Dropped (s t : Tree) (p : Path) : Prop where
  here : t.here = s.here
  staging : s.kind (s.placeOf p.staging) ≠ .directory
  kind : ∀ place, t.kind place = if place = s.placeOf p.staging then .missing else s.kind place

/-! ## Files that keep their directories -/

/-- Names that lead to something are not missing on the way. -/
theorem enter_ne_notFound {tree : Tree} {place names : List Name} (hplain : Plain names)
    (hexists : tree.kind (place ++ names) ≠ .missing) :
    tree.enter place names ≠ .error .notFound := by
  induction names generalizing place with
  | nil =>
      rw [List.append_nil] at hexists
      rw [enter_nil]
      cases hkind : tree.kind place with
      | missing => exact absurd hkind hexists
      | directory => simp
      | file content => simp
  | cons name names ih =>
      have hdirectory : tree.kind place = .directory := kind_of_append_ne_missing (by simp) hexists
      rw [enter_cons_of_plain (hplain name (by simp)) tree place names hdirectory]
      by_cases hlong : tooLong name = true
      · rw [if_pos hlong]
        simp
      · rw [if_neg hlong]
        refine ih (fun other hother => hplain other (by simp [hother])) ?_
        rwa [List.append_assoc]

/-- A path that leads from a directory on to something is not missed. -/
theorem read_ne_notFound {tree : Tree} {p : Path} {front rest dir : List Name}
    (hnames : p.names = front ++ rest) (hplain : Plain rest) (hne : rest ≠ [])
    (henter : tree.enter (tree.start p) front = .ok dir)
    (hexists : tree.kind (dir ++ rest) ≠ .missing) : tree.read p ≠ .error .notFound := by
  intro hread
  have hpne : p.names ≠ [] := by simp [hnames, hne]
  obtain ⟨last, hlast⟩ := exists_lastPiece hpne
  obtain ⟨pieces, hpieces⟩ := List.getLast?_eq_some_iff.1 hlast
  obtain ⟨above, below, hrest, hfront⟩ : ∃ above below, rest = above ++ below ∧
      pieces.filter (· ≠ ['.']) = front ++ above := by
    rw [Path.names_eq_filter, hpieces, List.filter_append] at hnames
    by_cases hdot : last = ['.']
    · exact ⟨rest, [], by simp, by simpa [hdot] using hnames⟩
    · obtain ⟨above, final, rfl⟩ := (List.eq_nil_or_concat rest).resolve_left hne
      rw [List.concat_eq_append, ← List.append_assoc,
        List.filter_cons_of_pos (by simpa using hdot), List.filter_nil] at hnames
      exact ⟨above, [final], by simp, (List.append_inj' hnames rfl).1⟩
  have hdirectoryOf : tree.directoryOf p ≠ .error .notFound := by
    rw [directoryOf, hpieces, List.dropLast_concat, ← enter_filter, hfront, enter_append, henter]
    rw [hrest] at hplain hexists
    refine enter_ne_notFound (plain_append.1 hplain).1 ?_
    cases below with
    | nil => simpa using hexists
    | cons name below =>
        rw [← List.append_assoc] at hexists
        rw [kind_of_append_ne_missing (by simp) hexists]
        simp
  have hplace : tree.placeOf p = dir ++ rest := by
    have hdots : front.filter (· ≠ ['.']) = front := by
      refine List.filter_eq_self.2 fun name hname => decide_eq_true ?_
      exact Path.ne_dot_of_mem_names (hnames ▸ List.mem_append_left rest hname)
    rw [placeOf, hnames, List.foldl_append, foldl_climb hplain, (enter_eq_ok henter).1, hdots]
  have hcheck := checkPath_of_missing hpne hread
  rw [read_eq, atEntry, hcheck, hlast] at hread
  cases hdir : tree.directoryOf p with
  | error cause =>
      rw [hdir] at hread hdirectoryOf
      exact hdirectoryOf (congrArg Except.error (Except.error.inj hread))
  | ok dir' =>
      simp only [hdir] at hread
      by_cases href : isReference last = true
      · simp [href] at hread
      by_cases hlong : tooLong last = true
      · simp [href, hlong] at hread
      rw [if_neg href, if_neg hlong, ← placeOf_eq hlast (by simpa using href) hdir, hplace] at hread
      cases hkind : tree.kind (dir ++ rest) with
      | missing => exact hexists hkind
      | directory =>
          rw [hkind] at hread
          cases hread
      | file content =>
          rw [hkind] at hread
          cases hslash : p.endsInSlash <;> rw [hslash] at hread <;> cases hread

/-- A file that can be read is read in a tree that keeps the directories and has a file at its
place. -/
theorem read_of_directories {s t : Tree} {p : Path} {old content : ByteArray}
    (hhere : t.here = s.here)
    (hdirectories : ∀ place, s.kind place = .directory → t.kind place = .directory)
    (hread : s.read p = .ok old) (hfile : t.kind (s.placeOf p) = .file content) :
    t.read p = .ok content := by
  obtain ⟨hcheck, hend, -, dir, last, hlast, href, hlong, hdir⟩ := read_eq_ok hread
  have hdir' : t.directoryOf p = .ok dir := by
    rw [directoryOf, start_congr hhere]
    exact enter_eq_ok_of_directories hdirectories hdir
  rw [placeOf_eq hlast href hdir] at hfile
  rw [read_eq, atEntry_eq hcheck hlast hdir', href, hlong, hfile, hend.1]
  rfl

/-- What is moved by a path is read by it. -/
theorem read_of_moveFile {tree moved : Tree} {source target : Path} {origin : List Name}
    {content : ByteArray} (h : tree.moveFile source target = .ok moved)
    (horigin : tree.locate source = .ok origin) (hne : origin ≠ [])
    (hfile : tree.kind origin = .file content) :
    tree.kind (tree.placeOf target) ≠ .directory ∧ moved.read target = .ok content := by
  obtain ⟨hhere, hkinds⟩ := moveFile_spec h horigin hne hfile
  rw [moveFile_eq, horigin, ok_bind] at h
  obtain ⟨hcheck, ⟨-, h⟩ | ⟨dir, last, hlast, hdir, h⟩⟩ := atEntry_eq_ok h
  · cases h
  split at h
  · cases h
  rename_i href
  split at h
  · cases h
  rename_i hlong
  split at h
  · cases h
  rename_i hslash
  split at h
  · cases h
  rename_i htarget
  rw [Bool.not_eq_true] at href hlong hslash
  rw [placeOf_eq hlast href hdir] at hkinds ⊢
  have hdir' : moved.directoryOf target = .ok dir := by
    rw [directoryOf, start_congr hhere]
    refine enter_eq_ok_of_directories ?_ hdir
    intro place hplace
    rw [hkinds, if_neg (by rintro rfl; exact htarget hplace), if_neg, hplace]
    rintro rfl
    rw [hfile] at hplace
    cases hplace
  refine ⟨htarget, ?_⟩
  rw [read_eq, atEntry_eq hcheck hlast hdir', href, hlong, hslash, hkinds, if_pos rfl]
  rfl

/-! ## Writing through the staging file -/

/-- Writing through the staging file stops before it, replaces the file, or removes the staging file
again because it cannot be moved. -/
theorem writeStaged_outcomes (tree : Tree) (p : Path) (content : ByteArray) :
    (tree.writeStagedTrail p content = [] ∧
        ∃ error, tree.writeStaged p content = (.error error, tree)) ∨
      ∃ staged left, tree.write p.staging content = .ok staged ∧
        tree.writeStagedTrail p content = [staged, left] ∧
        (tree.writeStaged p content = (.ok (), left) ∧ tree.Swapped left p content ∨
          (∀ moved, staged.moveFile p.staging p ≠ .ok moved) ∧
            ∃ error, tree.writeStaged p content = (.error error, left) ∧ tree.Dropped left p) := by
  unfold writeStagedTrail writeStaged
  cases hwrite : tree.write p.staging content with
  | error cause => exact Or.inl ⟨rfl, _, rfl⟩
  | ok staged =>
      right
      obtain ⟨hhere, hne, hstaging, hlocate, hkinds⟩ := write_spec hwrite
      have hfile : staged.kind (tree.placeOf p.staging) = .file content := by
        rw [hkinds, if_pos rfl]
      cases hmove : staged.moveFile p.staging p with
      | ok moved =>
          obtain ⟨hhere', hkinds'⟩ := moveFile_spec hmove hlocate hne hfile
          obtain ⟨htarget, hread⟩ := read_of_moveFile hmove hlocate hne hfile
          rw [placeOf_congr hhere] at hkinds' htarget
          refine ⟨staged, moved, rfl, by simp [hmove], Or.inl ⟨by simp [hmove], ?_⟩⟩
          refine ⟨hhere'.trans hhere, ?_, hstaging, hread, ?_⟩
          · by_cases hsame : tree.placeOf p = tree.placeOf p.staging
            · rwa [hsame]
            · rwa [hkinds, if_neg hsame] at htarget
          · intro place
            rw [hkinds', hkinds]
            by_cases hplace : place = tree.placeOf p.staging
            · simp only [if_pos hplace]
            · simp only [if_neg hplace]
      | error cause =>
          refine ⟨staged, staged.remove p.staging, rfl, by simp [hmove],
            Or.inr ⟨by simp [hmove], ⟨p, cause⟩, by simp [hmove], ?_⟩⟩
          have hremove : staged.remove p.staging = staged.without (tree.placeOf p.staging) := by
            unfold remove
            rw [hlocate]
            rfl
          rw [hremove]
          refine ⟨hhere, hstaging, ?_⟩
          intro place
          rw [kind_without hne (by simp [hfile]), hkinds]
          by_cases hplace : place = tree.placeOf p.staging
          · rw [if_pos hplace, if_pos hplace]
          · rw [if_neg hplace, if_neg hplace, if_neg hplace]

/-! ## Updates -/

/-- What an update does, and whether it writes the staging file. -/
theorem update_outcomes (tree : Tree) (p : Path) (text : String) :
    (tree.Holds p text.toUTF8 ∧ ¬ tree.Stages p text ∧
        tree.update p text false = (.ok .unchanged, tree)) ∨
      ∃ made, tree.Grows made (tree.Above p) ∧
        (¬ tree.Stages p text ∧ (∃ error, tree.update p text false = (.error error, made)) ∨
          tree.Stages p text ∧ (∃ left, tree.update p text false = (.ok .written, left) ∧
            made.Swapped left p text.toUTF8) ∨
          tree.Stages p text ∧ ∃ error left, tree.update p text false = (.error error, left) ∧
            made.Dropped left p) := by
  have hgrows := makeParent_grows tree p
  unfold Stages updateTrail update
  cases hdigest : tree.digest? p with
  | error error => exact Or.inr ⟨tree, Grows.refl tree _, Or.inl ⟨by simp, error, rfl⟩⟩
  | ok old =>
      by_cases hsame : old = some (Digest.ofContent text.toUTF8)
      · left
        refine ⟨?_, by simp [hsame], by simp [hsame]⟩
        unfold digest? at hdigest
        cases hread : tree.read p with
        | ok content =>
            rw [hread, hsame] at hdigest
            exact ⟨content, hread, Option.some.inj (Except.ok.inj hdigest)⟩
        | error cause => cases cause <;> simp [hread, hsame] at hdigest
      right
      simp only [if_neg hsame, Bool.false_eq_true, if_false]
      cases hmake : tree.makeParent p with
      | mk result made =>
          rw [hmake] at hgrows
          refine ⟨made, hgrows, ?_⟩
          cases result with
          | error error => exact Or.inl ⟨by simp, error, rfl⟩
          | ok _ =>
              rcases writeStaged_outcomes made p text.toUTF8 with
                ⟨htrail, error, hwrite⟩ | ⟨staged, left, -, htrail, ⟨hwrite, hswapped⟩ |
                  ⟨-, error, hwrite, hdropped⟩⟩ <;>
                simp only [htrail, hwrite]
              · exact Or.inl ⟨by simp, error, rfl⟩
              · exact Or.inr (Or.inl ⟨⟨made, staged, left, rfl⟩, left, rfl, hswapped⟩)
              · exact Or.inr (Or.inr ⟨⟨made, staged, left, rfl⟩, error, left, rfl, hdropped⟩)

/-- An update of a file that does not have the digest of the new bytes writes it or fails. -/
theorem update_of_not_holds {tree : Tree} {p : Path} {text : String}
    (h : ¬ tree.Holds p text.toUTF8) :
    (tree.update p text false).1 = .ok .written ∨
      ∃ error, (tree.update p text false).1 = .error error := by
  rcases update_outcomes tree p text with
    ⟨hholds, -⟩ | ⟨made, -, ⟨-, error, hupdate⟩ | ⟨-, left, hupdate, -⟩ |
      ⟨-, error, left, hupdate, -⟩⟩
  · exact absurd hholds h
  · exact Or.inr ⟨error, by rw [hupdate]⟩
  · exact Or.inl (by rw [hupdate])
  · exact Or.inr ⟨error, by rw [hupdate]⟩

/-- How an update changes what stands at a place. -/
theorem update_kind (tree : Tree) (p : Path) (text : String) :
    (tree.update p text false).2.here = tree.here ∧
      (∀ place, tree.kind place = .directory →
        (tree.update p text false).2.kind place = .directory) ∧
      (∀ place content, tree.kind place = .file content → place ≠ tree.placeOf p →
        ¬ (tree.Stages p text ∧ place = tree.placeOf p.staging) →
          (tree.update p text false).2.kind place = .file content) ∧
      ∀ place, place ≠ tree.placeOf p → tree.Stages p text → place = tree.placeOf p.staging →
        (tree.update p text false).2.kind place = .missing := by
  rcases update_outcomes tree p text with
    ⟨-, hstages, hupdate⟩ | ⟨made, hgrows, ⟨hstages, error, hupdate⟩ |
      ⟨hstages, left, hupdate, hleft⟩ | ⟨hstages, error, left, hupdate, hleft⟩⟩
  · rw [hupdate]
    exact ⟨rfl, fun _ h => h, fun _ _ h _ _ => h, fun _ _ h => absurd h hstages⟩
  · rw [hupdate]
    exact ⟨hgrows.here, fun _ => hgrows.directory, fun _ _ h _ _ => hgrows.file_iff.2 h,
      fun _ _ h => absurd h hstages⟩
  · obtain ⟨hhere, htarget, hstaging, -, hkinds⟩ := hleft
    rw [hupdate]
    rw [placeOf_congr hgrows.here, placeOf_congr hgrows.here] at hkinds
    rw [placeOf_congr hgrows.here] at htarget hstaging
    refine ⟨hhere.trans hgrows.here, ?_, ?_, ?_⟩
    · intro place hplace
      have hmade := hgrows.directory hplace
      rw [hkinds, if_neg (by rintro rfl; exact htarget hmade),
        if_neg (by rintro rfl; exact hstaging hmade), hmade]
    · intro place content hfile hne hspared
      rw [hkinds, if_neg hne, if_neg fun heq => hspared ⟨hstages, heq⟩]
      exact hgrows.file_iff.2 hfile
    · intro place hne _ heq
      rw [hkinds, if_neg hne, if_pos heq]
  · obtain ⟨hhere, hstaging, hkinds⟩ := hleft
    rw [hupdate]
    rw [placeOf_congr hgrows.here] at hkinds hstaging
    refine ⟨hhere.trans hgrows.here, ?_, ?_, ?_⟩
    · intro place hplace
      have hmade := hgrows.directory hplace
      rw [hkinds, if_neg (by rintro rfl; exact hstaging hmade), hmade]
    · intro place content hfile _ hspared
      rw [hkinds, if_neg fun heq => hspared ⟨hstages, heq⟩]
      exact hgrows.file_iff.2 hfile
    · intro place _ _ heq
      rw [hkinds, if_pos heq]

/-- What stands at a place keeps its form over an update, unless it is a file over which the staging
file is written. -/
theorem form_update (tree : Tree) (p : Path) (text : String) {place : List Name}
    (hexists : tree.kind place ≠ .missing)
    (hspared : ∀ content, tree.kind place = .file content →
      ¬ (tree.Stages p text ∧ place = tree.placeOf p.staging)) :
    ((tree.update p text false).2.kind place).form = (tree.kind place).form := by
  cases hkind : tree.kind place with
  | missing => exact absurd hkind hexists
  | directory =>
      have hkept := (tree.update_kind p text).2.1 place hkind
      rw [hkept]
  | file content =>
      obtain ⟨new, hnew⟩ : ∃ new, (tree.update p text false).2.kind place = .file new := by
        rcases update_outcomes tree p text with
          ⟨-, -, hupdate⟩ | ⟨made, hgrows, ⟨-, error, hupdate⟩ |
            ⟨hstages, left, hupdate, hleft⟩ | ⟨hstages, error, left, hupdate, hleft⟩⟩ <;>
          rw [hupdate]
        · exact ⟨content, hkind⟩
        · exact ⟨content, hgrows.file_iff.2 hkind⟩
        · simp only [hleft.kind, placeOf_congr hgrows.here]
          by_cases htarget : place = tree.placeOf p
          · exact ⟨_, if_pos htarget⟩
          · rw [if_neg htarget, if_neg fun heq => hspared content hkind ⟨hstages, heq⟩]
            exact ⟨content, hgrows.file_iff.2 hkind⟩
        · simp only [hleft.kind, placeOf_congr hgrows.here]
          rw [if_neg fun heq => hspared content hkind ⟨hstages, heq⟩]
          exact ⟨content, hgrows.file_iff.2 hkind⟩
      rw [hnew]
      rfl

/-- An update that gets as far as its staging file makes the directories above and writes it. -/
theorem write_of_stages {tree : Tree} {p : Path} {text : String} (h : tree.Stages p text) :
    ∃ made staged, tree.Grows made (tree.Above p) ∧
      made.write p.staging text.toUTF8 = .ok staged := by
  obtain ⟨made, staged, left, htrail⟩ := h
  have hgrows := makeParent_grows tree p
  unfold updateTrail at htrail
  cases hdigest : tree.digest? p with
  | error error => simp [hdigest] at htrail
  | ok old =>
      by_cases hsame : old = some (Digest.ofContent text.toUTF8)
      · simp [hdigest, hsame] at htrail
      simp only [hdigest, if_neg hsame, Bool.false_eq_true, if_false] at htrail
      cases hmake : tree.makeParent p with
      | mk result made' =>
          rw [hmake] at hgrows
          cases result with
          | error error => simp [hmake] at htrail
          | ok _ =>
              simp only [hmake, List.cons.injEq] at htrail
              obtain ⟨-, htrail⟩ := htrail
              unfold writeStagedTrail at htrail
              cases hwrite : made'.write p.staging text.toUTF8 with
              | error cause =>
                  simp only [hwrite] at htrail
                  cases htrail
              | ok staged' => exact ⟨made', staged', hgrows, hwrite⟩

/-- The names in front of that of a staging file that is written do not lead through files. -/
theorem not_file_of_stages {tree : Tree} {p : Path} {text : String} (h : tree.Stages p text)
    {front rest : List Name} (hnames : p.staging.names = front ++ rest) (hrest : rest ≠ [])
    (content : ByteArray) :
    tree.kind (front.foldl climb (tree.start p.staging)) ≠ .file content := by
  obtain ⟨made, staged, hgrows, hwrite⟩ := write_of_stages h
  obtain ⟨-, -, dir, last, hlast, href, hdir, -⟩ := write_eq_ok hwrite
  obtain ⟨back, final, rfl⟩ := (List.eq_nil_or_concat rest).resolve_left hrest
  rw [List.concat_eq_append, ← List.append_assoc, names_of_getLast? hlast href] at hnames
  obtain ⟨hfront, -⟩ := List.append_inj' hnames rfl
  rw [directoryOf, ← enter_filter, hfront, enter_append] at hdir
  obtain ⟨above, habove, -⟩ := bind_eq_ok hdir
  obtain ⟨hplace, hdirectory⟩ := enter_eq_ok habove
  have hdots : front.filter (· ≠ ['.']) = front := by
    refine List.filter_eq_self.2 fun name hname => ?_
    have hmem : name ∈ p.staging.pieces.dropLast.filter (· ≠ ['.']) := by
      rw [hfront]
      exact List.mem_append_left back hname
    exact (List.mem_filter.1 hmem).2
  rw [hdots, hgrows.start] at hplace
  intro hfile
  rw [hplace, hgrows.file_iff.2 hfile] at hdirectory
  cases hdirectory

/-- Behind a successful update the file can be read. It has the new bytes if they were written, and
the digest of the new bytes in any case. -/
theorem read_of_update {tree left : Tree} {p : Path} {text : String} {update : Update}
    (h : tree.update p text false = (.ok update, left)) :
    ∃ content, left.read p = .ok content ∧
      Digest.ofContent content = Digest.ofContent text.toUTF8 ∧
      (update = .written → content = text.toUTF8) := by
  rcases update_outcomes tree p text with
    ⟨⟨old, hread, hdigest⟩, -, hupdate⟩ | ⟨made, -, ⟨-, error, hupdate⟩ |
      ⟨-, written, hupdate, hwritten⟩ | ⟨-, error, written, hupdate, -⟩⟩ <;>
    rw [hupdate] at h
  · cases h
    exact ⟨old, hread, hdigest, nofun⟩
  · cases h
  · cases h
    exact ⟨_, hwritten.read, rfl, fun _ => rfl⟩
  · cases h

/-- A file that was written was replaced on top of directories that were made. -/
theorem swapped_of_written {tree left : Tree} {p : Path} {text : String}
    (h : tree.update p text false = (.ok .written, left)) :
    ∃ made, tree.Grows made (tree.Above p) ∧ made.Swapped left p text.toUTF8 := by
  rcases update_outcomes tree p text with
    ⟨-, -, hupdate⟩ | ⟨made, hgrows, ⟨-, error, hupdate⟩ | ⟨-, written, hupdate, hwritten⟩ |
      ⟨-, error, written, hupdate, -⟩⟩ <;>
    rw [hupdate] at h
  · cases h
  · cases h
  · cases h
    exact ⟨made, hgrows, hwritten⟩
  · cases h

/-- What was written was staged. -/
theorem stages_of_written {tree left : Tree} {p : Path} {text : String}
    (h : tree.update p text false = (.ok .written, left)) : tree.Stages p text := by
  rcases update_outcomes tree p text with
    ⟨-, -, hupdate⟩ | ⟨made, -, ⟨-, error, hupdate⟩ | ⟨hstages, -⟩ | ⟨hstages, -⟩⟩
  · rw [hupdate] at h
    cases h
  · rw [hupdate] at h
    cases h
  · exact hstages
  · exact hstages

/-- A file that stands somewhere else than at the target behind an update stood there before. -/
theorem file_of_update {tree : Tree} {p : Path} {text : String} {place : List Name}
    {content : ByteArray} (h : (tree.update p text false).2.kind place = .file content)
    (hne : place ≠ tree.placeOf p) : tree.kind place = .file content := by
  rcases update_outcomes tree p text with
    ⟨-, -, hupdate⟩ | ⟨made, hgrows, ⟨-, error, hupdate⟩ |
      ⟨-, left, hupdate, hleft⟩ | ⟨-, error, left, hupdate, hleft⟩⟩ <;>
    rw [hupdate] at h
  · exact h
  · exact hgrows.file_iff.1 h
  · rw [hleft.kind, placeOf_congr hgrows.here, if_neg hne] at h
    split at h
    · cases h
    · exact hgrows.file_iff.1 h
  · rw [hleft.kind] at h
    split at h
    · cases h
    · exact hgrows.file_iff.1 h

/-- Updating a file that can be read makes no directories. -/
theorem update_of_read_eq {tree : Tree} {p : Path} {old : ByteArray} (h : tree.read p = .ok old)
    (text : String) :
    tree.update p text false =
      if Digest.ofContent old = Digest.ofContent text.toUTF8 then (.ok .unchanged, tree)
      else match tree.writeStaged p text.toUTF8 with
        | (.error error, left) => (.error error, left)
        | (.ok (), written) => (.ok .written, written) := by
  obtain ⟨hcheck, -, -, dir, last, hlast, href, -, hdir⟩ := read_eq_ok h
  unfold update
  rw [digest?_of_read h, makeParent_of_directoryOf hcheck hlast href hdir]
  by_cases hsame : Digest.ofContent old = Digest.ofContent text.toUTF8
  · rw [if_pos hsame]
    simp [hsame]
  · have hdigest : ¬ some (Digest.ofContent old) = some (Digest.ofContent text.toUTF8) :=
      fun heq => hsame (Option.some.inj heq)
    rw [if_neg hsame]
    exact if_neg hdigest

/-- Updating a file that can be read does nothing, because it has the digest of the new bytes or its
staging file cannot be written, or replaces the file. -/
theorem update_of_file {tree : Tree} {p : Path} {old : ByteArray} (h : tree.read p = .ok old)
    (text : String) :
    (Digest.ofContent old = Digest.ofContent text.toUTF8 ∧
        tree.update p text false = (.ok .unchanged, tree)) ∨
      (∃ error, tree.update p text false = (.error error, tree)) ∨
      ∃ left, tree.update p text false = (.ok .written, left) ∧
        tree.Swapped left p text.toUTF8 := by
  obtain ⟨hcheck, hend, hfile, dir, last, hlast, href, -, hdir⟩ := read_eq_ok h
  rw [update_of_read_eq h]
  by_cases hsame : Digest.ofContent old = Digest.ofContent text.toUTF8
  · exact Or.inl ⟨hsame, if_pos hsame⟩
  right
  rw [if_neg hsame]
  rcases writeStaged_outcomes tree p text.toUTF8 with
    ⟨-, error, hwritten⟩ | ⟨staged, left, hwrite, -, ⟨hwritten, hswapped⟩ | ⟨hstuck, -⟩⟩
  · exact Or.inl ⟨error, by rw [hwritten]⟩
  · exact Or.inr ⟨left, by rw [hwritten], hswapped⟩
  -- the file is no directory, so nothing keeps its staging file from being moved over it
  · rw [placeOf_eq hlast href hdir] at hfile
    obtain ⟨moved, hmove⟩ := moveFile_of_write hwrite hcheck hend hlast href hdir (by simp [hfile])
    exact absurd hmove (hstuck moved)

/-- A file that was written can be written again. -/
theorem update_again {tree left : Tree} {p : Path} {text : String}
    (h : tree.update p text false = (.ok .written, left)) (text' : String) :
    (Digest.ofContent text.toUTF8 = Digest.ofContent text'.toUTF8 ∧
        left.update p text' false = (.ok .unchanged, left)) ∨
      ∃ left', left.update p text' false = (.ok .written, left') ∧
        left.Swapped left' p text'.toUTF8 := by
  obtain ⟨_, staged, -, hwrite⟩ := write_of_stages (stages_of_written h)
  obtain ⟨hstagingPath, -, -, name, hname, -, -, hfit, -⟩ := write_eq_ok hwrite
  obtain ⟨made, -, hswapped⟩ := swapped_of_written h
  have hread := hswapped.read
  obtain ⟨hcheck, hend, hfile, dir, last, hlast, href, -, hdir⟩ := read_eq_ok hread
  obtain rfl : name = Path.stagingName last :=
    Option.some.inj (hname.symm.trans (directoryOf_staging left hend hlast).1)
  have hstaging : left.kind (left.placeOf p.staging) ≠ .directory := by
    rw [placeOf_congr hswapped.here, hswapped.kind]
    split <;> simp
  rw [placeOf_staging hend hlast hdir] at hstaging
  rw [placeOf_eq hlast href hdir] at hfile
  obtain ⟨t, hstaged, -⟩ := writeStaged_of_ok text'.toUTF8 hcheck hstagingPath hend hlast href hdir
    hfit (by simp [hfile]) hstaging
  rcases update_of_file hread text' with hsame | ⟨error, herror⟩ | hwritten
  · exact Or.inl hsame
  · rw [update_of_read_eq hread, hstaged] at herror
    split at herror <;> cases herror
  · exact Or.inr hwritten

end Vendoring.Tree
