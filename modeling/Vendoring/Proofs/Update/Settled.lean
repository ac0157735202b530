import Vendoring.Proofs.Update.Effect

/-!
# Updates that leave nothing to do

After an update by a plain path the file is settled: it has the new bytes, or it cannot be written
and no directory above it can be made any more (`settled_update`). Updating a settled file leaves
the tree as it is (`update_of_settled`). A file stays settled while other files are updated, as long
as it keeps its bytes and their staging files are not in its way (`Settled.mono`, `update_keeps`).

A file that can be read is written or left alone by an update (`update_of_read`). Written once more
and then back again, it leaves the tree as it was after the first time (`Written.again`).
-/

namespace Vendoring.Tree

/-- An update with these bytes has nothing to do: the file has them, or it cannot be written and no
directory above it can be made. -/
def Settled (tree : Tree) (p : Path) (content : ByteArray) : Prop :=
  tree.read p = .ok content ∨ ¬ tree.Writable p ∧ tree.Stuck p

/-- The digest tells the bytes of the file at a path from the given ones. -/
def Discerned (tree : Tree) (p : Path) (content : ByteArray) : Prop :=
  ∀ old, tree.read p = .ok old → Digest.ofContent old = Digest.ofContent content → old = content

/-- What is in the way of a file in the first tree is in its way in the second one. -/
structure Hinders (s t : Tree) (p : Path) : Prop where
  here : t.here = s.here
  start : t.kind (s.start p) = .directory → s.kind (s.start p) = .directory
  above : ∀ place, s.start p <+: place → place <+: s.start p ++ p.names.dropLast →
    ∀ content, s.kind place = .file content → ∃ content', t.kind place = .file content'
  target : s.kind (s.start p ++ p.names) = .directory →
    t.kind (s.start p ++ p.names) = .directory
  staging : s.kind (s.start p ++ p.staging.names) = .directory →
    t.kind (s.start p ++ p.staging.names) = .directory

/-- What is in the way of a file in the first tree, and every directory on the way to it, is kept in
the second one. -/
structure Keeps (s t : Tree) (p : Path) : Prop extends Hinders s t p where
  directory : ∀ place, s.kind place = .directory → t.kind place = .directory

/-- A file that is writable was writable when less was in its way. -/
theorem Writable.of_hinders {s t : Tree} {p : Path} (h : s.Hinders t p) (hwritable : t.Writable p) :
    s.Writable p := by
  obtain ⟨hpath, hstagingPath, hending, hfit, habove, htarget, hstaging⟩ := hwritable
  rw [start_congr h.here] at habove htarget hstaging
  refine ⟨hpath, hstagingPath, hending, hfit, ⟨h.start habove.start, habove.fit, ?_⟩,
    fun hs => htarget (h.target hs), fun hs => hstaging (h.staging hs)⟩
  intro q hq hbelow content hfile
  obtain ⟨content', hfile'⟩ := h.above q hq hbelow content hfile
  exact habove.clear q hq hbelow content' hfile'

/-- Directories that could not be made still cannot be made where everything is kept. -/
theorem Stuck.of_keeps {s t : Tree} {p : Path} (hplain : Plain p.names) (h : s.Keeps t p)
    (hstuck : s.Stuck p) : t.Stuck p := by
  intro hcheck hdirectory
  rw [start_congr h.here] at hdirectory ⊢
  have henter := hstuck hcheck (h.start hdirectory)
  have hfront : Plain p.names.dropLast := fun name hname =>
    hplain name (List.dropLast_subset _ hname)
  rw [enter_of_kept hfront ?_ henter]
  · exact henter
  · intro q hq hbelow hexists
    cases hkind : s.kind q with
    | missing => exact absurd hkind hexists
    | directory => rw [h.directory q hkind]
    | file content =>
        obtain ⟨content', hfile⟩ := h.above q hq hbelow content hkind
        rw [hfile]
        rfl

/-- A file that keeps its place is read as before. -/
theorem read_mono {s t : Tree} {p : Path} {content : ByteArray} (hplain : Plain p.names)
    (hhere : t.here = s.here) (hfile : s.kind (s.start p ++ p.names) = .file content →
      t.kind (s.start p ++ p.names) = .file content) (h : s.read p = .ok content) :
    t.read p = .ok content := by
  obtain ⟨hcheck, hend, hfit, hkind⟩ := (read_eq_ok_iff hplain).1 h
  refine (read_eq_ok_iff hplain).2 ⟨hcheck, hend, hfit, ?_⟩
  rw [start_congr hhere]
  exact hfile hkind

/-- A file keeps its digest while its bytes are kept. -/
theorem Holds.mono {s t : Tree} {p : Path} {content : ByteArray} (hplain : Plain p.names)
    (hhere : t.here = s.here) (hfile : ∀ old, s.kind (s.start p ++ p.names) = .file old →
      t.kind (s.start p ++ p.names) = .file old) (h : s.Holds p content) : t.Holds p content := by
  obtain ⟨old, hread, hdigest⟩ := h
  exact ⟨old, read_mono hplain hhere (hfile old) hread, hdigest⟩

/-- A file that is settled stays so while what is in its way and its bytes are kept. -/
theorem Settled.mono {s t : Tree} {p : Path} {content : ByteArray} (hplain : Plain p.names)
    (hkeeps : s.Keeps t p) (hfile : s.kind (s.start p ++ p.names) = .file content →
      t.kind (s.start p ++ p.names) = .file content) (h : s.Settled p content) :
    t.Settled p content := by
  rcases h with hread | ⟨hwritable, hstuck⟩
  · exact Or.inl (read_mono hplain hkeeps.here hfile hread)
  · refine Or.inr ⟨fun h => hwritable (h.of_hinders hkeeps.toHinders), ?_⟩
    exact hstuck.of_keeps hplain hkeeps

/-- Updating a settled file does nothing. -/
theorem update_of_settled {tree : Tree} {p : Path} (hplain : Plain p.names) (hne : p.names ≠ [])
    {text : String} (h : tree.Settled p text.toUTF8) : (tree.update p text false).2 = tree := by
  rcases update_cases tree hplain hne text with
    ⟨-, hupdate⟩ | ⟨hholds, ⟨hwritable, -⟩ | ⟨-, error, t, hupdate, hfailed⟩⟩
  · rw [hupdate]
  · rcases h with h | ⟨h, -⟩
    · exact absurd ⟨_, h, rfl⟩ hholds
    · exact absurd hwritable h
  · rw [hupdate]
    rcases h with h | ⟨-, h⟩
    · exact absurd ⟨_, h, rfl⟩ hholds
    · exact hfailed.same h

/-- A file that is written has the new bytes. -/
theorem Written.holds {s t : Tree} {p : Path} {content : ByteArray} (hplain : Plain p.names)
    (hwritable : s.Writable p) (h : s.Written t p content) : t.read p = .ok content := by
  obtain ⟨front, last, hnames, hstagingNames, -⟩ := exists_names hwritable.ending
  have hfit : Fit p.names := by
    have hfit := hwritable.fit
    rw [hstagingNames] at hfit
    rw [hnames]
    exact fit_of_staging hfit
  refine (read_eq_ok_iff hplain).2 ⟨hwritable.path, hwritable.ending, hfit, ?_⟩
  rw [start_congr h.here, h.kind, if_pos rfl]

/-- A file that was not writable is not made so by an update that fails. -/
theorem Failed.not_writable {s t : Tree} {p : Path} (h : s.Failed t p) (hs : ¬ s.Writable p) :
    ¬ t.Writable p := by
  intro ht
  refine hs (ht.of_hinders ⟨h.grows.here, fun hdirectory => ?_, ?_, h.grows.directory,
    h.grows.directory⟩)
  · rcases h.grows.kind (s.start p) with heq | ⟨⟨front, hne, -, heq⟩, -⟩
    · rw [← heq, hdirectory]
    · exact absurd (List.self_eq_append_right.1 heq) hne
  · intro place _ _ content hfile
    exact ⟨content, h.grows.file_iff.2 hfile⟩

/-- After an update a file is settled, unless its old bytes are taken for the new ones. -/
theorem settled_update {tree : Tree} {p : Path} (hplain : Plain p.names) (hne : p.names ≠ [])
    {text : String} (hdiscerned : tree.Discerned p text.toUTF8) :
    (tree.update p text false).2.Settled p text.toUTF8 := by
  rcases update_cases tree hplain hne text with
    ⟨⟨old, hread, hdigest⟩, hupdate⟩ | ⟨-, ⟨hwritable, t, hupdate, hwritten⟩ |
      ⟨hwritable, error, t, hupdate, hfailed⟩⟩
  · rw [hupdate]
    obtain rfl := hdiscerned old hread hdigest
    exact Or.inl hread
  · rw [hupdate]
    exact Or.inl (hwritten.holds hplain hwritable)
  · rw [hupdate]
    exact Or.inr ⟨hfailed.not_writable hwritable, hfailed.stuck⟩

/-! ## Files that can be read -/

/-- Above a file that can be read no directory is missing. -/
theorem Stuck.of_read {tree : Tree} {p : Path} {old : ByteArray} (hplain : Plain p.names)
    (h : tree.read p = .ok old) : tree.Stuck p := by
  intro _ _ hmissing
  obtain ⟨-, ⟨-, -, hne⟩, hfit, hkind⟩ := (read_eq_ok_iff hplain).1 h
  obtain ⟨front, last, hnames⟩ := Path.exists_lastName hne
  rw [hnames] at hplain hfit hkind
  have henter : tree.enter (tree.start p) front = .ok (tree.start p ++ front) :=
    enter_of_ne_missing hplain hfit (by simp [hkind])
  rw [hnames, List.dropLast_concat, henter] at hmissing
  cases hmissing

/-- An update of a file that can be read changes nothing, or it writes the file, which did not hold
the bytes. -/
theorem update_of_read {tree : Tree} {p : Path} {old : ByteArray} (hplain : Plain p.names)
    (h : tree.read p = .ok old) (text : String) :
    (tree.update p text false).2 = tree ∨
      tree.Writable p ∧ ¬ tree.Holds p text.toUTF8 ∧
        tree.Written (tree.update p text false).2 p text.toUTF8 := by
  have hne : p.names ≠ [] := ((read_eq_ok_iff hplain).1 h).2.1.2.2
  rcases update_cases tree hplain hne text with
    ⟨-, hupdate⟩ | ⟨hholds, ⟨hwritable, t, hupdate, hwritten⟩ | ⟨-, error, t, hupdate, hfailed⟩⟩
  · rw [hupdate]
    exact Or.inl rfl
  · rw [hupdate]
    exact Or.inr ⟨hwritable, hholds, hwritten⟩
  · rw [hupdate]
    exact Or.inl (hfailed.same (Stuck.of_read hplain h))

/-- A writable file stays writable when it is written. -/
theorem Written.writable {s t : Tree} {p : Path} {content : ByteArray} (hwritable : s.Writable p)
    (h : s.Written t p content) : t.Writable p := by
  obtain ⟨hpath, hstagingPath, hending, hfit, habove, -, -⟩ := hwritable
  have htarget : t.kind (s.start p ++ p.names) = .file content := by rw [h.kind, if_pos rfl]
  have hdirectory : ∀ q, q <+: s.start p ++ p.names.dropLast → t.kind q = .directory := by
    intro q hbelow
    obtain ⟨front, last, hnames⟩ := Path.exists_lastName hending.2.2
    rw [hnames, List.dropLast_concat] at hbelow
    obtain ⟨rest, hrest⟩ := hbelow
    have hexists : t.kind (q ++ (rest ++ [last])) ≠ .missing := by
      rw [← List.append_assoc, hrest, List.append_assoc, ← hnames, htarget]
      simp
    exact kind_of_append_ne_missing (by simp) hexists
  rw [← start_congr h.here] at htarget hdirectory
  refine ⟨hpath, hstagingPath, hending, hfit, ⟨hdirectory _ (List.prefix_append _ _), habove.fit, ?_⟩,
    by simp [htarget], ?_⟩
  · intro q _ hbelow content' hfile
    rw [hdirectory q hbelow] at hfile
    cases hfile
  · rw [start_congr h.here, h.kind]
    split
    · simp
    · simp

/-- A file that was written is written again at the same places. -/
theorem Written.again {s t u v : Tree} {p : Path} {old new : ByteArray} (h : s.Written t p new)
    (h' : t.Written u p old) (h'' : u.Written v p new) : v.Alike t := by
  refine ⟨h''.here.trans h'.here, ?_⟩
  intro place
  rw [h''.kind, h'.kind, h.kind, start_congr (h'.here.trans h.here), start_congr h.here]
  split
  · rfl
  · split
    · rfl
    · split <;> rfl

/-- Written once more, a file changes its bytes only. -/
theorem Written.form {s t u : Tree} {p : Path} {old new : ByteArray} (h : s.Written t p new)
    (h' : t.Written u p old) (place : List Name) :
    (u.kind place).form = (t.kind place).form ∧
      (place ≠ s.start p ++ p.names → u.kind place = t.kind place) := by
  rw [h'.kind, h.kind, start_congr h.here]
  split
  · rename_i hplace
    exact ⟨rfl, fun hne => absurd hplace hne⟩
  · split
    · exact ⟨rfl, fun _ => rfl⟩
    · split <;> exact ⟨rfl, fun _ => rfl⟩

/-- Paths that start alike and end in the same names are written alike. -/
theorem Written.congr {s t : Tree} {p q : Path} {content : ByteArray} (h : s.Written t p content)
    (habsolute : q.isAbsolute = p.isAbsolute) (hp : p.EndsInName) (hq : q.EndsInName)
    (hnames : q.names = p.names) : s.Written t q content := by
  obtain ⟨front, last, hpnames, hpstaging, -⟩ := exists_names hp
  obtain ⟨front', last', hqnames, hqstaging, -⟩ := exists_names hq
  rw [hnames, hpnames] at hqnames
  obtain ⟨rfl, hlast⟩ := List.append_inj' hqnames rfl
  obtain rfl := (List.cons.inj hlast).1
  refine ⟨h.here, ?_⟩
  intro place
  rw [h.kind, start_of_isAbsolute habsolute, hnames, hqstaging, hpstaging]

/-! ## What an update changes -/

/-- What an update by a plain path can do to the kind of a place: nothing, or the place is that of
the file, of its staging file, or of a new directory above them. -/
inductive Change (s : Tree) (p : Path) (content : ByteArray) (place : List Name) : NodeKind → Prop where
  | same : Change s p content place (s.kind place)
  | target (hplace : place = s.start p ++ p.names) (hkind : s.kind place ≠ .directory) :
      Change s p content place (.file content)
  | staging (hplace : place = s.start p ++ p.staging.names) (hend : p.EndsInName)
      (hkind : s.kind place ≠ .directory) : Change s p content place .missing
  | directory (hplace : Between (s.start p) p.names.dropLast place)
      (hkind : s.kind place = .missing) : Change s p content place .directory

/-- An update by a plain path changes a place in one of the ways of `Change`. -/
theorem update_change (tree : Tree) {p : Path} (hplain : Plain p.names) (hne : p.names ≠ [])
    (text : String) :
    (tree.update p text false).2.here = tree.here ∧
      ∀ place, tree.Change p text.toUTF8 place ((tree.update p text false).2.kind place) := by
  rcases update_cases tree hplain hne text with
    ⟨-, hupdate⟩ | ⟨-, ⟨hwritable, t, hupdate, hwritten⟩ | ⟨-, error, t, hupdate, hfailed⟩⟩
  · rw [hupdate]
    exact ⟨rfl, fun place => .same⟩
  · rw [hupdate]
    refine ⟨hwritten.here, ?_⟩
    intro place
    show tree.Change p text.toUTF8 place (t.kind place)
    rw [hwritten.kind]
    split
    · rename_i hplace
      exact .target hplace (hplace ▸ hwritable.target)
    · split
      · rename_i hplace
        exact .staging hplace hwritable.ending (hplace ▸ hwritable.staging)
      · split
        · rename_i hbetween
          cases hkind : tree.kind place with
          | missing =>
              obtain ⟨⟨front, rfl⟩, hbelow⟩ := hbetween
              refine .directory ⟨front, ?_, (List.prefix_append_right_inj _).1 hbelow, rfl⟩ hkind
              rintro rfl
              rw [List.append_nil, hwritable.above.start] at hkind
              cases hkind
          | directory => exact hkind ▸ .same
          | file content =>
              exact absurd hkind (hwritable.above.clear place hbetween.1 hbetween.2 content)
        · exact .same
  · rw [hupdate]
    refine ⟨hfailed.grows.here, ?_⟩
    intro place
    show tree.Change p text.toUTF8 place (t.kind place)
    rcases hfailed.grows.kind place with heq | ⟨hbetween, hmissing, hdirectory⟩
    · rw [heq]
      exact .same
    · rw [hdirectory]
      exact .directory hbetween hmissing

end Vendoring.Tree
