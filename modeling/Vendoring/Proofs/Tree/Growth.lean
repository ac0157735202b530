import Vendoring.Proofs.Tree.Keeping

/-!
# What making directories changes

Making a directory with those above it turns missing places on the way to it into directories and
does nothing else (`makeDirectories_grows`), and without a directory to start from it does nothing
at all (`makeDirectories_of_start`).
-/

namespace Vendoring

namespace Tree

/-- The second tree is the first one with directories at some places where nothing was. -/
structure Grows (s t : Tree) (made : List Name → Prop) : Prop where
  here : t.here = s.here
  kind : ∀ place, t.kind place = s.kind place ∨
    made place ∧ s.kind place = .missing ∧ t.kind place = .directory

namespace Grows

variable {s t u : Tree} {made : List Name → Prop}

/-- A tree grows into itself. -/
theorem refl (tree : Tree) (made : List Name → Prop) : tree.Grows tree made :=
  ⟨rfl, fun _ => Or.inl rfl⟩

/-- A tree that grows twice at some places has grown at these places. -/
theorem trans (h : s.Grows t made) (h' : t.Grows u made) : s.Grows u made := by
  refine ⟨h'.here.trans h.here, ?_⟩
  intro place
  rcases h.kind place with hst | ⟨hmade, hs, ht⟩
  · rcases h'.kind place with htu | ⟨hmade, ht, hu⟩
    · exact Or.inl (htu.trans hst)
    · exact Or.inr ⟨hmade, hst.symm.trans ht, hu⟩
  · rcases h'.kind place with htu | ⟨-, ht', -⟩
    · exact Or.inr ⟨hmade, hs, htu.trans ht⟩
    · rw [ht] at ht'
      cases ht'

/-- Growth at some places is growth at any more of them. -/
theorem mono {made' : List Name → Prop} (h : s.Grows t made)
    (hmade : ∀ place, made place → made' place) : s.Grows t made' :=
  ⟨h.here, fun place => (h.kind place).imp_right fun h => ⟨hmade place h.1, h.2⟩⟩

/-- Growth leaves alone where paths start. -/
theorem start (h : s.Grows t made) (p : Path) : t.start p = s.start p :=
  start_congr h.here p

/-- What is not missing is kept. -/
theorem kept (h : s.Grows t made) {place : List Name} (hplace : s.kind place ≠ .missing) :
    t.kind place = s.kind place := by
  rcases h.kind place with heq | ⟨-, hmissing, -⟩
  · exact heq
  · exact absurd hmissing hplace

/-- Directories are there after growth as before. -/
theorem directory (h : s.Grows t made) {place : List Name} (hplace : s.kind place = .directory) :
    t.kind place = .directory := by
  rw [h.kept (by simp [hplace]), hplace]

/-- No file is new. -/
theorem file_iff (h : s.Grows t made) {place : List Name} {content : ByteArray} :
    t.kind place = .file content ↔ s.kind place = .file content := by
  rcases h.kind place with heq | ⟨-, hs, ht⟩
  · rw [heq]
  · rw [hs, ht]
    simp

end Grows

/-- The places on the way that a path takes from its start, the last one included. -/
def OnTheWay (tree : Tree) (p : Path) (place : List Name) : Prop :=
  ∃ front, front ≠ [] ∧ front <+: p.names ∧ place = front.foldl climb (tree.start p)

/-- Making a directory makes no other one, and it stands on the way of its path. -/
theorem makeDirectory_grows {tree made : Tree} {p : Path} (h : tree.makeDirectory p = .ok made) :
    tree.Grows made (tree.OnTheWay p) := by
  obtain ⟨dir, last, hlast, href, hdir, -, hmissing, rfl⟩ := makeDirectory_eq_ok h
  refine ⟨rfl, ?_⟩
  intro place
  rw [kind_set_directory (enter_eq_ok hdir).2 hmissing]
  by_cases hplace : place = dir ++ [last]
  · refine Or.inr ⟨⟨p.names, ?_, List.prefix_rfl, ?_⟩, hplace ▸ hmissing, by rw [if_pos hplace]⟩
    · rw [names_of_getLast? hlast href]
      simp
    · rw [hplace, ← placeOf_eq hlast href hdir]
      rfl
  · exact Or.inl (if_neg hplace)

/-- What is on the way of the parent of a path is on the way of the path. -/
theorem onTheWay_parent {tree : Tree} {p above : Path} (h : p.parent? = some above)
    {place : List Name} (hplace : tree.OnTheWay above place) : tree.OnTheWay p place := by
  obtain ⟨hnames, habsolute, -⟩ := Path.parent?_eq_some h
  obtain ⟨front, hne, hfront, rfl⟩ := hplace
  refine ⟨front, hne, ?_, ?_⟩
  · rw [hnames] at hfront
    exact hfront.trans (List.dropLast_prefix _)
  · rw [start_of_isAbsolute habsolute]

/-- Making a directory and those above it makes places on its way into directories. -/
theorem makeDirectories_grows (tree : Tree) (p : Path) :
    tree.Grows (tree.makeDirectories p).2 (tree.OnTheWay p) := by
  fun_induction makeDirectories tree p with
  | case1 p hempty => exact Grows.refl _ _
  | case2 p hempty made hmade => exact makeDirectory_grows hmade
  | case3 p hempty hmissing hparent => exact Grows.refl _ _
  | case4 p hempty hmissing above hparent cause left hleft ih =>
      rw [hleft] at ih
      exact ih.mono fun place => onTheWay_parent hparent
  | case5 p hempty hmissing above hparent left hleft made hmade ih =>
      rw [hleft] at ih
      have hfirst := ih.mono fun place => onTheWay_parent hparent
      refine hfirst.trans ((makeDirectory_grows hmade).mono fun place => ?_)
      unfold OnTheWay
      rw [hfirst.start]
      exact id
  | case6 p hempty hmissing above hparent left hleft cause hcause ih =>
      rw [hleft] at ih
      exact ih.mono fun place => onTheWay_parent hparent
  | case7 p hempty cause hne hcause => exact Grows.refl _ _

/-- No directory is made unless there is one to start from. -/
theorem makeDirectories_of_start {tree : Tree} {p : Path}
    (hstart : tree.kind (tree.start p) ≠ .directory) : (tree.makeDirectories p).2 = tree := by
  have hmake : ∀ q : Path, tree.start q = tree.start p → ∀ made, tree.makeDirectory q ≠ .ok made := by
    intro q hq made hmade
    obtain ⟨dir, last, -, -, hdir, -⟩ := makeDirectory_eq_ok hmade
    rw [directoryOf, hq] at hdir
    exact hstart (kind_of_enter_eq_ok hdir)
  have hparentStart : ∀ {q above : Path}, q.parent? = some above →
      tree.start above = tree.start q := fun hparent =>
    start_of_isAbsolute (Path.parent?_eq_some hparent).2.1
  fun_induction makeDirectories tree p with
  | case1 p hempty => rfl
  | case2 p hempty made hmade => exact absurd hmade (hmake p rfl made)
  | case3 p hempty hmissing hparent => rfl
  | case4 p hempty hmissing above hparent cause left hleft ih =>
      have habove := hparentStart hparent
      have hleft' := ih (habove ▸ hstart) (habove ▸ hmake)
      rwa [hleft] at hleft'
  | case5 p hempty hmissing above hparent left hleft made hmade ih =>
      have habove := hparentStart hparent
      have hleft' := ih (habove ▸ hstart) (habove ▸ hmake)
      rw [hleft] at hleft'
      rw [show left = tree from hleft'] at hmade
      exact absurd hmade (hmake p rfl made)
  | case6 p hempty hmissing above hparent left hleft cause hcause ih =>
      have habove := hparentStart hparent
      have hleft' := ih (habove ▸ hstart) (habove ▸ hmake)
      rwa [hleft] at hleft'
  | case7 p hempty cause hne hcause => rfl

end Tree

end Vendoring
