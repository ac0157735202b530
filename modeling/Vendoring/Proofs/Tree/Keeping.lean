import Vendoring.Proofs.Tree.Entry

/-!
# Trees that keep what they have

Trees in which files and directories stand at the same places are walked alike. If only some of the
places are kept, a path is still entered as far as it passes over these: what it found is found by
it again (`enter_of_kept`), and if it failed, though not for a missing name, then it fails for the
same cause (`read_of_passes`).
-/

namespace Vendoring

/-- The kind without the bytes of a file. -/
def NodeKind.form : NodeKind → NodeKind
  | .file _ => .file .empty
  | kind => kind

/-- Places of the same form fail to be read for the same cause, or files stand at both. -/
theorem NodeKind.content_cases {kind kind' : NodeKind} (h : kind.form = kind'.form) (slash : Bool) :
    (∃ cause, kind.content slash = .error cause ∧ kind'.content slash = .error cause) ∨
      ∃ old new, kind = .file old ∧ kind' = .file new ∧ kind.content slash = .ok old ∧
        kind'.content slash = .ok new := by
  cases kind <;> cases kind' <;> simp [NodeKind.form] at h
  · exact Or.inl ⟨_, rfl, rfl⟩
  · exact Or.inl ⟨_, rfl, rfl⟩
  · rename_i old new
    cases slash with
    | true => exact Or.inl ⟨_, rfl, rfl⟩
    | false => exact Or.inr ⟨old, new, rfl, rfl, rfl, rfl⟩

namespace Tree

/-! ## The same forms -/

/-- Trees with places of the same form are walked alike. -/
theorem enter_congr {s t : Tree} (h : ∀ place, (s.kind place).form = (t.kind place).form)
    (place pieces : List Name) : s.enter place pieces = t.enter place pieces := by
  induction pieces generalizing place with
  | nil =>
      have hplace := h place
      rw [enter_nil, enter_nil]
      cases hs : s.kind place <;> cases ht : t.kind place <;> simp [hs, ht, NodeKind.form] at hplace ⊢
  | cons piece pieces ih =>
      have hplace := h place
      rw [enter_cons, enter_cons]
      cases hs : s.kind place <;> cases ht : t.kind place <;>
        simp [hs, ht, ih, NodeKind.form] at hplace ⊢

/-- In trees with places of the same form a path fails to read for the same cause, or it reads what
stands at its place in each of them. -/
theorem read_forms {s t : Tree} (p : Path) (hhere : t.here = s.here)
    (h : ∀ place, (s.kind place).form = (t.kind place).form) :
    (∃ cause, s.read p = .error cause ∧ t.read p = .error cause) ∨
      ∃ old new, s.read p = .ok old ∧ t.read p = .ok new ∧
        s.kind (s.placeOf p) = .file old ∧ t.kind (s.placeOf p) = .file new := by
  have hstart := start_congr hhere p
  have hdirectory : t.directoryOf p = s.directoryOf p := by
    unfold directoryOf
    rw [hstart, enter_congr h]
  rw [read_eq, read_eq]
  unfold atEntry
  cases checkPath p with
  | error cause => exact Or.inl ⟨cause, rfl, rfl⟩
  | ok _ =>
      cases hlast : p.pieces.getLast? with
      | none =>
          have hplace : s.placeOf p = s.start p := by
            rw [placeOf, Path.names_eq_filter, List.getLast?_eq_none_iff.1 hlast]
            rfl
          rw [hstart, hplace]
          rcases NodeKind.content_cases (h (s.start p)) p.endsInSlash with
            hcause | ⟨old, new, hs, ht, hold, hnew⟩
          · exact Or.inl hcause
          · exact Or.inr ⟨old, new, hold, hnew, hs, ht⟩
      | some last =>
          rw [hdirectory]
          cases hdir : s.directoryOf p with
          | error cause => exact Or.inl ⟨cause, rfl, rfl⟩
          | ok dir =>
              by_cases href : isReference last = true
              · exact Or.inl ⟨.isADirectory, by simp [href], by simp [href]⟩
              by_cases hlong : tooLong last = true
              · exact Or.inl ⟨.nameTooLong, by simp [href, hlong], by simp [href, hlong]⟩
              rw [placeOf_eq hlast (by simpa using href) hdir]
              simp only [href, hlong, Bool.false_eq_true, if_false]
              rcases NodeKind.content_cases (h (dir ++ [last])) p.endsInSlash with
                hcause | ⟨old, new, hs, ht, hold, hnew⟩
              · exact Or.inl hcause
              · exact Or.inr ⟨old, new, hold, hnew, hs, ht⟩

/-- What is entered is entered in a tree with more directories, too. -/
theorem enter_eq_ok_of_directories {s t : Tree} (h : ∀ place, s.kind place = .directory →
    t.kind place = .directory) {place pieces dir : List Name}
    (henter : s.enter place pieces = .ok dir) : t.enter place pieces = .ok dir := by
  induction pieces generalizing place with
  | nil =>
      have hplace := kind_of_enter_eq_ok henter
      rw [enter_nil, hplace] at henter
      rw [enter_nil, h place hplace]
      exact henter
  | cons piece pieces ih =>
      have hplace := kind_of_enter_eq_ok henter
      rw [enter_cons, hplace] at henter
      rw [enter_cons, h place hplace]
      by_cases hdot : piece = ['.']
      · simp only [if_pos hdot] at henter ⊢
        exact ih henter
      by_cases hup : piece = ['.', '.']
      · simp only [if_neg hdot, if_pos hup] at henter ⊢
        exact ih henter
      by_cases hlong : tooLong piece = true
      · simp only [if_neg hdot, if_neg hup, if_pos hlong] at henter
        cases henter
      · simp only [if_neg hdot, if_neg hup, if_neg hlong] at henter ⊢
        exact ih henter

/-- A path names a directory exactly if it is entered. -/
theorem isDirectory_iff {tree : Tree} {p : Path} :
    tree.isDirectory p = true ↔
      checkPath p = .ok () ∧ ∃ dir, tree.enter (tree.start p) p.pieces = .ok dir := by
  have hlook : ∀ place, (tree.at? place).any Node.isDirectory = true ↔
      tree.kind place = .directory := by
    intro place
    unfold kind
    cases tree.at? place with
    | none => simp [NodeKind.of]
    | some node => cases node <;> simp [NodeKind.of, Node.isDirectory]
  unfold isDirectory enter
  rw [locate_eq_bind]
  cases checkPath p with
  | error cause => simp [bind, Except.bind]
  | ok _ =>
      cases hwalk : tree.walk (tree.start p) p.pieces with
      | error cause => simp [bind, Except.bind]
      | ok place =>
          cases hkind : tree.kind place with
          | missing => simp [bind, Except.bind, hkind, NodeKind.located, hlook]
          | directory => simp [bind, Except.bind, hkind, NodeKind.located, hlook]
          | file content =>
              cases p.endsInSlash <;> simp [bind, Except.bind, hkind, NodeKind.located, hlook]

/-- A path of a directory is one in every tree that has the directories of the first one. -/
theorem isDirectory_of_directories {s t : Tree} (hhere : s.here = t.here)
    (h : ∀ place, s.kind place = .directory → t.kind place = .directory) {p : Path}
    (hp : s.isDirectory p = true) : t.isDirectory p = true := by
  obtain ⟨hcheck, dir, hdir⟩ := isDirectory_iff.1 hp
  refine isDirectory_iff.2 ⟨hcheck, dir, ?_⟩
  rw [start_congr hhere.symm]
  exact enter_eq_ok_of_directories h hdir

/-- The place is one of those that names lead through, the first and the last one included. -/
def Passes (place names q : List Name) : Prop :=
  ∃ front, front <+: names ∧ q = front.foldl climb place

/-- Names start at the place that they are followed from. -/
theorem Passes.refl (place names : List Name) : Passes place names place :=
  ⟨[], List.nil_prefix, rfl⟩

/-- What the names behind the first one lead through, all of them lead through. -/
theorem Passes.cons {place names q : List Name} {name : Name}
    (h : Passes (climb place name) names q) : Passes place (name :: names) q := by
  obtain ⟨front, hfront, rfl⟩ := h
  exact ⟨name :: front, (List.cons_prefix_cons).2 ⟨rfl, hfront⟩, rfl⟩

/-- Names that are not missing on the way lead on as before where what they met is kept. -/
theorem enter_of_passes {s t : Tree} {place names : List Name} (hdots : ∀ name ∈ names, name ≠ ['.'])
    (hkept : ∀ q, Passes place names q → s.kind q ≠ .missing → (t.kind q).form = (s.kind q).form)
    (henter : s.enter place names ≠ .error .notFound) : t.enter place names = s.enter place names := by
  induction names generalizing place with
  | nil =>
      have hplace := hkept place (Passes.refl place [])
      rw [enter_nil] at henter ⊢
      rw [enter_nil]
      cases hs : s.kind place <;> cases ht : t.kind place <;>
        simp [hs, ht, NodeKind.form] at hplace henter ⊢
  | cons name names ih =>
      have hplace := hkept place (Passes.refl place _)
      cases hs : s.kind place with
      | missing => exact absurd (enter_of_missing hs _) henter
      | file content =>
          cases ht : t.kind place <;> simp [hs, ht, NodeKind.form] at hplace
          rw [enter_cons, enter_cons, hs, ht]
      | directory =>
          have ht : t.kind place = .directory := by
            cases ht : t.kind place <;> simp [hs, ht, NodeKind.form] at hplace
            rfl
          have hnext : s.enter (climb place name) names ≠ .error .notFound →
              t.enter (climb place name) names = s.enter (climb place name) names :=
            ih (fun other hother => hdots other (by simp [hother])) fun q hq => hkept q hq.cons
          rw [enter_cons, hs] at henter
          rw [enter_cons, enter_cons, hs, ht]
          simp only [if_neg (hdots name (by simp))] at henter ⊢
          by_cases hup : name = ['.', '.']
          · rw [climb, if_pos hup] at hnext
            simp only [if_pos hup] at henter ⊢
            exact hnext henter
          by_cases hlong : tooLong name = true
          · simp only [if_neg hup, if_pos hlong]
          · rw [climb, if_neg hup] at hnext
            simp only [if_neg hup, if_neg hlong] at henter ⊢
            exact hnext henter

/-- Plain names lead on as before where what they met below their start is kept. -/
theorem enter_of_kept {s t : Tree} {place names : List Name} (hplain : Plain names)
    (hkept : ∀ q, place <+: q → q <+: place ++ names → s.kind q ≠ .missing →
      (t.kind q).form = (s.kind q).form)
    (henter : s.enter place names ≠ .error .notFound) : t.enter place names = s.enter place names := by
  refine enter_of_passes (fun name hname => (isReference_eq_false.1 (hplain name hname)).1) ?_ henter
  rintro q ⟨front, hfront, rfl⟩
  rw [foldl_climb fun name hname => hplain name (hfront.subset hname)]
  exact hkept _ (List.prefix_append _ _) ((List.prefix_append_right_inj _).2 hfront)

/-- A path that fails to be read, but not for a missing name, fails for the same cause where what it
met is kept. -/
theorem read_of_passes {s t : Tree} {p : Path} {cause : IoError} (hhere : t.here = s.here)
    (hkept : ∀ q, Passes (s.start p) p.names q → s.kind q ≠ .missing →
      (t.kind q).form = (s.kind q).form)
    (hread : s.read p = .error cause) (hcause : cause ≠ .notFound) : t.read p = .error cause := by
  have hstart := start_congr hhere p
  -- what is looked at in the end is kept, since it is not missing
  have hcontent : ∀ q, Passes (s.start p) p.names q →
      (s.kind q).content p.endsInSlash = .error cause →
        (t.kind q).content p.endsInSlash = .error cause := by
    intro q hq hs
    have hexists : s.kind q ≠ .missing := by
      intro hmissing
      rw [hmissing] at hs
      exact hcause (Except.error.inj hs).symm
    rcases NodeKind.content_cases (hkept q hq hexists) p.endsInSlash with
      ⟨cause', ht, hs'⟩ | ⟨old, new, -, -, -, hs'⟩
    · rw [ht, ← hs, hs']
    · rw [hs] at hs'
      cases hs'
  rw [read_eq] at hread ⊢
  unfold atEntry at hread ⊢
  cases hcheck : checkPath p with
  | error cause' =>
      rw [hcheck] at hread
      exact hread
  | ok _ =>
      rw [hcheck] at hread
      cases hlast : p.pieces.getLast? with
      | none =>
          simp only [hlast, hstart] at hread ⊢
          exact hcontent _ (Passes.refl _ _) hread
      | some last =>
          obtain ⟨front, hpieces⟩ := List.getLast?_eq_some_iff.1 hlast
          have hfront : p.pieces.dropLast.filter (· ≠ ['.']) <+: p.names := by
            rw [Path.names_eq_filter, hpieces, List.dropLast_concat, List.filter_append]
            exact List.prefix_append _ _
          have hdirectory : s.directoryOf p ≠ .error .notFound → t.directoryOf p = s.directoryOf p := by
            unfold directoryOf
            rw [hstart, ← enter_filter, ← enter_filter t]
            refine enter_of_passes (fun name hname => ?_) fun q ⟨above, habove, hq⟩ => ?_
            · exact of_decide_eq_true (List.mem_filter.1 hname).2
            · exact hkept q ⟨above, habove.trans hfront, hq⟩
          simp only [hlast] at hread ⊢
          cases hdir : s.directoryOf p with
          | error cause' =>
              rw [hdir] at hread hdirectory
              rw [hdirectory (by simpa using fun h => hcause ((Except.error.inj hread).symm.trans h))]
              exact hread
          | ok dir =>
              rw [hdir] at hread hdirectory
              rw [hdirectory nofun]
              by_cases href : isReference last = true
              · simpa [href] using hread
              by_cases hlong : tooLong last = true
              · simpa [href, hlong] using hread
              simp only [href, hlong, Bool.false_eq_true, if_false] at hread ⊢
              rw [← placeOf_eq hlast (by simpa using href) hdir] at hread ⊢
              exact hcontent _ ⟨p.names, List.prefix_rfl, rfl⟩ hread

end Tree

end Vendoring
