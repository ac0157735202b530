import Vendoring.Tree

/-!
# What stands at the places of a tree

A tree is looked at place by place: nothing is there, a directory, or a file with its bytes.
Whatever is not missing has directories above it (`kind_of_append_ne_missing`). Writing a file,
making a directory and erasing a file change the kind of one place and of no other (`kind_set_file`,
`kind_set_directory`, `kind_without`). Two trees that look the same at every place are alike.
-/

namespace Vendoring

/-- What stands at a place, without what lies below it. -/
inductive NodeKind where
  | missing
  | directory
  | file (content : ByteArray)

instance (kind : NodeKind) : Decidable (kind = .missing) :=
  match kind with
  | .missing => isTrue rfl
  | .directory => isFalse nofun
  | .file _ => isFalse nofun

instance (kind : NodeKind) : Decidable (kind = .directory) :=
  match kind with
  | .missing => isFalse nofun
  | .directory => isTrue rfl
  | .file _ => isFalse nofun

/-- The kind of what is found. -/
def NodeKind.of : Option Node → NodeKind
  | none => .missing
  | some (.directory _) => .directory
  | some (.file content) => .file content

namespace Node

/-- An entry that is set is found by its name, and the others as before. -/
theorem entry?_setEntry (name other : Name) (node : Node) (entries : List (Name × Node)) :
    entry? other (setEntry name node entries) =
      if other = name then some node else entry? other entries := by
  induction entries with
  | nil =>
      by_cases h : other = name
      · simp [setEntry, entry?, h]
      · simp [setEntry, entry?, h, Ne.symm h]
  | cons entry entries ih =>
      obtain ⟨first, old⟩ := entry
      by_cases hfirst : first = name
      · by_cases hother : other = name
        · simp [setEntry, entry?, hfirst, hother]
        · simp [setEntry, entry?, hfirst, hother, Ne.symm hother]
      · by_cases hother : other = name
        · rw [setEntry, if_neg hfirst, entry?, ih]
          simp [hother, hfirst]
        · rw [setEntry, if_neg hfirst, entry?, ih, if_neg hother, if_neg hother, entry?]

/-- An entry that is dropped is not found any more, and the others as before. -/
theorem entry?_dropEntry (name other : Name) (entries : List (Name × Node)) :
    entry? other (dropEntry name entries) = if other = name then none else entry? other entries := by
  induction entries with
  | nil => simp [dropEntry, entry?]
  | cons entry entries ih =>
      obtain ⟨first, old⟩ := entry
      rw [dropEntry] at ih
      by_cases hfirst : first = name
      · by_cases hother : other = name
        · simpa [dropEntry, hfirst, hother] using ih
        · simpa [dropEntry, entry?, hfirst, hother, Ne.symm hother] using ih
      · by_cases hother : other = name
        · simpa [dropEntry, entry?, hfirst, hother] using ih
        · rw [if_neg hother] at ih ⊢
          simp [dropEntry, entry?, hfirst] at ih ⊢
          rw [ih]

/-- What stands at a place below another one is found from there. -/
theorem get?_append (node : Node) (above below : List Name) :
    node.get? (above ++ below) = (node.get? above).bind (·.get? below) := by
  induction above generalizing node with
  | nil => simp [get?]
  | cons name above ih =>
      cases node with
      | file content => simp [get?]
      | directory entries =>
          cases hentry : entry? name entries with
          | none => simp [get?, hentry]
          | some child => simp [get?, hentry, ih]

/-- Nothing is found below a file. -/
theorem get?_file_of_ne_nil (content : ByteArray) {place : List Name} (h : place ≠ []) :
    (Node.file content).get? place = none := by
  cases place with
  | nil => exact absurd rfl h
  | cons name place => rfl

/-- Nothing is found below an empty directory. -/
theorem get?_empty_of_ne_nil {place : List Name} (h : place ≠ []) :
    (Node.directory []).get? place = none := by
  cases place with
  | nil => exact absurd rfl h
  | cons name place => rfl

/-- What is put into a directory stands at its place with all that is below it; elsewhere the kinds
are as before. -/
theorem kind_get?_put (node new : Node) (dir : List Name) (name : Name) (place : List Name)
    (hdir : NodeKind.of (node.get? dir) = .directory) :
    NodeKind.of ((node.put new (dir ++ [name])).get? place) =
      if dir ++ [name] <+: place then NodeKind.of (new.get? (place.drop (dir.length + 1)))
      else NodeKind.of (node.get? place) := by
  induction dir generalizing node place with
  | nil =>
      cases node with
      | file content => simp [get?, NodeKind.of] at hdir
      | directory entries =>
          cases place with
          | nil => simp [put, get?, NodeKind.of]
          | cons first place =>
              by_cases hfirst : first = name
              · simp [put, get?, entry?_setEntry, hfirst]
              · simp [put, get?, entry?_setEntry, hfirst, Ne.symm hfirst]
  | cons above dir ih =>
      cases node with
      | file content => simp [get?, NodeKind.of] at hdir
      | directory entries =>
          cases hentry : entry? above entries with
          | none => simp [get?, hentry, NodeKind.of] at hdir
          | some child =>
              have hput : (Node.directory entries).put new (above :: dir ++ [name]) =
                  .directory (setEntry above (child.put new (dir ++ [name])) entries) := by
                cases dir <;> simp [put, hentry]
              rw [hput]
              cases place with
              | nil => simp [get?, NodeKind.of]
              | cons first place =>
                  by_cases hfirst : first = above
                  · simpa [get?, entry?_setEntry, hfirst, hentry] using
                      ih child place (by simpa [get?, hentry] using hdir)
                  · simp [get?, entry?_setEntry, hfirst, Ne.symm hfirst]

/-- What is erased is missing with all that is below it; elsewhere the kinds are as before. -/
theorem kind_get?_erase (node : Node) {place : List Name} (hplace : place ≠ []) (other : List Name) :
    NodeKind.of ((node.erase place).get? other) =
      if place <+: other then .missing else NodeKind.of (node.get? other) := by
  induction place generalizing node other with
  | nil => exact absurd rfl hplace
  | cons name place ih =>
      cases node with
      | file content =>
          cases other with
          | nil => simp [erase, get?]
          | cons first other => simp [erase, get?, NodeKind.of]
      | directory entries =>
          cases other with
          | nil =>
              cases place with
              | nil => simp [erase, get?, NodeKind.of]
              | cons next place =>
                  cases hentry : entry? name entries <;> simp [erase, hentry, get?, NodeKind.of]
          | cons first other =>
              cases place with
              | nil =>
                  by_cases hfirst : first = name
                  · simp [erase, get?, entry?_dropEntry, hfirst, NodeKind.of]
                  · simp [erase, get?, entry?_dropEntry, hfirst, Ne.symm hfirst]
              | cons next place =>
                  cases hentry : entry? name entries with
                  | none =>
                      by_cases hfirst : first = name
                      · simp [erase, hentry, get?, hfirst, NodeKind.of]
                      · simp [erase, hentry, get?, Ne.symm hfirst]
                  | some child =>
                      by_cases hfirst : first = name
                      · simpa [erase, hentry, get?, entry?_setEntry, hfirst] using
                          ih child (by simp) other
                      · simp [erase, hentry, get?, entry?_setEntry, hfirst, Ne.symm hfirst]

end Node

namespace Tree

/-- The kind of what stands at a place. -/
def kind (tree : Tree) (place : List Name) : NodeKind :=
  .of (tree.at? place)

/-- The trees look the same at every place, and paths start from the same one. -/
structure Alike (s t : Tree) : Prop where
  here : s.here = t.here
  kind : ∀ place, s.kind place = t.kind place

/-- A tree looks like itself. -/
theorem Alike.refl (tree : Tree) : tree.Alike tree :=
  ⟨rfl, fun _ => rfl⟩

/-- Looking the same goes both ways. -/
theorem Alike.symm {s t : Tree} (h : s.Alike t) : t.Alike s :=
  ⟨h.here.symm, fun place => (h.kind place).symm⟩

/-- Trees that look like the same one look the same. -/
theorem Alike.trans {s t u : Tree} (h : s.Alike t) (h' : t.Alike u) : s.Alike u :=
  ⟨h.here.trans h'.here, fun place => (h.kind place).trans (h'.kind place)⟩

/-- Directories are the places whose node has entries. -/
theorem kind_eq_directory {tree : Tree} {place : List Name} :
    tree.kind place = .directory ↔ ∃ entries, tree.at? place = some (.directory entries) := by
  unfold kind
  cases h : tree.at? place with
  | none => simp [NodeKind.of]
  | some node => cases node <;> simp [NodeKind.of]

/-- Files are the places whose node has bytes. -/
theorem kind_eq_file {tree : Tree} {place : List Name} {content : ByteArray} :
    tree.kind place = .file content ↔ tree.at? place = some (.file content) := by
  unfold kind
  cases h : tree.at? place with
  | none => simp [NodeKind.of]
  | some node => cases node <;> simp [NodeKind.of]

/-- Missing are the places where no node is found. -/
theorem kind_eq_missing {tree : Tree} {place : List Name} :
    tree.kind place = .missing ↔ tree.at? place = none := by
  unfold kind
  cases h : tree.at? place with
  | none => simp [NodeKind.of]
  | some node => cases node <;> simp [NodeKind.of]

/-- The kind of a place in a directory is that of its entry. -/
theorem kind_concat {tree : Tree} {dir : List Name} {entries : List (Name × Node)}
    (h : tree.at? dir = some (.directory entries)) (name : Name) :
    tree.kind (dir ++ [name]) = .of (Node.entry? name entries) := by
  rw [at?] at h
  rw [kind, at?, Node.get?_append, h]
  cases hentry : Node.entry? name entries <;> simp [Node.get?, hentry]

/-- Above what is not missing there are directories. -/
theorem kind_of_append_ne_missing {tree : Tree} {above below : List Name} (hbelow : below ≠ [])
    (h : tree.kind (above ++ below) ≠ .missing) : tree.kind above = .directory := by
  rw [Ne, kind_eq_missing, at?, Node.get?_append] at h
  rw [kind_eq_directory]
  cases hnode : tree.root.get? above with
  | none => simp [hnode] at h
  | some node =>
      cases node with
      | file content => simp [hnode, Node.get?_file_of_ne_nil content hbelow] at h
      | directory entries => exact ⟨entries, hnode⟩

/-- Below what is not a directory everything is missing. -/
theorem kind_below {tree : Tree} {above below : List Name} (hbelow : below ≠ [])
    (h : tree.kind above ≠ .directory) : tree.kind (above ++ below) = .missing := by
  refine Classical.byContradiction ?_
  intro hmissing
  exact h (kind_of_append_ne_missing hbelow hmissing)

/-- Everything below a place that is no directory is missing. -/
theorem kind_of_prefix_of_ne {tree : Tree} {above place : List Name} (h : above <+: place)
    (hne : place ≠ above) (habove : tree.kind above ≠ .directory) : tree.kind place = .missing := by
  obtain ⟨below, rfl⟩ := h
  exact kind_below (fun hbelow => hne (by simp [hbelow])) habove

/-- What has nothing below it and is set into a directory, where no directory stands, changes its
own place only. -/
theorem kind_set_leaf {tree : Tree} {dir : List Name} {name : Name} {node : Node}
    (hleaf : ∀ below : List Name, below ≠ [] → node.get? below = none)
    (hdir : tree.kind dir = .directory) (hplace : tree.kind (dir ++ [name]) ≠ .directory)
    (place : List Name) :
    (tree.set (dir ++ [name]) node).kind place =
      if place = dir ++ [name] then .of (some node) else tree.kind place := by
  rw [kind, at?, set, Node.kind_get?_put _ _ _ _ _ hdir]
  by_cases hprefix : dir ++ [name] <+: place
  · rw [if_pos hprefix]
    split
    · rename_i heq
      simp [heq, Node.get?]
    · rename_i hne
      obtain ⟨below, rfl⟩ := hprefix
      have hbelow : below ≠ [] := fun h => hne (by simp [h])
      rw [kind_below hbelow hplace]
      simp [hleaf below hbelow, NodeKind.of]
  · rw [if_neg hprefix, if_neg (by rintro rfl; exact hprefix List.prefix_rfl)]
    rfl

/-- A file that is set into a directory, where no directory stands, changes its own place only. -/
theorem kind_set_file {tree : Tree} {dir : List Name} {name : Name} (content : ByteArray)
    (hdir : tree.kind dir = .directory) (hplace : tree.kind (dir ++ [name]) ≠ .directory)
    (place : List Name) :
    (tree.set (dir ++ [name]) (.file content)).kind place =
      if place = dir ++ [name] then .file content else tree.kind place :=
  kind_set_leaf (fun _ => Node.get?_file_of_ne_nil content) hdir hplace place

/-- A directory that is made in a directory, where nothing stands, changes its own place only. -/
theorem kind_set_directory {tree : Tree} {dir : List Name} {name : Name}
    (hdir : tree.kind dir = .directory) (hplace : tree.kind (dir ++ [name]) = .missing)
    (place : List Name) :
    (tree.set (dir ++ [name]) (.directory [])).kind place =
      if place = dir ++ [name] then .directory else tree.kind place :=
  kind_set_leaf (fun _ => Node.get?_empty_of_ne_nil) hdir (by simp [hplace]) place

/-- The tree without what stands at a place. -/
def without (tree : Tree) (place : List Name) : Tree :=
  { tree with root := tree.root.erase place }

/-- A place that is erased, where no directory stands, is missing; no other place changes. -/
theorem kind_without {tree : Tree} {erased : List Name} (hne : erased ≠ [])
    (hfile : tree.kind erased ≠ .directory) (place : List Name) :
    (tree.without erased).kind place = if place = erased then .missing else tree.kind place := by
  rw [kind, at?, without, Node.kind_get?_erase _ hne]
  by_cases hprefix : erased <+: place
  · rw [if_pos hprefix]
    split
    · rfl
    · rename_i h
      exact (kind_of_prefix_of_ne hprefix h hfile).symm
  · rw [if_neg hprefix, if_neg (by rintro rfl; exact hprefix List.prefix_rfl)]
    rfl

end Tree

end Vendoring
