import Vendoring.Proofs.Mapping.Lookup
import Vendoring.Proofs.Path.Names

/-!
# Where the destinations of a table lie

A destination is joined to the root as text, its staging file is named by text that is appended to
that, and the check of a table looks at components. In components the join adds those of the
destination to those of the root (`normalized_join`), and the staging file has a longer last name,
or one name more if the path does not end in a name (`normalized_staging`). So below any root the
targets of a table are nested and apart, and no target is its own staging file (`targets_nested`).
-/

namespace Vendoring

namespace Path

/-- Without `.`, a joined path has the components of its first part and then those of its second
one. -/
theorem normalized_join (p : Path) {q : Path} (hq : q.isAbsolute = false) :
    (p.join q).normalized = p.normalized ++ q.normalized := by
  rw [normalized_eq, normalized_eq p, normalized_eq q, isAbsolute_join p hq, names_join p hq, hq,
    List.map_append, List.append_assoc]
  rfl

/-- A staging name is no `..`. -/
theorem componentOf_stagingName (name : Name) :
    componentOf (stagingName name) = .name (stagingName name) := by
  unfold componentOf
  rw [if_neg (stagingName_ne_reference name).2]

/-- The names of a staging file are those of its path, of which the last one is made longer, or one
more if a slash or a `.` piece ends the path, or nothing is written. -/
theorem names_staging_cases (p : Path) :
    (∃ front last, p.names = front ++ [last] ∧ p.staging.names = front ++ [stagingName last]) ∨
      ∃ piece, (piece = [] ∨ piece = ['.']) ∧ p.staging.names = p.names ++ [stagingName piece] := by
  obtain ⟨front, last, hstaging, hcases⟩ := pieces_staging p
  have hnames : p.staging.names = front.filter (· ≠ ['.']) ++ [stagingName last] := by
    simp [names_eq_filter, hstaging, (stagingName_ne_reference last).1]
  rw [hnames, names_eq_filter p]
  rcases hcases with ⟨rfl, hpieces, -⟩ | ⟨-, hpieces, -⟩
  · exact Or.inr ⟨[], Or.inl rfl, by rw [hpieces]⟩
  · by_cases hdot : last = ['.']
    · exact Or.inr ⟨last, Or.inr hdot, by simp [hpieces, hdot]⟩
    · exact Or.inl ⟨_, last, by simp [hpieces, hdot], rfl⟩

/-- Without `.`, a staging file has the components of its path with a longer last name, or with one
name more. -/
theorem normalized_staging {p : Path} (hne : p.text ≠ "") :
    (∃ front last, p.normalized = front ++ [componentOf last] ∧
        p.staging.normalized = front ++ [.name (stagingName last)]) ∨
      ∃ piece, (piece = [] ∨ piece = ['.']) ∧
        p.staging.normalized = p.normalized ++ [.name (stagingName piece)] := by
  rw [normalized_eq p.staging, normalized_eq p, isAbsolute_staging hne]
  rcases names_staging_cases p with ⟨front, last, hnames, hstaging⟩ | ⟨piece, hpiece, hstaging⟩
  · left
    refine ⟨(if p.isAbsolute then [.root] else []) ++ front.map componentOf, last, ?_, ?_⟩
    · simp [hnames]
    · simp [hstaging, componentOf_stagingName]
  · right
    refine ⟨piece, hpiece, ?_⟩
    simp [hstaging, componentOf_stagingName]

/-- A path that names a file has, without `.`, one or more names and nothing else. -/
theorem NamesFile.exists_names {p : Path} (h : p.NamesFile) :
    p.isAbsolute = false ∧ ∃ front last, p.normalized = (front ++ [last]).map .name := by
  obtain ⟨hinside, hne⟩ := MappingTable.namesFile_iff.1 h
  obtain ⟨hrelative, hup⟩ := staysInside_iff.1 hinside
  have hnormalized : p.normalized = p.names.map .name := by
    rw [normalized_eq, hrelative]
    refine List.map_congr_left fun name hname => ?_
    unfold componentOf
    rw [if_neg (ne_of_mem_of_not_mem hname hup)]
  have hnames : p.names ≠ [] := by
    intro hnil
    exact hne (by rw [hnormalized, hnil, List.map_nil])
  refine ⟨hrelative, p.names.dropLast, p.names.getLast hnames, ?_⟩
  rw [List.dropLast_concat_getLast, hnormalized]

end Path

/-! ## Targets -/

namespace Mapping

open Vendoring.Path

/-- The names of the staging file of a path that has the given names: the last one is longer, or
there is one more behind it. -/
inductive Staged (front : List Name) (last : Name) : List Name → Prop
  | longer : Staged front last (front ++ [stagingName last])
  | more {piece : Name} (hpiece : piece = [] ∨ piece = ['.']) :
      Staged front last (front ++ [last, stagingName piece])

/-- A staging file has other names than its file. -/
theorem Staged.ne {front names : List Name} {last : Name} (h : Staged front last names) :
    names ≠ front ++ [last] := by
  intro hsame
  have hlength := congrArg (fun names => names.flatten.length) hsame
  cases h with
  | longer => simp [stagingName, stagingEnding] at hlength
  | more hpiece => simp [stagingName, stagingEnding] at hlength

/-- Where the target of a mapping lies below a root, `.` not counted: it has the components of the
root and then the names of the destination. So has its staging file, with other names. -/
structure Nested (m : Mapping) (root : Path) (front : List Name) (last : Name) : Prop where
  destination : m.destination.normalized = (front ++ [last]).map .name
  target : (m.target root).normalized = root.normalized ++ (front ++ [last]).map .name
  staging : ∃ names, Staged front last names ∧
    (m.target root).staging.normalized = root.normalized ++ names.map .name
  apart : ¬ (m.target root).staging.Same (m.target root)

variable {m : Mapping} {root : Path} {front : List Name} {last : Name}

/-- The staging file of a target lies below the root with staged names. -/
theorem exists_staged
    (h : (m.target root).normalized = root.normalized ++ (front ++ [last]).map .name) :
    ∃ names, Staged front last names ∧
      (m.target root).staging.normalized = root.normalized ++ names.map .name := by
  have hne : (m.target root).text ≠ "" := by
    intro hempty
    have hnil : (m.target root).normalized = [] := by
      rw [normalized, components, hempty]
      rfl
    simp [h] at hnil
  rcases normalized_staging hne with ⟨above, other, hother, hlonger⟩ | ⟨piece, hpiece, hmore⟩
  · rw [h, List.map_append, List.map_singleton, ← List.append_assoc] at hother
    obtain ⟨rfl, hlast⟩ := List.append_inj' hother rfl
    obtain rfl : last = other := by
      unfold componentOf at hlast
      split at hlast
      · simp at hlast
      · simpa using hlast
    exact ⟨_, .longer, by simpa using hlonger⟩
  · exact ⟨_, .more hpiece, by simpa [h] using hmore⟩

/-- Every target lies below the root. -/
theorem exists_nested (h : m.destination.NamesFile) (root : Path) :
    ∃ front last, m.Nested root front last := by
  obtain ⟨hrelative, front, last, hdestination⟩ := h.exists_names
  have htarget : (m.target root).normalized = root.normalized ++ (front ++ [last]).map .name := by
    rw [target, normalized_join root hrelative, hdestination]
  have hstaging := exists_staged htarget
  refine ⟨front, last, hdestination, htarget, hstaging, ?_⟩
  intro hsame
  obtain ⟨names, hnames, hnormalized⟩ := hstaging
  rw [hsame.normalized, htarget, List.append_cancel_left_eq] at hnormalized
  exact hnames.ne (List.map_injective_iff.2 (fun _ _ => Component.name.inj) hnormalized).symm

end Mapping

namespace MappingTable

/-- Below any root the target of each mapping of a table has, `.` not counted, the components of the
root and then one or more names, those of the destination; no two targets have the same components.
So has its staging file, and that is not the target. -/
theorem targets_nested (table : MappingTable) (root : Path) :
    (∀ m ∈ table.toList, ∃ front last, m.Nested root front last) ∧
      table.toList.Pairwise fun m n => (m.target root).normalized ≠ (n.target root).normalized := by
  have haccepted := acceptable_iff.2 table.valid
  refine ⟨fun m hm => Mapping.exists_nested (haccepted.files m hm) root, ?_⟩
  refine haccepted.destinations.imp_of_mem ?_
  intro m n hm hn hapart hsame
  obtain ⟨front, last, hnested⟩ := Mapping.exists_nested (haccepted.files m hm) root
  obtain ⟨front', last', hnested'⟩ := Mapping.exists_nested (haccepted.files n hn) root
  rw [hnested.target, hnested'.target, List.append_cancel_left_eq] at hsame
  rw [hnested.destination, hnested'.destination] at hapart
  exact hapart hsame

/-- A table whose destinations end in a name, in a slash and in a `.` piece. -/
def spelledTable : MappingTable :=
  ⟨[⟨⟨"a"⟩, ⟨"./a"⟩⟩, ⟨⟨"b"⟩, ⟨"d//b/"⟩⟩, ⟨⟨"c"⟩, ⟨"d/c/."⟩⟩], by decide⟩

/-- The staging file lies beside the target, or beneath it if the destination does not end in a
name. -/
theorem targets_nested_sample :
    ⟨⟨"c"⟩, ⟨"d/c/."⟩⟩ ∈ spelledTable.toList ∧
      (∃ front last, (⟨⟨"c"⟩, ⟨"d/c/."⟩⟩ : Mapping).Nested ⟨"/w/./../e//"⟩ front last) ∧
      (Mapping.target ⟨⟨"a"⟩, ⟨"./a"⟩⟩ ⟨""⟩).staging.normalized = [.name "a.embedsync.tmp".toList] ∧
      (Mapping.target ⟨⟨"b"⟩, ⟨"d//b/"⟩⟩ ⟨"/"⟩).staging.normalized =
        [.root, .name ['d'], .name ['b'], .name ".embedsync.tmp".toList] ∧
      (Mapping.target ⟨⟨"c"⟩, ⟨"d/c/."⟩⟩ ⟨"/w/./../e//"⟩).staging.normalized =
        [.root, .name ['w'], .parent, .name ['e'], .name ['d'], .name ['c'],
          .name "..embedsync.tmp".toList] := by
  have hmem : ⟨⟨"c"⟩, ⟨"d/c/."⟩⟩ ∈ spelledTable.toList := by decide
  exact ⟨hmem, (targets_nested spelledTable ⟨"/w/./../e//"⟩).1 _ hmem, by decide, by decide, by decide⟩

end MappingTable

end Vendoring
