import Mathlib.Data.List.Nodup
import Vendoring.Proofs.Mapping.Validation
import Vendoring.Proofs.Path.Spelling

/-!
# Looking up mappings

A table is searched from the front for paths with the same components, while its check compares
paths with `.` dropped. The check is the coarser of the two, so at most one mapping has a source or
a destination with given components (`eq_of_source_same`, `eq_of_destination_same`), and a search
finds it however the path is spelled (`lookup_coherent`).
-/

namespace Vendoring

/-- Paths with the same components are the same once `.` is dropped. -/
theorem Path.Same.normalized {p q : Path} (h : p.Same q) : p.normalized = q.normalized := by
  unfold Path.normalized
  rw [h]

namespace MappingTable

variable {table : MappingTable} {m n : Mapping}

/-! ## At most one mapping -/

/-- Mappings of a table with the same source are the same. -/
theorem eq_of_source_same (hm : m ∈ table.toList) (hn : n ∈ table.toList)
    (h : m.source.Same n.source) : m = n := by
  have hsources : (table.toList.map (·.source.normalized)).Nodup :=
    List.pairwise_map.2 (acceptable_iff.2 table.valid).sources
  exact List.inj_on_of_nodup_map hsources hm hn h.normalized

/-- Mappings of a table with the same destination are the same. -/
theorem eq_of_destination_same (hm : m ∈ table.toList) (hn : n ∈ table.toList)
    (h : m.destination.Same n.destination) : m = n := by
  have hdestinations : (table.toList.map (·.destination.normalized)).Nodup :=
    List.pairwise_map.2 (acceptable_iff.2 table.valid).destinations
  exact List.inj_on_of_nodup_map hdestinations hm hn h.normalized

/-! ## Searches -/

/-- A search finds nothing just if no source has the components of the path. -/
theorem get?_eq_none_iff {p : Path} :
    table.get? p = none ↔ ∀ m ∈ table.toList, ¬ m.source.Same p := by
  unfold get?
  rw [List.find?_eq_none]
  simp only [decide_eq_true_eq]
  rfl

/-- A search finds the one mapping whose source has the components of the path. -/
theorem get?_eq_some_iff {p : Path} :
    table.get? p = some m ↔ m ∈ table.toList ∧ m.source.Same p := by
  constructor
  · intro h
    exact ⟨List.mem_of_find?_eq_some h, by simpa using List.find?_some h⟩
  · rintro ⟨hm, hsame⟩
    cases hfound : table.get? p with
    | none => exact absurd hsame (get?_eq_none_iff.1 hfound m hm)
    | some n =>
        have hn : n ∈ table.toList := List.mem_of_find?_eq_some hfound
        have hother : n.source.Same p := by simpa using List.find?_some hfound
        rw [eq_of_source_same hn hm (hother.trans hsame.symm)]

/-- A path goes to the destination of the mapping whose source has its components. -/
theorem destinationOf?_eq_some_iff {u d : Path} :
    table.destinationOf? u = some d ↔
      ∃ m ∈ table.toList, m.source.Same u ∧ m.destination = d := by
  unfold destinationOf?
  simp only [Option.map_eq_some_iff, get?_eq_some_iff, and_assoc]

/-- A path is a destination just if a mapping has one with its components. -/
theorem hasDestination_iff {d : Path} :
    table.hasDestination d = true ↔ ∃ m ∈ table.toList, m.destination.Same d := by
  unfold hasDestination
  simp only [List.any_eq_true, decide_eq_true_eq]
  rfl

/-- Every table finds each of its mappings by its source, and by any path exactly the mapping whose
source has the same components. Sources that go to the same place are the same, and a table has
exactly the destinations that it finds. Paths are the same here if their texts differ by slashes and
`.` that say nothing, to which a `.` in front does not belong. -/
theorem lookup_coherent (table : MappingTable) :
    (∀ m ∈ table.toList, table.get? m.source = some m) ∧
    (∀ p m, table.get? p = some m ↔ m ∈ table.toList ∧ m.source.Same p) ∧
    (∀ p, table.get? p = none ↔ ∀ m ∈ table.toList, ¬ m.source.Same p) ∧
    (∀ u v d e, table.destinationOf? u = some d → table.destinationOf? v = some e → d.Same e →
      u.Same v) ∧
    (∀ d, table.hasDestination d = true ↔ ∃ u e, table.destinationOf? u = some e ∧ d.Same e) ∧
    (∀ p q : Path, p.Same q ↔ Relation.EqvGen Path.Simpler p.text.toList q.text.toList) ∧
    (∀ p q : Path, p.Same q → (p.Dotted ↔ q.Dotted)) := by
  refine ⟨?_, fun p m => get?_eq_some_iff, fun p => get?_eq_none_iff, ?_, ?_,
    fun p q => Path.same_iff_eqvGen, fun p q => Path.Same.dotted_iff⟩
  · intro m hm
    exact get?_eq_some_iff.2 ⟨hm, rfl⟩
  · intro u v d e hu hv hsame
    obtain ⟨m, hm, hsource, rfl⟩ := destinationOf?_eq_some_iff.1 hu
    obtain ⟨n, hn, hother, rfl⟩ := destinationOf?_eq_some_iff.1 hv
    obtain rfl := eq_of_destination_same hm hn hsame
    exact hsource.symm.trans hother
  · intro d
    rw [hasDestination_iff]
    constructor
    · rintro ⟨m, hm, hsame⟩
      exact ⟨m.source, m.destination, destinationOf?_eq_some_iff.2 ⟨m, hm, rfl, rfl⟩, hsame.symm⟩
    · rintro ⟨u, e, hu, hsame⟩
      obtain ⟨m, hm, -, rfl⟩ := destinationOf?_eq_some_iff.1 hu
      exact ⟨m, hm, hsame.symm⟩

/-- Slashes and `.` behind a name do not matter, and a `.` in front does. -/
example : builtin.destinationOf? ⟨"core//./sync.cpp/."⟩ = some ⟨"core/sync.cpp"⟩ ∧
    builtin.destinationOf? ⟨"./core/sync.cpp"⟩ = none := by
  decide +kernel

end MappingTable

end Vendoring
