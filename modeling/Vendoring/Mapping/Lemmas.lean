import Vendoring.Mapping

/-!
# When a list of mappings is a table

`firstFault?` finds nothing exactly if every mapping is sound by itself and no two of them collide
(`firstFault?_eq_none_iff`).
-/

namespace Vendoring

namespace Mapping

/-- A mapping without empty paths whose destination names a file inside the root. -/
def Sound (m : Mapping) : Prop :=
  m.source.text ≠ "" ∧ m.destination.text ≠ "" ∧ m.destination.staysInside = true ∧
    m.destination.normalized ≠ []

/-- Two mappings that share neither source nor destination. -/
def Apart (m n : Mapping) : Prop :=
  m.source.normalized ≠ n.source.normalized ∧
    m.destination.normalized ≠ n.destination.normalized

end Mapping

namespace MappingTable

/-- A mapping has no fault if it is sound and apart from all before it. -/
theorem fault?_eq_none_iff {earlier : List Mapping} {index : Nat} {m : Mapping} :
    fault? earlier index m = none ↔ m.Sound ∧ ∀ e ∈ earlier, e.Apart m := by
  unfold fault? Mapping.Sound Mapping.Apart
  by_cases hempty : m.source.text = "" ∨ m.destination.text = ""
  · simp only [hempty, if_true]
    constructor
    · simp
    · rintro ⟨⟨h1, h2, -⟩, -⟩
      rcases hempty with h | h <;> contradiction
  rw [if_neg hempty]
  rw [not_or] at hempty
  by_cases hinside : m.destination.staysInside = false
  · simp [hinside]
  rw [if_neg hinside]
  by_cases hroot : m.destination.normalized = []
  · simp [hroot]
  rw [if_neg hroot]
  by_cases hsource : earlier.any (·.source.normalized = m.source.normalized)
  · simp only [hsource, if_true]
    constructor
    · simp
    · rintro ⟨-, h⟩
      obtain ⟨e, he, heq⟩ := List.any_eq_true.1 hsource
      exact absurd (of_decide_eq_true heq) (h e he).1
  rw [if_neg hsource]
  have hsource' : ∀ e ∈ earlier, e.source.normalized ≠ m.source.normalized := by
    intro e he heq
    exact hsource (List.any_eq_true.2 ⟨e, he, decide_eq_true heq⟩)
  cases hfind : earlier.find? (·.destination.normalized = m.destination.normalized) with
  | some first =>
    constructor
    · simp
    · rintro ⟨-, h⟩
      have hmem := List.mem_of_find?_eq_some hfind
      have heq := List.find?_some hfind
      exact absurd (of_decide_eq_true heq) (h first hmem).2
  | none =>
    have hdest : ∀ e ∈ earlier, e.destination.normalized ≠ m.destination.normalized := by
      intro e he heq
      have := List.find?_eq_none.1 hfind e he
      exact this (decide_eq_true heq)
    refine ⟨fun _ => ⟨⟨hempty.1, hempty.2, ?_, hroot⟩, fun e he => ⟨hsource' e he, hdest e he⟩⟩,
      fun _ => rfl⟩
    cases h : m.destination.staysInside
    · exact absurd h hinside
    · rfl

/-- Behind given mappings a list has no fault if its members are sound, apart from one another and
apart from the given ones. -/
theorem firstFaultFrom_eq_none_iff {earlier rest : List Mapping} :
    firstFaultFrom earlier rest = none ↔
      (∀ m ∈ rest, m.Sound) ∧ rest.Pairwise Mapping.Apart ∧
        ∀ e ∈ earlier, ∀ m ∈ rest, e.Apart m := by
  induction rest generalizing earlier with
  | nil => simp [firstFaultFrom]
  | cons m rest ih =>
    rw [firstFaultFrom]
    cases h : fault? earlier earlier.length m with
    | some fault =>
      constructor
      · simp
      · rintro ⟨hs, -, ha⟩
        have hnone : fault? earlier earlier.length m = none := fault?_eq_none_iff.2
          ⟨hs m (by simp), fun e he => ha e he m (by simp)⟩
        rw [h] at hnone
        simp at hnone
    | none =>
      obtain ⟨hsound, hapart⟩ := fault?_eq_none_iff.1 h
      rw [ih]
      constructor
      · rintro ⟨hs, hp, ha⟩
        refine ⟨?_, ?_, ?_⟩
        · intro n hn
          rcases List.mem_cons.1 hn with rfl | hn
          · exact hsound
          · exact hs n hn
        · exact List.pairwise_cons.2 ⟨fun n hn => ha m (by simp) n hn, hp⟩
        · intro e he n hn
          rcases List.mem_cons.1 hn with rfl | hn
          · exact hapart e he
          · exact ha e (List.mem_append_left _ he) n hn
      · rintro ⟨hs, hp, ha⟩
        obtain ⟨hm, hp⟩ := List.pairwise_cons.1 hp
        refine ⟨fun n hn => hs n (List.mem_cons_of_mem _ hn), hp, ?_⟩
        intro e he n hn
        rcases List.mem_append.1 he with he | he
        · exact ha e he n (List.mem_cons_of_mem _ hn)
        · rw [List.mem_singleton.1 he]
          exact hm n hn

/-- A list has no fault if its members are sound and apart from one another. -/
theorem firstFault?_eq_none_iff {entries : List Mapping} :
    firstFault? entries = none ↔ (∀ m ∈ entries, m.Sound) ∧ entries.Pairwise Mapping.Apart := by
  simp [firstFault?, firstFaultFrom_eq_none_iff]

/-- A list has no fault if the components of its paths are names only, at least one for each path,
and no two sources and no two destinations have the same ones without `.`. The components are given,
so the texts need to be read only once. -/
theorem firstFault?_eq_none_of_components {entries : List Mapping}
    {parts : List (List Component × List Component)}
    (hparts : entries.map (fun m => (m.source.components, m.destination.components)) = parts)
    (hnames : ∀ p ∈ parts, p.1 ≠ [] ∧ p.2 ≠ [] ∧
      p.2.all (fun | .name _ => true | _ => false) = true)
    (hapart : parts.Pairwise fun p q =>
      p.1.filter (· ≠ .current) ≠ q.1.filter (· ≠ .current) ∧
        p.2.filter (· ≠ .current) ≠ q.2.filter (· ≠ .current)) :
    firstFault? entries = none := by
  subst hparts
  rw [firstFault?_eq_none_iff]
  constructor
  · intro m hm
    obtain ⟨h1, h2, hall⟩ := hnames _ (List.mem_map_of_mem hm)
    have hcomponents : ∀ p : Path, p.text = "" → p.components = [] := by
      intro p hp
      simp [Path.components, Path.componentsOf, Path.piecesOf, Path.splitAt, hp]
    rw [List.all_eq_true] at hall
    refine ⟨fun h => h1 (hcomponents _ h), fun h => h2 (hcomponents _ h), ?_, ?_⟩
    · rw [Path.staysInside, List.all_eq_true]
      intro c hc
      have := hall c hc
      cases c <;> simp_all
    · intro hnil
      obtain ⟨c, cs, hc⟩ := List.exists_cons_of_ne_nil h2
      have hmem : c ∈ m.destination.components := by
        rw [show m.destination.components = c :: cs from hc]
        simp
      have hname := hall c hmem
      have : c ∈ m.destination.normalized := by
        rw [Path.normalized, List.mem_filter]
        refine ⟨hmem, ?_⟩
        cases c <;> simp_all
      rw [hnil] at this
      simp at this
  · rw [List.pairwise_map] at hapart
    exact hapart

end MappingTable

end Vendoring
