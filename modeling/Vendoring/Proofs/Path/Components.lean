import Vendoring.Proofs.Path.Spelling

/-!
# The components of joins and parents

Names say where a path leads; its components also tell a `.` in front. Joining puts one list of
components behind the other, where the second one loses its `.` unless there is nothing in front of
it (`components_join`). The parent has all components but the last (`components_parent?`), and a
path has one exactly if it has a component other than the root (`parent?_eq_none_iff`).
-/

namespace Vendoring.Path

/-- The components of a path other than the root. -/
def parts (p : Path) : List Component :=
  p.components.filter (· ≠ .root)

/-- The components of a path up to the given number, the root not counted. -/
def front (p : Path) (n : Nat) : List Component :=
  (if p.isAbsolute then [.root] else []) ++ p.parts.take n

/-! ## Parts -/

/-- A path has the root, if it is absolute, and its parts. -/
theorem components_eq_parts (p : Path) :
    p.components = (if p.isAbsolute then [.root] else []) ++ p.parts := by
  obtain ⟨head, hcomponents, hhead⟩ := components_eq p
  have hnames : (p.names.map componentOf).filter (· ≠ .root) = p.names.map componentOf := by
    rw [List.filter_eq_self]
    intro c hc
    obtain ⟨name, _, rfl⟩ := List.mem_map.1 hc
    simpa using (componentOf_ne name).2
  rw [parts, hcomponents, List.filter_append, hnames]
  rcases hhead with ⟨ha, rfl⟩ | ⟨ha, rfl | rfl⟩ <;> simp [ha]

/-- A path without components is written without characters. -/
theorem components_eq_nil_iff {p : Path} : p.components = [] ↔ p.text = "" := by
  constructor
  · intro h
    rw [← String.toList_eq_nil_iff]
    cases htext : p.text.toList with
    | nil => rfl
    | cons c s =>
        rw [components, htext] at h
        by_cases hc : c = '/'
        · subst hc
          rw [componentsOf_slash] at h
          simp at h
        · obtain ⟨piece, rest, hrest⟩ := List.exists_cons_of_ne_nil (splitAt_ne_nil '/' s)
          have hsplit : splitAt '/' (c :: s) = (c :: piece) :: rest := by
            rw [splitAt, if_neg hc, hrest]
          rw [componentsOf_of_splitAt hc hsplit (by simp)] at h
          simp at h
  · intro h
    rw [components, h]
    rfl

/-! ## Joining -/

/-- The normal form of a relative path is that of its pieces. -/
theorem normalized_eq_filterMap {q : Path} (hq : q.isAbsolute = false) :
    q.normalized = q.pieces.filterMap pieceComponent? := by
  rw [normalized_eq, hq, names_eq_filter, filterMap_pieceComponent?]
  rfl

/-- What stands behind the slash at the end of a text adds its components without `.`. -/
theorem componentsOf_append_of_slash (s t : List Char) :
    componentsOf (s ++ '/' :: t) =
      componentsOf (s ++ ['/']) ++ (piecesOf t).filterMap pieceComponent? := by
  by_cases hne : s = []
  · subst hne
    rw [List.nil_append, List.nil_append, componentsOf_slash, componentsOf_slash]
    simp
  · rw [componentsOf_append_slash hne, componentsOf_append_slash hne]
    simp

/-- A joined path has the components of its first part and then those of its second one, of which a
`.` in front is lost unless the first part is empty. -/
theorem components_join (p : Path) {q : Path} (hq : q.isAbsolute = false) :
    (p.join q).components =
      p.components ++ (if p.text = "" then q.components else q.normalized) := by
  by_cases hempty : p.text = ""
  · have hjoin : p.join q = q := by
      unfold join
      rw [if_neg (by simp [hq]), if_pos (by simp [hempty]), hempty, String.empty_append]
    rw [if_pos hempty, hjoin, components_eq_nil_iff.2 hempty, List.nil_append]
  · have hne : p.text.toList ≠ [] := fun h => hempty (String.toList_eq_nil_iff.1 h)
    rw [if_neg hempty, normalized_eq_filterMap hq, components, components, pieces]
    rcases toList_join (p := p) hq with ⟨htext, hp⟩ | htext
    · obtain ⟨above, habove⟩ := List.getLast?_eq_some_iff.1
        (show p.text.toList.getLast? = some '/' by simpa [endsInSlash] using hp.resolve_left hempty)
      rw [htext, habove, List.append_assoc]
      exact componentsOf_append_of_slash above q.text.toList
    · rw [htext, componentsOf_append_slash hne]

/-! ## Parents -/

/-- A path begins with a `.` exactly if this is what is split off its text. -/
theorem dotted_iff_splitHead (p : Path) : p.Dotted ↔ (splitHead p.text.toList).1 = ['.'] := by
  unfold Dotted
  rcases splitHead_cases p.text.toList with ⟨body, htext, hs⟩ | ⟨body, htext, hs, hbody⟩ | ⟨hs, -⟩
  · rw [hs, htext]
    simp
  · rw [hs, htext]
    rcases hbody with rfl | ⟨rest, rfl⟩ <;> simp
  · rw [hs]
    refine iff_of_false ?_ (by simp)
    rintro (htext | ⟨t, htext⟩)
    · rw [htext] at hs
      simp [splitHead] at hs
    · rw [← htext] at hs
      simp [splitHead] at hs

/-- The parts of a path are its names, behind a `.` if it begins with one. -/
theorem parts_eq (p : Path) :
    p.parts = (if (splitHead p.text.toList).1 = ['.'] then [.current] else []) ++
      p.names.map componentOf := by
  have hdotted : (splitHead p.text.toList).1 = ['.'] ↔ p.components.head? = some .current := by
    rw [← dotted_iff, dotted_iff_splitHead]
  obtain ⟨head, hcomponents, hhead⟩ := components_eq p
  have hcurrent : (p.names.map componentOf).head? ≠ some .current := by
    intro h
    obtain ⟨name, _, hname⟩ := List.mem_map.1 (List.mem_of_head? h)
    exact (componentOf_ne name).1 hname
  have hparts := components_eq_parts p
  rw [hcomponents] at hparts hdotted
  rcases hhead with ⟨ha, rfl⟩ | ⟨ha, rfl | rfl⟩
  · rw [if_neg (by simp [hdotted])]
    simpa [ha] using hparts.symm
  · rw [if_neg fun h => hcurrent (hdotted.1 h)]
    simpa [ha] using hparts.symm
  · rw [if_pos (hdotted.2 rfl)]
    simpa [ha] using hparts.symm

/-- A path without names has a parent only if it is written with a `.`, and that is the empty
path. -/
theorem parent?_of_names_nil {p : Path} (h : p.names = []) :
    p.parent? = if (splitHead p.text.toList).1 = ['.'] then some ⟨""⟩ else none := by
  have htrimmed : trimReversed (splitHead p.text.toList).2.reverse = [] := by
    obtain hnil | ⟨hne, hdot⟩ := trimReversed_cases (splitHead p.text.toList).2.reverse
    · exact hnil
    · rw [names_eq_trimmed, (namesOf_reverse_of_name hne hdot).1] at h
      simp at h
  simp only [parent?, htrimmed]

/-- The parent of a path with names is what is split off the text and a front of the rest that does
not end in a slash or a `.` piece. -/
theorem parent?_of_names {p above : Path} (hnames : p.names ≠ []) (h : p.parent? = some above) :
    ∃ r, (trimReversed r).reverse <+: (splitHead p.text.toList).2 ∧
      above.text.toList = (splitHead p.text.toList).1 ++ (trimReversed r).reverse := by
  simp only [parent?] at h
  split at h
  · rename_i hbody
    rw [names_eq_trimmed, hbody] at hnames
    exact absurd rfl hnames
  · rename_i last rest hbody
    obtain rfl := Option.some.inj h
    refine ⟨_, ?_, String.toList_ofList⟩
    have hbelow := (trimReversed_suffix _).trans (dropWhile_trimReversed_suffix hbody)
    simpa using hbelow.reverse

/-- The parent of a path with names begins with a `.` exactly if the path does. -/
theorem dotted_parent? {p above : Path} (hnames : p.names ≠ []) (h : p.parent? = some above) :
    above.Dotted ↔ p.Dotted := by
  obtain ⟨r, hfront, htext⟩ := parent?_of_names hnames h
  rw [dotted_iff_splitHead p]
  unfold Dotted
  rw [htext]
  rcases splitHead_cases p.text.toList with ⟨body, _, hs⟩ | ⟨body, hp, hs, hbody⟩ | ⟨hs, _⟩ <;>
    rw [hs] at hfront ⊢
  · simp
  · refine iff_of_true ?_ rfl
    cases hcut : (trimReversed r).reverse with
    | nil => exact Or.inl rfl
    | cons c front =>
        obtain ⟨rest, hrest⟩ := hfront
        rw [hcut] at hrest
        rcases hbody with rfl | ⟨below, rfl⟩
        · simp at hrest
        · obtain ⟨rfl, -⟩ := List.cons.inj hrest
          exact Or.inr ⟨front, rfl⟩
  · refine iff_of_false ?_ (by simp)
    rintro (hdot | hdot)
    -- what is left of the text does not end in a `.` piece
    · have hr : trimReversed r = ['.'] := by simpa using congrArg List.reverse hdot
      rcases trimReversed_cases r with hnil | ⟨-, hne⟩
      · simp [hnil] at hr
      · exact hne (by rw [hr]; rfl)
    · have hp : p.Dotted := Or.inr ((hdot.trans (by simpa using hfront)))
      rw [dotted_iff_splitHead, hs] at hp
      simp at hp

/-- A path has no parent exactly if it has no components other than the root. -/
theorem parent?_eq_none_iff {p : Path} : p.parent? = none ↔ p.parts = [] := by
  by_cases hnames : p.names = []
  · rw [parent?_of_names_nil hnames, parts_eq, hnames]
    by_cases hdot : (splitHead p.text.toList).1 = ['.'] <;> simp [hdot]
  · obtain ⟨above, habove⟩ := exists_parent? hnames
    simp [habove, parts_eq, hnames]

/-- The parent of a path has all of its parts but the last one. -/
theorem parts_parent? {p above : Path} (h : p.parent? = some above) :
    above.parts = p.parts.dropLast := by
  by_cases hnames : p.names = []
  · rw [parent?_of_names_nil hnames] at h
    split at h
    · rename_i hdot
      obtain rfl := Option.some.inj h
      rw [parts_eq p, hnames, if_pos hdot]
      rfl
    · simp at h
  · have hmap : p.names.map componentOf ≠ [] := by simpa using hnames
    have hdotted := dotted_parent? hnames h
    rw [dotted_iff_splitHead, dotted_iff_splitHead] at hdotted
    rw [parts_eq, parts_eq, (parent?_eq_some h).1, List.dropLast_append_of_ne_nil hmap,
      List.map_dropLast]
    simp only [hdotted]

/-- The parent of a path starts where the path does and has all of its components but the last
one. -/
theorem components_parent? {p above : Path} (h : p.parent? = some above) :
    above.isAbsolute = p.isAbsolute ∧ above.components = p.components.dropLast := by
  have habsolute := (parent?_eq_some h).2.1
  have hparts : p.parts ≠ [] := fun hnil => by simp [parent?_eq_none_iff.2 hnil] at h
  refine ⟨habsolute, ?_⟩
  rw [components_eq_parts, components_eq_parts, habsolute, parts_parent? h,
    List.dropLast_append_of_ne_nil hparts]

end Vendoring.Path
