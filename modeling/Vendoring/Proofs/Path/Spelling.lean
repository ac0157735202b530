import Mathlib.Logic.Relation
import Vendoring.Proofs.Path.Names

/-!
# Spellings of a path

Paths are the same if their components are. A slash behind a slash, a `.` behind one and a slash at
the end say nothing, and a text that loses one of them becomes simpler (`Simpler`). Step by step
every text becomes the one that is written from its components (`simpler_written`), so two paths are
the same exactly if these steps, forwards and backwards, lead from one text to the other
(`same_iff_eqvGen`). A `.` in front is not lost on the way (`Same.dotted_iff`).
-/

namespace Vendoring.Path

/-- The second text is the first one without a slash or a `.` that says nothing. -/
inductive Simpler : List Char → List Char → Prop
  | slash (s t : List Char) : Simpler (s ++ '/' :: '/' :: t) (s ++ '/' :: t)
  | dot (s t : List Char) : Simpler (s ++ '/' :: '.' :: '/' :: t) (s ++ '/' :: t)
  | lastDot (s : List Char) : Simpler (s ++ ['/', '.']) (s ++ ['/'])
  | lastSlash {s : List Char} (hne : s ≠ []) : Simpler (s ++ ['/']) s

/-- A path that is written with a `.` in front. -/
def Dotted (p : Path) : Prop :=
  p.text.toList = ['.'] ∨ ['.', '/'] <+: p.text.toList

/-- The word for a component between slashes. -/
def word : Component → Name
  | .root => []
  | .current => ['.']
  | .parent => ['.', '.']
  | .name name => name

/-- Words with a slash in front of each. -/
def behindSlashes (words : List Name) : List Char :=
  words.flatMap ('/' :: ·)

/-- The text that is written from components. -/
def written : List Component → List Char
  | [] => []
  | [.root] => ['/']
  | c :: cs => word c ++ behindSlashes (cs.map word)

/-! ## Steps keep the components -/

/-- A text that does not begin with a slash has a piece. -/
theorem piecesOf_cons_ne_nil {c : Char} (hc : c ≠ '/') (s : List Char) : piecesOf (c :: s) ≠ [] := by
  obtain ⟨piece, pieces, hs⟩ := List.exists_cons_of_ne_nil (splitAt_ne_nil '/' s)
  simp [piecesOf, splitAt, hc, hs]

/-- What stands behind a slash adds its components, a `.` in front of it not counted. -/
theorem componentsOf_append_slash {s : List Char} (hne : s ≠ []) (t : List Char) :
    componentsOf (s ++ '/' :: t) = componentsOf s ++ (piecesOf t).filterMap pieceComponent? := by
  obtain ⟨c, s, rfl⟩ := List.exists_cons_of_ne_nil hne
  have hpieces : piecesOf (c :: (s ++ '/' :: t)) = piecesOf (c :: s) ++ piecesOf t :=
    piecesOf_append_slash (c :: s) t
  rw [List.cons_append]
  by_cases hc : c = '/'
  · subst hc
    show Component.root :: (piecesOf _).filterMap pieceComponent? = Component.root :: _ ++ _
    rw [hpieces, List.filterMap_append, List.cons_append]
  · obtain ⟨first, rest, hfirst⟩ := List.exists_cons_of_ne_nil (piecesOf_cons_ne_nil hc s)
    rw [componentsOf_cons hc, componentsOf_cons hc, hpieces, List.filterMap_append, hfirst]
    by_cases hdot : first = ['.'] <;> simp [hdot]

/-- A text that begins with a slash has the root and then the components of the pieces behind it. -/
theorem componentsOf_slash (t : List Char) :
    componentsOf ('/' :: t) = .root :: (piecesOf t).filterMap pieceComponent? := by
  show Component.root :: (piecesOf ('/' :: t)).filterMap pieceComponent? = _
  rw [piecesOf_slash]

/-- Behind a slash only the components of the rest count. -/
theorem componentsOf_congr (s : List Char) {t t' : List Char}
    (h : (piecesOf t).filterMap pieceComponent? = (piecesOf t').filterMap pieceComponent?) :
    componentsOf (s ++ '/' :: t) = componentsOf (s ++ '/' :: t') := by
  by_cases hne : s = []
  · subst hne
    rw [List.nil_append, List.nil_append, componentsOf_slash, componentsOf_slash, h]
  · rw [componentsOf_append_slash hne, componentsOf_append_slash hne, h]

/-- A step keeps the components. -/
theorem Simpler.componentsOf_eq {s t : List Char} (h : Simpler s t) :
    componentsOf s = componentsOf t := by
  cases h with
  | slash s t => exact componentsOf_congr s (by rw [piecesOf_slash])
  | dot s t =>
      refine componentsOf_congr s ?_
      rw [piecesOf_dot_slash]
      rfl
  | lastDot s => exact componentsOf_congr s (by decide)
  | lastSlash hne =>
      rw [componentsOf_append_slash hne, piecesOf_nil]
      simp

/-! ## Steps lead to the text of the components -/

/-- Whether a piece counts behind a slash. -/
def counts (piece : Name) : Bool :=
  piece ≠ [] && piece ≠ ['.']

/-- A text is the piece in front of its first slash, and the other ones behind slashes. -/
theorem eq_append_behindSlashes {s first : List Char} {rest : List Name}
    (h : splitAt '/' s = first :: rest) : s = first ++ behindSlashes rest := by
  induction s generalizing first rest with
  | nil =>
      obtain ⟨rfl, rfl⟩ := List.cons.inj h
      rfl
  | cons c s ih =>
      obtain ⟨piece, pieces, hs⟩ := List.exists_cons_of_ne_nil (splitAt_ne_nil '/' s)
      have hsplit := ih hs
      by_cases hc : c = '/'
      · rw [splitAt, if_pos hc] at h
        obtain ⟨rfl, rfl⟩ := List.cons.inj h
        rw [hs, hc]
        show '/' :: s = '/' :: piece ++ behindSlashes pieces
        rw [List.cons_append, ← hsplit]
      · rw [splitAt, if_neg hc, hs] at h
        obtain ⟨rfl, rfl⟩ := List.cons.inj h
        rw [List.cons_append, ← hsplit]

/-- A piece that does not count behind a slash is empty or `.`. -/
theorem eq_of_not_counts {piece : Name} (h : ¬ counts piece = true) : piece = [] ∨ piece = ['.'] := by
  by_cases hne : piece = []
  · exact Or.inl hne
  · exact Or.inr (by simpa [counts, hne] using h)

/-- A piece that does not count is lost together with its slash, in front of another piece. -/
theorem simpler_of_not_counts {piece : Name} (h : ¬ counts piece = true) (s : List Char) (next : Name)
    (pieces : List Name) :
    Simpler (s ++ behindSlashes (piece :: next :: pieces)) (s ++ behindSlashes (next :: pieces)) := by
  rcases eq_of_not_counts h with rfl | rfl
  · exact .slash s (next ++ behindSlashes pieces)
  · exact .dot s (next ++ behindSlashes pieces)

/-- The pieces that say nothing behind a text that is not empty are lost. -/
theorem simpler_behind {s : List Char} (hne : s ≠ []) (pieces : List Name) :
    Relation.ReflTransGen Simpler (s ++ behindSlashes pieces)
      (s ++ behindSlashes (pieces.filter counts)) := by
  induction pieces generalizing s with
  | nil => exact .refl
  | cons piece pieces ih =>
      by_cases hcounts : counts piece = true
      · rw [List.filter_cons_of_pos hcounts]
        have hkept := ih (s := s ++ '/' :: piece) (by simp)
        simpa [behindSlashes] using hkept
      · rw [List.filter_cons_of_neg hcounts]
        refine Relation.ReflTransGen.trans ?_ (ih hne)
        cases pieces with
        | cons next pieces => exact .single (simpler_of_not_counts hcounts s next pieces)
        | nil =>
            have hend : Simpler (s ++ ['/']) (s ++ behindSlashes []) := by
              simpa [behindSlashes] using Simpler.lastSlash hne
            rcases eq_of_not_counts hcounts with rfl | rfl
            · exact .single hend
            · exact .head (.lastDot s) (.single hend)

/-- The pieces that say nothing behind the root are lost, up to the slash of the root itself. -/
theorem simpler_root (pieces : List Name) (hne : pieces ≠ []) :
    Relation.ReflTransGen Simpler (behindSlashes pieces)
      (if pieces.filter counts = [] then ['/'] else behindSlashes (pieces.filter counts)) := by
  induction pieces with
  | nil => exact absurd rfl hne
  | cons piece pieces ih =>
      by_cases hcounts : counts piece = true
      · rw [List.filter_cons_of_pos hcounts, if_neg (by simp)]
        exact simpler_behind (s := '/' :: piece) (by simp) pieces
      · rw [List.filter_cons_of_neg hcounts]
        cases pieces with
        | cons next pieces =>
            exact .head (simpler_of_not_counts hcounts [] next pieces) (ih (by simp))
        | nil =>
            rcases eq_of_not_counts hcounts with rfl | rfl
            · exact .refl
            · exact .single (.lastDot [])

/-- The word for the component of a name is the name. -/
theorem word_componentOf (name : Name) : word (componentOf name) = name := by
  unfold componentOf
  split
  · rename_i hup
    exact hup.symm
  · rfl

/-- The words of the components behind the first place are the pieces that say something. -/
theorem map_word_filterMap (pieces : List Name) :
    ((pieces.filter (· ≠ [])).filterMap pieceComponent?).map word = pieces.filter counts := by
  rw [filterMap_pieceComponent?, List.map_map, List.filter_filter]
  have hword : word ∘ componentOf = id := funext word_componentOf
  rw [hword, List.map_id]
  refine List.filter_congr ?_
  intro piece _
  simp [counts, Bool.and_comm]

/-- Behind the root all words stand behind slashes; alone it is a slash. -/
theorem written_root (cs : List Component) :
    written (.root :: cs) = if cs.map word = [] then ['/'] else behindSlashes (cs.map word) := by
  cases cs <;> rfl

/-- Without the root the first word has no slash in front of it. -/
theorem written_cons {c : Component} (hc : c ≠ .root) (cs : List Component) :
    written (c :: cs) = word c ++ behindSlashes (cs.map word) := by
  cases cs with
  | nil => cases c <;> first | rfl | exact absurd rfl hc
  | cons d cs => cases c <;> rfl

/-- The component of the first piece of a relative text, which counts even if it is `.`. -/
def firstComponent (piece : Name) : Component :=
  if piece = ['.'] then .current else componentOf piece

/-- The first piece is not the root. -/
theorem firstComponent_ne_root (piece : Name) : firstComponent piece ≠ .root := by
  unfold firstComponent
  split
  · simp
  · exact (componentOf_ne piece).2

/-- The word for the component of the first piece is the piece. -/
theorem word_firstComponent (piece : Name) : word (firstComponent piece) = piece := by
  unfold firstComponent
  split
  · rename_i hdot
    exact hdot.symm
  · exact word_componentOf piece

/-- A relative text has the component of its first piece, and behind it those of the pieces that
count. -/
theorem componentsOf_of_splitAt {c : Char} (hc : c ≠ '/') {s first : List Char} {rest : List Name}
    (h : splitAt '/' (c :: s) = first :: rest) (hne : first ≠ []) :
    componentsOf (c :: s) =
      firstComponent first :: (rest.filter (· ≠ [])).filterMap pieceComponent? := by
  rw [componentsOf_cons hc, piecesOf, h, List.filter_cons_of_pos (by simpa using hne)]
  by_cases hdot : first = ['.']
  · simp [hdot, firstComponent, pieceComponent?]
  · by_cases hup : first = ['.', '.'] <;>
      simp [firstComponent, componentOf, pieceComponent?, hdot, hup]

/-- Every text becomes the one that is written from its components. -/
theorem simpler_written (s : List Char) :
    Relation.ReflTransGen Simpler s (written (componentsOf s)) := by
  cases s with
  | nil => exact .refl
  | cons c s =>
      by_cases hc : c = '/'
      · subst hc
        obtain ⟨first, rest, hsplit⟩ := List.exists_cons_of_ne_nil (splitAt_ne_nil '/' s)
        have hs : '/' :: s = behindSlashes (first :: rest) :=
          congrArg ('/' :: ·) (eq_append_behindSlashes hsplit)
        rw [componentsOf_slash, written_root, piecesOf, map_word_filterMap, hsplit, hs]
        exact simpler_root (first :: rest) (by simp)
      · obtain ⟨piece, rest, hrest⟩ := List.exists_cons_of_ne_nil (splitAt_ne_nil '/' s)
        have hsplit : splitAt '/' (c :: s) = (c :: piece) :: rest := by
          rw [splitAt, if_neg hc, hrest]
        rw [componentsOf_of_splitAt hc hsplit (by simp), written_cons (firstComponent_ne_root _),
          word_firstComponent, map_word_filterMap, eq_append_behindSlashes hsplit]
        exact simpler_behind (by simp) rest

/-! ## When two paths are the same -/

/-- Every text comes from the one that is written from its components by steps in either
direction. -/
theorem eqvGen_written (s : List Char) :
    Relation.EqvGen Simpler s (written (componentsOf s)) :=
  Relation.reflTransGen_le_of_equivalence_of_le (Relation.EqvGen.is_equivalence Simpler)
    (fun _ _ hstep => .rel _ _ hstep) _ _ (simpler_written s)

/-- Paths are the same exactly if one text becomes the other by losing and gaining what says
nothing. -/
theorem same_iff_eqvGen {p q : Path} :
    p.Same q ↔ Relation.EqvGen Simpler p.text.toList q.text.toList := by
  constructor
  · intro h
    have hp := eqvGen_written p.text.toList
    rw [show componentsOf p.text.toList = componentsOf q.text.toList from h] at hp
    exact .trans _ _ _ hp (.symm _ _ (eqvGen_written q.text.toList))
  · intro h
    have hkept : Equivalence fun s t : List Char => componentsOf s = componentsOf t :=
      ⟨fun _ => rfl, Eq.symm, Eq.trans⟩
    exact hkept.eqvGen_iff.1 (h.mono fun _ _ hstep => hstep.componentsOf_eq)

/-- A path begins with the component `.` exactly if it is written with a dot in front. -/
theorem dotted_iff (p : Path) : p.Dotted ↔ p.components.head? = some .current := by
  unfold Dotted components
  cases p.text.toList with
  | nil => simp [componentsOf, piecesOf_nil]
  | cons c s =>
      by_cases hc : c = '/'
      · subst hc
        rw [componentsOf_slash]
        simp
      · obtain ⟨piece, rest, hrest⟩ := List.exists_cons_of_ne_nil (splitAt_ne_nil '/' s)
        have hsplit : splitAt '/' (c :: s) = (c :: piece) :: rest := by
          rw [splitAt, if_neg hc, hrest]
        have hfirst : firstComponent (c :: piece) = .current ↔ c = '.' ∧ piece = [] := by
          by_cases hdot : c :: piece = ['.'] <;>
            simp_all [firstComponent, (componentOf_ne (c :: piece)).1]
        rw [componentsOf_of_splitAt hc hsplit (by simp), List.head?_cons, Option.some.injEq, hfirst]
        constructor
        · rintro (hdot | hdot)
          · obtain ⟨rfl, rfl⟩ := List.cons.inj hdot
            exact ⟨rfl, (List.cons.inj hrest).1.symm⟩
          · obtain ⟨rfl, t, rfl⟩ := List.cons_prefix_cons.1 hdot
            exact ⟨rfl, (List.cons.inj hrest).1.symm⟩
        · rintro ⟨rfl, rfl⟩
          rw [eq_append_behindSlashes hrest]
          cases rest with
          | nil => exact Or.inl rfl
          | cons next rest => exact Or.inr ⟨next ++ behindSlashes rest, rfl⟩

/-- A `.` in front is part of what a path says. -/
theorem Same.dotted_iff {p q : Path} (h : p.Same q) : p.Dotted ↔ q.Dotted := by
  rw [Path.dotted_iff, Path.dotted_iff, show p.components = q.components from h]

end Vendoring.Path
