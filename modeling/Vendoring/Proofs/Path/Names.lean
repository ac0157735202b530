import Vendoring.Mapping
import Vendoring.Update

/-!
# The names on a path

What a path asks for is told by whether it is absolute and by its pieces other than `.`, which are
called its names here; `..` is one of them. Joining puts one list of names behind the other
(`names_join`), the parent drops the last one (`parent?_eq_some`), and the staging file of a path
has one name that ends in the staging ending, in place of the last one or behind it
(`names_staging`).
-/

namespace Vendoring.Path

/-! ## Splitting at slashes -/

/-- Splitting a text leaves at least one piece. -/
theorem splitAt_ne_nil (c : Char) (s : List Char) : splitAt c s ≠ [] := by
  cases s with
  | nil => simp [splitAt]
  | cons a s =>
      unfold splitAt
      split
      · simp
      · split <;> simp

/-- A separator splits the pieces of what is in front of it from those behind it. -/
theorem splitAt_append (c : Char) (s t : List Char) :
    splitAt c (s ++ c :: t) = splitAt c s ++ splitAt c t := by
  induction s with
  | nil => simp [splitAt]
  | cons a s ih =>
      by_cases ha : a = c
      · simp [splitAt, ha, ih]
      · obtain ⟨piece, pieces, hs⟩ := List.exists_cons_of_ne_nil (splitAt_ne_nil c s)
        simp [splitAt, ha, ih, hs]

/-- A text without the separator is one piece. -/
theorem splitAt_of_notMem {c : Char} {s : List Char} (h : c ∉ s) : splitAt c s = [s] := by
  induction s with
  | nil => rfl
  | cons a s ih =>
      rw [List.mem_cons, not_or] at h
      simp [splitAt, Ne.symm h.1, ih h.2]

/-- No piece has a separator. -/
theorem notMem_of_mem_splitAt {c : Char} {s piece : List Char} (h : piece ∈ splitAt c s) :
    c ∉ piece := by
  induction s generalizing piece with
  | nil =>
      obtain rfl : piece = [] := by simpa [splitAt] using h
      simp
  | cons a s ih =>
      obtain ⟨first, rest, hs⟩ := List.exists_cons_of_ne_nil (splitAt_ne_nil c s)
      have hmem : ∀ other ∈ first :: rest, c ∉ other := fun other hother => ih (hs ▸ hother)
      by_cases ha : a = c
      · rw [splitAt, if_pos ha, hs] at h
        rcases List.mem_cons.1 h with rfl | h
        · simp
        · exact hmem piece h
      · rw [splitAt, if_neg ha, hs] at h
        rcases List.mem_cons.1 h with rfl | h
        · simp [Ne.symm ha, hmem first (by simp)]
        · exact hmem piece (by simp [h])

/-- The empty text has no pieces. -/
@[simp] theorem piecesOf_nil : piecesOf [] = [] := by
  simp [piecesOf, splitAt]

/-- The pieces on both sides of a slash make up those of the text. -/
@[simp] theorem piecesOf_append_slash (s t : List Char) :
    piecesOf (s ++ '/' :: t) = piecesOf s ++ piecesOf t := by
  simp [piecesOf, splitAt_append]

/-- A slash in front adds no piece. -/
@[simp] theorem piecesOf_slash (s : List Char) : piecesOf ('/' :: s) = piecesOf s := by
  simpa using piecesOf_append_slash [] s

/-- A text without slashes is one piece, unless it is empty. -/
theorem piecesOf_of_notMem {s : List Char} (h : '/' ∉ s) (hne : s ≠ []) : piecesOf s = [s] := by
  simp [piecesOf, splitAt_of_notMem h, hne]

/-- A text ends in a piece without a slash, possibly the empty one, which starts the text or stands
behind a slash. -/
theorem exists_lastPiece (s : List Char) :
    ∃ front last, s = front ++ last ∧ '/' ∉ last ∧ (front = [] ∨ front.getLast? = some '/') := by
  induction s with
  | nil => exact ⟨[], [], rfl, by simp, Or.inl rfl⟩
  | cons c s ih =>
      obtain ⟨front, last, rfl, hlast, hfront⟩ := ih
      by_cases hc : c = '/'
      · refine ⟨c :: front, last, rfl, hlast, Or.inr ?_⟩
        rcases hfront with rfl | hfront
        · simp [hc]
        · simp [List.getLast?_cons, hfront]
      · rcases hfront with rfl | hfront
        · exact ⟨[], c :: last, rfl, by simp [Ne.symm hc, hlast], Or.inl rfl⟩
        · exact ⟨c :: front, last, rfl, hlast, Or.inr (by simp [List.getLast?_cons, hfront])⟩

/-- The pieces of a text that is cut at its start or behind a slash are those of its parts. -/
theorem piecesOf_append {front : List Char} (last : List Char)
    (h : front = [] ∨ front.getLast? = some '/') :
    piecesOf (front ++ last) = piecesOf front ++ piecesOf last := by
  rcases h with rfl | h
  · simp
  · obtain ⟨above, rfl⟩ := List.getLast?_eq_some_iff.1 h
    simp

/-! ## Names -/

/-- The pieces of a text other than `.`. -/
def namesOf (s : List Char) : List Name :=
  (piecesOf s).filter (· ≠ ['.'])

/-- The pieces of a path other than `.`. -/
def names (p : Path) : List Name :=
  namesOf p.text.toList

/-- Whether a path ends in a name, without a slash or a `.` behind it. -/
def EndsInName (p : Path) : Prop :=
  p.endsInSlash = false ∧ p.pieces.getLast? = p.names.getLast? ∧ p.names ≠ []

/-- The empty text has no names. -/
@[simp] theorem namesOf_nil : namesOf [] = [] := by
  simp [namesOf]

/-- The names on both sides of a slash make up those of the text. -/
@[simp] theorem namesOf_append_slash (s t : List Char) :
    namesOf (s ++ '/' :: t) = namesOf s ++ namesOf t := by
  simp [namesOf]

/-- A slash in front adds no name. -/
@[simp] theorem namesOf_slash (s : List Char) : namesOf ('/' :: s) = namesOf s := by
  simp [namesOf]

/-- A `.` in front adds no name. -/
@[simp] theorem namesOf_dot_slash (s : List Char) : namesOf ('.' :: '/' :: s) = namesOf s := by
  have h : namesOf ['.'] = [] := by decide
  simpa [h] using namesOf_append_slash ['.'] s

/-- A text without slashes is one name, unless it is empty or `.`. -/
theorem namesOf_of_notMem {s : List Char} (h : '/' ∉ s) (hne : s ≠ []) (hdot : s ≠ ['.']) :
    namesOf s = [s] := by
  simp [namesOf, piecesOf_of_notMem h hne, hdot]

/-- The names of a path are its pieces that are not `.`. -/
theorem names_eq_filter (p : Path) : p.names = p.pieces.filter (· ≠ ['.']) :=
  rfl

/-- Names have a last one, if there are any. -/
theorem exists_lastName {p : Path} (hne : p.names ≠ []) :
    ∃ front last, p.names = front ++ [last] :=
  ⟨_, _, (List.dropLast_concat_getLast hne).symm⟩

/-- No name is `.`. -/
theorem ne_dot_of_mem_names {p : Path} {name : Name} (h : name ∈ p.names) : name ≠ ['.'] := by
  rw [names_eq_filter, List.mem_filter] at h
  simpa using h.2

/-- A name is not empty and has no slash. -/
theorem name_spec {p : Path} {name : Name} (h : name ∈ p.names) : name ≠ [] ∧ '/' ∉ name := by
  rw [names_eq_filter, List.mem_filter, pieces, piecesOf, List.mem_filter] at h
  exact ⟨by simpa using h.1.2, notMem_of_mem_splitAt h.1.1⟩

/-- A piece of a path is `.` or one of its names. -/
theorem eq_dot_or_mem_names {p : Path} {piece : Name} (h : piece ∈ p.pieces) :
    piece = ['.'] ∨ piece ∈ p.names := by
  by_cases hdot : piece = ['.']
  · exact Or.inl hdot
  · exact Or.inr (List.mem_filter.2 ⟨h, by simpa using hdot⟩)

/-! ## Joining -/

/-- A relative path is joined by its text, with a slash in front of it where one is needed. -/
theorem toList_join {p q : Path} (hq : q.isAbsolute = false) :
    (p.join q).text.toList = p.text.toList ++ q.text.toList ∧
        (p.text = "" ∨ p.endsInSlash = true) ∨
      (p.join q).text.toList = p.text.toList ++ '/' :: q.text.toList := by
  unfold join
  rw [if_neg (by simp [hq])]
  split
  · rename_i h
    rw [Bool.or_eq_true, String.isEmpty_iff] at h
    exact Or.inl ⟨by simp, h⟩
  · right
    simp [String.toList_append]

/-- The pieces of a joined path are those of its parts. -/
theorem pieces_join (p : Path) {q : Path} (hq : q.isAbsolute = false) :
    (p.join q).pieces = p.pieces ++ q.pieces := by
  unfold pieces
  rcases toList_join (p := p) hq with ⟨htext, hp⟩ | htext
  · rw [htext, piecesOf_append]
    rcases hp with hp | hp
    · exact Or.inl (by simp [hp])
    · exact Or.inr (by simpa [endsInSlash] using hp)
  · rw [htext, piecesOf_append_slash]

/-- The names of a joined path are those of its two parts. -/
theorem names_join (p : Path) {q : Path} (hq : q.isAbsolute = false) :
    (p.join q).names = p.names ++ q.names := by
  rw [names_eq_filter, pieces_join p hq, List.filter_append, ← names_eq_filter, ← names_eq_filter]

/-- A joined path starts where its first part does. -/
theorem isAbsolute_join (p : Path) {q : Path} (hq : q.isAbsolute = false) :
    (p.join q).isAbsolute = p.isAbsolute := by
  have hq' : q.text.toList.head? ≠ some '/' := by
    simpa [isAbsolute] using hq
  unfold isAbsolute
  rcases toList_join (p := p) hq with ⟨htext, hp⟩ | htext
  · rw [htext]
    cases hp' : p.text.toList with
    | nil => simpa using hq'
    | cons c s => rfl
  · rw [htext]
    cases hp' : p.text.toList with
    | nil =>
        -- an empty first part is never followed by a slash
        have hempty : p.text = "" := by simpa using hp'
        simp [join, hq, hempty] at htext
    | cons c s => rfl

/-! ## Parents -/

/-- A `.` has no name. -/
@[simp] theorem namesOf_dot : namesOf ['.'] = [] := by
  decide

/-- A reversed text begins with its last piece, behind which it ends or a slash follows. -/
theorem takeWhile_slash (r : List Char) :
    '/' ∉ r.takeWhile (· ≠ '/') ∧
      (r.dropWhile (· ≠ '/') = [] ∨ ∃ above, r.dropWhile (· ≠ '/') = '/' :: above) := by
  induction r with
  | nil => simp
  | cons c r ih =>
      by_cases hc : c = '/'
      · simp [hc]
      · simpa [hc, Ne.symm hc] using ih

/-- The names on both sides of a slash, where the text is read from behind. -/
theorem namesOf_reverse_append_slash (piece above : List Char) :
    namesOf (piece ++ '/' :: above).reverse = namesOf above.reverse ++ namesOf piece.reverse := by
  simp

/-- What is cut off the end of a reversed text has no names. -/
theorem namesOf_trimReversed (r : List Char) :
    namesOf (trimReversed r).reverse = namesOf r.reverse := by
  fun_induction trimReversed r with
  | case1 r piece h hrest =>
      have hr : piece ++ r.dropWhile (· ≠ '/') = r := List.takeWhile_append_dropWhile
      rw [hrest, List.append_nil] at hr
      rcases h with h | h <;> simp [← hr, h]
  | case2 r piece h c rest hrest ih =>
      have hr : piece ++ r.dropWhile (· ≠ '/') = r := List.takeWhile_append_dropWhile
      have hslash := (takeWhile_slash r).2
      rw [hrest] at hr hslash
      obtain rfl : c = '/' := by simpa using hslash
      rw [ih, ← hr, namesOf_reverse_append_slash]
      rcases h with h | h <;> simp [h]
  | case3 r piece h => rfl

/-- Trimming a text from behind leaves its front. -/
theorem trimReversed_suffix (r : List Char) : trimReversed r <:+ r := by
  fun_induction trimReversed r with
  | case1 r piece h hrest => exact List.nil_suffix
  | case2 r piece h c rest hrest ih =>
      have hsuffix := List.dropWhile_suffix (l := r) (· ≠ '/')
      rw [hrest] at hsuffix
      exact (ih.trans (List.suffix_cons c rest)).trans hsuffix
  | case3 r piece h => exact List.suffix_rfl

/-- Cutting a reversed text through its next slash leaves an end of it. -/
theorem dropWhile_trimReversed_suffix {r : List Char} {last : Char} {rest : List Char}
    (h : trimReversed r = last :: rest) : ((last :: rest).dropWhile (· ≠ '/')).drop 1 <:+ r := by
  have hcut : ((last :: rest).dropWhile (· ≠ '/')).drop 1 <:+ last :: rest :=
    (List.drop_suffix _ _).trans (List.dropWhile_suffix _)
  exact hcut.trans (h ▸ trimReversed_suffix r)

/-- A reversed text that is cut begins with a name, unless nothing is left. -/
theorem trimReversed_cases (r : List Char) :
    trimReversed r = [] ∨
      (trimReversed r).takeWhile (· ≠ '/') ≠ [] ∧
        (trimReversed r).takeWhile (· ≠ '/') ≠ ['.'] := by
  fun_induction trimReversed r with
  | case1 r piece h hrest => exact Or.inl rfl
  | case2 r piece h c rest hrest ih => exact ih
  | case3 r piece h => exact Or.inr (not_or.1 h)

/-- A text whose last piece is a name has this name behind those of what is above it. -/
theorem namesOf_reverse_of_name {r : List Char} (hne : r.takeWhile (· ≠ '/') ≠ [])
    (hdot : r.takeWhile (· ≠ '/') ≠ ['.']) :
    namesOf r.reverse = namesOf ((r.dropWhile (· ≠ '/')).drop 1).reverse ++
        [(r.takeWhile (· ≠ '/')).reverse] ∧
      (piecesOf r.reverse).getLast? = some (r.takeWhile (· ≠ '/')).reverse := by
  obtain ⟨hpiece, hrest⟩ := takeWhile_slash r
  have hr : r.takeWhile (· ≠ '/') ++ r.dropWhile (· ≠ '/') = r := List.takeWhile_append_dropWhile
  generalize r.takeWhile (· ≠ '/') = piece at *
  generalize r.dropWhile (· ≠ '/') = rest at *
  subst hr
  have hreverse : piece.reverse ≠ ['.'] := by
    intro h
    exact hdot (by simpa using congrArg List.reverse h)
  have hnames : namesOf piece.reverse = [piece.reverse] :=
    namesOf_of_notMem (by simpa using hpiece) (by simpa using hne) hreverse
  have hpieces : piecesOf piece.reverse = [piece.reverse] :=
    piecesOf_of_notMem (by simpa using hpiece) (by simpa using hne)
  rcases hrest with rfl | ⟨above, rfl⟩
  · simp [hnames, hpieces]
  · simp [hnames, hpieces]

/-- The head of a text is a slash, a `.` with no other character of its piece behind it, or nothing;
in the last case no slash comes first. -/
theorem splitHead_cases (s : List Char) :
    (∃ body, s = '/' :: body ∧ splitHead s = (['/'], body)) ∨
      (∃ body, s = '.' :: body ∧ splitHead s = (['.'], body) ∧
        (body = [] ∨ ∃ rest, body = '/' :: rest)) ∨
      (splitHead s = ([], s) ∧ s.head? ≠ some '/') := by
  unfold splitHead
  split
  · exact Or.inl ⟨_, rfl, rfl⟩
  · exact Or.inr (Or.inl ⟨[], rfl, rfl, Or.inl rfl⟩)
  · exact Or.inr (Or.inl ⟨_, rfl, rfl, Or.inr ⟨_, rfl⟩⟩)
  · rename_i h _ _
    refine Or.inr (Or.inr ⟨rfl, ?_⟩)
    cases s with
    | nil => simp
    | cons c s =>
        intro hc
        obtain rfl : c = '/' := by simpa using hc
        exact h s rfl

/-- Splitting off the first piece loses nothing. -/
theorem splitHead_append_self (s : List Char) : (splitHead s).1 ++ (splitHead s).2 = s := by
  rcases splitHead_cases s with ⟨body, rfl, h⟩ | ⟨body, rfl, h, -⟩ | ⟨h, -⟩ <;> simp [h]

/-- A `.` in front is the first piece. -/
theorem piecesOf_dot_slash (s : List Char) : piecesOf ('.' :: '/' :: s) = ['.'] :: piecesOf s := by
  have hdot : piecesOf ['.'] = [['.']] := by decide
  simpa [hdot] using piecesOf_append_slash ['.'] s

/-- A text with a name has a piece. -/
theorem piecesOf_ne_nil {s : List Char} (h : namesOf s ≠ []) : piecesOf s ≠ [] := by
  intro hnil
  exact h (by simp [namesOf, hnil])

/-- Behind the head of a text a front of its body has its own names, and the text starts as
before. -/
theorem splitHead_append {s front : List Char} (h : front <+: (splitHead s).2) :
    namesOf ((splitHead s).1 ++ front) = namesOf front ∧
      (((splitHead s).1 ++ front).head? = some '/' ↔ s.head? = some '/') ∧
      (namesOf front ≠ [] →
        (piecesOf ((splitHead s).1 ++ front)).getLast? = (piecesOf front).getLast?) := by
  rcases splitHead_cases s with ⟨body, rfl, hs⟩ | ⟨body, rfl, hs, hbody⟩ | ⟨hs, hhead⟩ <;>
    rw [hs] at h ⊢
  · simp
  · have hfront : front = [] ∨ ∃ below, front = '/' :: below := by
      obtain ⟨rest, hrest⟩ := h
      cases front with
      | nil => exact Or.inl rfl
      | cons c below =>
          rcases hbody with rfl | ⟨_, rfl⟩
          · simp at hrest
          · obtain ⟨rfl, -⟩ := List.cons.inj hrest
            exact Or.inr ⟨below, rfl⟩
    rcases hfront with rfl | ⟨below, rfl⟩
    · simp
    · refine ⟨by simp, by simp, ?_⟩
      intro hne
      obtain ⟨piece, pieces, hpieces⟩ :=
        List.exists_cons_of_ne_nil (piecesOf_ne_nil (by simpa using hne))
      simp [piecesOf_dot_slash, hpieces]
  · refine ⟨by simp, ?_, by simp⟩
    simp only [List.nil_append, hhead, iff_false]
    obtain ⟨rest, rfl⟩ := h
    cases front with
    | nil => simp
    | cons c front => simpa using hhead

/-- The names of a path are found in its body without what is cut off at the end. -/
theorem names_eq_trimmed (p : Path) :
    p.names = namesOf (trimReversed (splitHead p.text.toList).2.reverse).reverse := by
  have hbody := (splitHead_append (s := p.text.toList) List.prefix_rfl).1
  rw [splitHead_append_self] at hbody
  rw [namesOf_trimReversed, List.reverse_reverse]
  exact hbody

/-- A path that is cut somewhere in its body starts where it did and, unless it has no names, ends
in one. -/
theorem cut_spec {p above : Path} {r : List Char} (h : r <:+ (splitHead p.text.toList).2.reverse)
    (htext : above.text.toList = (splitHead p.text.toList).1 ++ (trimReversed r).reverse) :
    above.names = namesOf r.reverse ∧ above.isAbsolute = p.isAbsolute ∧
      above.text.toList <+: p.text.toList ∧
      (above.names ≠ [] → above.pieces.getLast? = above.names.getLast?) := by
  have hfront : (trimReversed r).reverse <+: (splitHead p.text.toList).2 := by
    simpa using ((trimReversed_suffix r).trans h).reverse
  obtain ⟨hnames, habsolute, hlast⟩ := splitHead_append hfront
  rw [namesOf_trimReversed] at hnames hlast
  refine ⟨?_, ?_, ?_, ?_⟩
  · rw [names, htext, hnames]
  · rw [isAbsolute, isAbsolute, htext, Bool.eq_iff_iff]
    simpa using habsolute
  · rw [htext]
    calc (splitHead p.text.toList).1 ++ (trimReversed r).reverse
        <+: (splitHead p.text.toList).1 ++ (splitHead p.text.toList).2 :=
          (List.prefix_append_right_inj _).2 hfront
      _ = p.text.toList := splitHead_append_self _
  · intro hne
    rw [names, htext, hnames] at hne ⊢
    rw [pieces, htext, hlast hne]
    -- what is left of the body ends in a name, or there is none
    obtain hnil | ⟨hname, hdot⟩ := trimReversed_cases r
    · rw [← namesOf_trimReversed, hnil] at hne
      exact absurd rfl hne
    · obtain ⟨hbehind, hend⟩ := namesOf_reverse_of_name hname hdot
      rw [← namesOf_trimReversed, hbehind, hend, List.getLast?_concat]

/-- The parent of a path is an initial piece of its text with all names but the last one; it starts
where the path does and, unless it has no names, ends in one. -/
theorem parent?_eq_some {p above : Path} (h : p.parent? = some above) :
    above.names = p.names.dropLast ∧ above.isAbsolute = p.isAbsolute ∧
      above.text.toList <+: p.text.toList ∧
      (above.names ≠ [] → above.pieces.getLast? = above.names.getLast?) := by
  have hnames := names_eq_trimmed p
  simp only [parent?] at h
  split at h
  · rename_i hbody
    split at h
    -- nothing but a dot is above nothing
    · rename_i hhead
      obtain rfl := Option.some.inj h
      rw [hbody] at hnames
      have hrelative : p.isAbsolute = false := by
        rcases splitHead_cases p.text.toList with ⟨body, _, hs⟩ | ⟨body, htext, _⟩ | ⟨hs, _⟩
        · simp [hs] at hhead
        · simp [isAbsolute, htext]
        · simp [hs] at hhead
      exact ⟨by rw [hnames]; rfl, by rw [hrelative]; rfl, List.nil_prefix, fun h => absurd rfl h⟩
    · simp at h
  · rename_i last rest hbody
    obtain rfl := Option.some.inj h
    obtain hnil | ⟨hne, hdot⟩ := trimReversed_cases (splitHead p.text.toList).2.reverse
    · rw [hnil] at hbody
      simp at hbody
    rw [hbody] at hnames hne hdot
    rw [(namesOf_reverse_of_name hne hdot).1] at hnames
    rw [hnames, List.dropLast_concat]
    exact cut_spec (dropWhile_trimReversed_suffix hbody) String.toList_ofList

/-- A path with a name has a parent. -/
theorem exists_parent? {p : Path} (h : p.names ≠ []) : ∃ above, p.parent? = some above := by
  simp only [parent?]
  split
  · rename_i hbody
    rw [names_eq_trimmed, hbody] at h
    exact absurd rfl h
  · exact ⟨_, rfl⟩

/-! ## Staging files -/

/-- The name that ends the path of a staging file: that of the path with the ending behind it. -/
def stagingName (name : Name) : Name :=
  name ++ stagingEnding.toList

/-- The staging file of a path is named by its text with an ending. -/
theorem toList_staging (p : Path) : p.staging.text.toList = p.text.toList ++ stagingEnding.toList := by
  simp [staging, String.toList_append]

/-- The staging file of a path has one piece behind a slash at its end, and else a longer last
piece. -/
theorem pieces_staging (p : Path) :
    ∃ front last, p.staging.pieces = front ++ [stagingName last] ∧
      ((last = [] ∧ p.pieces = front ∧ (p.endsInSlash = true ∨ p.text = "")) ∨
        (last ≠ [] ∧ p.pieces = front ++ [last] ∧ p.endsInSlash = false)) := by
  obtain ⟨front, last, htext, hlast, hfront⟩ := exists_lastPiece p.text.toList
  have hname : piecesOf (stagingName last) = [stagingName last] := by
    refine piecesOf_of_notMem ?_ (by simp [stagingName, stagingEnding])
    have hending : '/' ∉ stagingEnding.toList := by decide
    simp [stagingName, hlast, hending]
  refine ⟨piecesOf front, last, ?_, ?_⟩
  · rw [pieces, toList_staging, htext, List.append_assoc, piecesOf_append _ hfront]
    exact congrArg _ hname
  · rw [pieces, htext, piecesOf_append _ hfront, endsInSlash, htext]
    by_cases hnil : last = []
    · refine Or.inl ⟨hnil, by simp [hnil], ?_⟩
      rcases hfront with rfl | hfront
      · exact Or.inr (by simpa [hnil] using htext)
      · exact Or.inl (by simp [hnil, hfront])
    · refine Or.inr ⟨hnil, by rw [piecesOf_of_notMem hlast hnil], ?_⟩
      have hne : last.getLast? ≠ some '/' := fun h => hlast (List.mem_of_getLast? h)
      obtain ⟨c, hc⟩ : ∃ c, last.getLast? = some c := by
        cases hc : last.getLast? with
        | none => exact absurd (List.getLast?_eq_none_iff.1 hc) hnil
        | some c => exact ⟨c, rfl⟩
      simpa [List.getLast?_append, hc] using hne

/-- The name of a staging file is neither `.` nor `..`. -/
theorem stagingName_ne_reference (name : Name) :
    stagingName name ≠ ['.'] ∧ stagingName name ≠ ['.', '.'] := by
  constructor <;> intro h <;> simpa [stagingName, stagingEnding] using congrArg List.length h

/-- The path of a staging file does not end in a slash. -/
theorem endsInSlash_staging (p : Path) : p.staging.endsInSlash = false := by
  have hlast : (p.text.toList ++ stagingEnding.toList).getLast? = some 'p' := by
    simp [stagingEnding]
  rw [endsInSlash, toList_staging, hlast]
  decide

/-- The names of a staging file are those of its path, of which the last one is made longer; if the
path does not end in a name, there is one more instead. -/
theorem names_staging {p : Path} (h : p.names ≠ []) :
    ∃ front last, p.staging.names = front ++ [stagingName last] ∧
      p.staging.pieces.getLast? = some (stagingName last) ∧
      ((p.EndsInName ∧ p.names = front ++ [last]) ∨ (¬ p.EndsInName ∧ p.names = front)) := by
  obtain ⟨front, last, hstaging, hcases⟩ := pieces_staging p
  have hnames : p.staging.names = front.filter (· ≠ ['.']) ++ [stagingName last] := by
    simp [names_eq_filter, hstaging, (stagingName_ne_reference last).1]
  refine ⟨_, last, hnames, by simp [hstaging], ?_⟩
  rcases hcases with ⟨rfl, hpieces, hslash⟩ | ⟨hne, hpieces, hslash⟩
  · refine Or.inr ⟨fun hend => ?_, by rw [names_eq_filter, hpieces]⟩
    rcases hslash with hslash | hslash
    · simp [EndsInName, hslash] at hend
    · exact h (by simp [names, hslash])
  · by_cases hdot : last = ['.']
    · refine Or.inr ⟨fun hend => ?_, by simp [names_eq_filter, hpieces, hdot]⟩
      have hmem : ['.'] ∈ p.names := by
        refine List.mem_of_getLast? ?_
        rw [← hend.2.1, hpieces, hdot, List.getLast?_concat]
      exact ne_dot_of_mem_names hmem rfl
    · have hp : p.names = front.filter (· ≠ ['.']) ++ [last] := by
        simp [names_eq_filter, hpieces, hdot]
      exact Or.inl ⟨⟨hslash, by rw [hpieces, hp]; simp, h⟩, hp⟩

/-- The path of a staging file is absolute just if that of the file is. -/
theorem isAbsolute_staging {p : Path} (h : p.text ≠ "") : p.staging.isAbsolute = p.isAbsolute := by
  rw [isAbsolute, isAbsolute, toList_staging]
  cases htext : p.text.toList with
  | nil => exact absurd (by simpa using htext) h
  | cons c s => rfl

/-! ## Components -/

/-- What a name stands for. -/
def componentOf (name : Name) : Component :=
  if name = ['.', '.'] then .parent else .name name

/-- Different names have different components. -/
theorem componentOf_injective : Function.Injective componentOf := by
  intro a b h
  unfold componentOf at h
  split at h <;> split at h <;> simp_all

/-- The components of pieces are those of the pieces that are not `.`. -/
theorem filterMap_pieceComponent? (pieces : List Name) :
    pieces.filterMap pieceComponent? = (pieces.filter (· ≠ ['.'])).map componentOf := by
  induction pieces with
  | nil => rfl
  | cons piece pieces ih =>
      by_cases hdot : piece = ['.']
      · rw [List.filterMap_cons, List.filter_cons_of_neg (by simp [hdot]), ← ih]
        simp [hdot, pieceComponent?]
      · rw [List.filterMap_cons, List.filter_cons_of_pos (by simp [hdot]), List.map_cons, ← ih]
        by_cases hup : piece = ['.', '.'] <;> simp [hdot, hup, pieceComponent?, componentOf]

/-- A text that does not begin with a slash has a component for a `.` in front and then one for each
of its names. -/
theorem componentsOf_cons {c : Char} {s : List Char} (h : c ≠ '/') :
    componentsOf (c :: s) = if (piecesOf (c :: s)).head? = some ['.'] then
      .current :: (piecesOf (c :: s)).filterMap pieceComponent?
    else (piecesOf (c :: s)).filterMap pieceComponent? := by
  unfold componentsOf
  split
  · rename_i hs
    exact absurd (List.cons.inj hs).1 h
  · rfl

/-- The components of a path are the root or a leading `.`, if it starts so, and its names. -/
theorem components_eq (p : Path) :
    ∃ head, p.components = head ++ p.names.map componentOf ∧
      (p.isAbsolute = true ∧ head = [.root] ∨
        p.isAbsolute = false ∧ (head = [] ∨ head = [.current])) := by
  rw [names_eq_filter, ← filterMap_pieceComponent?, components, isAbsolute]
  show ∃ head, _ = head ++ (piecesOf p.text.toList).filterMap pieceComponent? ∧ _
  cases p.text.toList with
  | nil => exact ⟨[], rfl, Or.inr ⟨rfl, Or.inl rfl⟩⟩
  | cons c s =>
      by_cases hc : c = '/'
      · subst hc
        exact ⟨[.root], rfl, Or.inl ⟨rfl, rfl⟩⟩
      · have hrelative : ((c :: s).head? == some '/') = false := by simpa using hc
        rw [componentsOf_cons hc, hrelative]
        split
        · exact ⟨[.current], rfl, Or.inr ⟨rfl, Or.inr rfl⟩⟩
        · exact ⟨[], rfl, Or.inr ⟨rfl, Or.inl rfl⟩⟩

/-- The component of a name is neither `.` nor the root. -/
theorem componentOf_ne (name : Name) :
    componentOf name ≠ .current ∧ componentOf name ≠ .root := by
  unfold componentOf
  split <;> simp

/-- Without `.` the components of a path are the root, if it starts there, and its names. -/
theorem normalized_eq (p : Path) :
    p.normalized = (if p.isAbsolute then [.root] else []) ++ p.names.map componentOf := by
  obtain ⟨head, hcomponents, hhead⟩ := components_eq p
  have hnames : (p.names.map componentOf).filter (· ≠ .current) = p.names.map componentOf := by
    rw [List.filter_eq_self]
    intro c hc
    obtain ⟨name, _, rfl⟩ := List.mem_map.1 hc
    simpa using (componentOf_ne name).1
  rw [normalized, hcomponents, List.filter_append, hnames]
  rcases hhead with ⟨ha, rfl⟩ | ⟨ha, rfl | rfl⟩ <;> simp [ha]

/-- Two paths have the same components without `.` exactly if they start alike and have the same
names. -/
theorem normalized_inj {p q : Path} :
    p.normalized = q.normalized ↔ p.isAbsolute = q.isAbsolute ∧ p.names = q.names := by
  rw [normalized_eq, normalized_eq]
  constructor
  · intro h
    have hroot : ∀ names : List Name, Component.root ∉ names.map componentOf := by
      intro names hmem
      obtain ⟨name, _, hname⟩ := List.mem_map.1 hmem
      exact (componentOf_ne name).2 hname
    have hmem : ∀ r : Path, Component.root ∈
        (if r.isAbsolute then [Component.root] else []) ++ r.names.map componentOf ↔
          r.isAbsolute = true := by
      intro r
      by_cases hr : r.isAbsolute <;> simp [hr, hroot]
    have habsolute : p.isAbsolute = q.isAbsolute := by
      rw [Bool.eq_iff_iff, ← hmem p, ← hmem q, h]
    rw [habsolute] at h
    exact ⟨habsolute, (List.map_inj_right componentOf_injective).1 (List.append_cancel_left h)⟩
  · rintro ⟨habsolute, hnames⟩
    rw [habsolute, hnames]

/-- The component of a name is the parent just if the name is `..`. -/
theorem componentOf_eq_parent {name : Name} : componentOf name = .parent ↔ name = ['.', '.'] := by
  by_cases h : name = ['.', '.'] <;> simp [componentOf, h]

/-- A path has a component that climbs exactly if `..` is one of its names. -/
theorem parent_mem_components {p : Path} : .parent ∈ p.components ↔ ['.', '.'] ∈ p.names := by
  obtain ⟨head, hcomponents, hhead⟩ := components_eq p
  have hclimbs : .parent ∈ p.names.map componentOf ↔ ['.', '.'] ∈ p.names := by
    simp [componentOf_eq_parent]
  rw [hcomponents, List.mem_append, hclimbs]
  rcases hhead with ⟨-, rfl⟩ | ⟨-, rfl | rfl⟩ <;> simp

/-- A path stays inside exactly if it is relative and has no `..`. -/
theorem staysInside_iff {p : Path} :
    p.staysInside = true ↔ p.isAbsolute = false ∧ ['.', '.'] ∉ p.names := by
  have hinside : p.staysInside = true ↔ ∀ c ∈ p.components, c ≠ .root ∧ c ≠ .parent := by
    rw [staysInside, List.all_eq_true]
    refine forall₂_congr ?_
    intro c _
    cases c <;> simp
  rw [hinside, ← parent_mem_components]
  obtain ⟨head, hcomponents, hhead⟩ := components_eq p
  have hroot : .root ∈ p.components ↔ p.isAbsolute = true := by
    have hnames : .root ∉ p.names.map componentOf := by
      intro hmem
      obtain ⟨name, _, hname⟩ := List.mem_map.1 hmem
      exact (componentOf_ne name).2 hname
    rw [hcomponents, List.mem_append]
    rcases hhead with ⟨ha, rfl⟩ | ⟨ha, rfl | rfl⟩ <;> simp [ha] at hnames ⊢ <;> exact hnames
  constructor
  · intro h
    refine ⟨?_, fun hmem => (h _ hmem).2 rfl⟩
    rw [Bool.eq_false_iff, Ne, ← hroot]
    exact fun hmem => (h _ hmem).1 rfl
  · rintro ⟨ha, hup⟩ c hc
    refine ⟨fun h => ?_, fun h => hup (h ▸ hc)⟩
    rw [hroot.1 (h ▸ hc)] at ha
    exact Bool.noConfusion ha

end Vendoring.Path
