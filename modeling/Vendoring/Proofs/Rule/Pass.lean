import Vendoring.Proofs.Rule.Occurrence

/-!
# What a pass makes of a text

A replacement says which pieces of a text become what, behind a character and in front of a rest. A
pass takes the pieces from the left (`Substituted`): a character at which none begins stays, and
behind a piece the next one is looked for. If at most one piece begins at a place (`Sharp`), then a
pass has one outcome (`Substituted.unique`), and if each piece is changed, then it keeps a text
exactly if none begins anywhere in it (`Substituted.eq_iff`). A recogniser that finds the pieces
(`Finds`) makes the pass (`Finds.substitute_eq_iff`); if they are the matches of a pattern, it
replaces as many as there are (`Recognises.substitute_eq_iff`).
-/

namespace Vendoring.Rule

open Text

/-- Behind a character, a piece with a rest behind it becomes a text. -/
abbrev Replacement := Option Char → List Char → List Char → List Char → Prop

/-- The matches of a pattern at the start of a word become one text. -/
def Replacement.ofPattern (L : Pattern) (r : List Char) : Replacement := fun previous m _ r' =>
  atWordStart previous = true ∧ L m ∧ r' = r

/-- In the second text a number of pieces of the first one are replaced, from the left. -/
inductive Substituted (R : Replacement) : Nat → Option Char → List Char → List Char → Prop
  | nil {previous : Option Char} : Substituted R 0 previous [] []
  | keep {n : Nat} {previous : Option Char} {c : Char} {s t : List Char}
      (hnone : ∀ m behind r, R previous m behind r → c :: s ≠ m ++ behind)
      (h : Substituted R n (some c) s t) : Substituted R n previous (c :: s) (c :: t)
  | change {n : Nat} {previous : Option Char} {m r s t : List Char} (hchange : R previous m s r)
      (h : Substituted R n m.getLast? s t) : Substituted R (n + 1) previous (m ++ s) (r ++ t)

/-- At most one piece begins at a place, and it becomes one text. -/
structure Sharp (R : Replacement) : Prop where
  nonempty : ∀ {previous m behind r}, R previous m behind r → m ≠ []
  unique : ∀ {previous m behind r m' behind' r'}, R previous m behind r →
    R previous m' behind' r' → m ++ behind = m' ++ behind' → m = m' ∧ r = r'

/-- The recogniser answers where a piece begins, and with what it becomes. -/
structure Finds (recognise : Recogniser) (R : Replacement) : Prop where
  nonempty : ∀ {previous m behind r}, R previous m behind r → m ≠ []
  iff : ∀ {previous s r rest}, recognise previous s = some (r, rest) ↔
    ∃ m, R previous m rest r ∧ s = m ++ rest

/-! ## Outcomes of a pass -/

namespace Substituted

variable {R : Replacement} {n n' : Nat} {previous : Option Char} {s t t' : List Char}

/-- A text ends, or its first character stays, or a piece begins with it. -/
theorem cases_text (h : Substituted R n previous s t) :
    (s = [] ∧ n = 0 ∧ t = []) ∨
    (∃ c s' t', s = c :: s' ∧ t = c :: t' ∧
      (∀ m behind r, R previous m behind r → c :: s' ≠ m ++ behind) ∧ Substituted R n (some c) s' t') ∨
    ∃ k m r s' t', n = k + 1 ∧ s = m ++ s' ∧ t = r ++ t' ∧ R previous m s' r ∧
      Substituted R k m.getLast? s' t' := by
  cases h with
  | nil => exact Or.inl ⟨rfl, rfl, rfl⟩
  | keep hnone h => exact Or.inr (Or.inl ⟨_, _, _, rfl, rfl, hnone, h⟩)
  | change hchange h => exact Or.inr (Or.inr ⟨_, _, _, _, _, rfl, rfl, rfl, hchange, h⟩)

/-- A text has one outcome, and the number of its pieces is fixed. -/
theorem unique (hR : Sharp R) (h : Substituted R n previous s t) (h' : Substituted R n' previous s t') :
    n = n' ∧ t = t' := by
  induction h generalizing n' t' with
  | nil =>
      rcases h'.cases_text with ⟨-, rfl, rfl⟩ | ⟨c, s', t', hs, -⟩ | ⟨k, m, r, s', t', -, hs, -, hm, -⟩
      · exact ⟨rfl, rfl⟩
      · cases hs
      · exact absurd (List.append_eq_nil_iff.1 hs.symm).1 (hR.nonempty hm)
  | keep hnone h ih =>
      rcases h'.cases_text with ⟨hs, -⟩ | ⟨c, s', t', hs, rfl, -, h'⟩ |
        ⟨k, m, r, s', t', -, hs, -, hm, -⟩
      · cases hs
      · obtain ⟨rfl, rfl⟩ := List.cons.inj hs
        obtain ⟨hn, ht⟩ := ih h'
        exact ⟨hn, by rw [ht]⟩
      · exact absurd hs (hnone m s' r hm)
  | @change n previous m r s t hchange h ih =>
      rcases h'.cases_text with ⟨hs, -⟩ | ⟨c, s', t', hs, -, hnone, -⟩ |
        ⟨k, m', r', s', t', rfl, hs, rfl, hchange', h'⟩
      · exact absurd (List.append_eq_nil_iff.1 hs).1 (hR.nonempty hchange)
      · exact absurd hs.symm (hnone m s r hchange)
      · obtain ⟨rfl, rfl⟩ := hR.unique hchange hchange' hs
        obtain rfl := List.append_cancel_left hs
        obtain ⟨hn, ht⟩ := ih h'
        exact ⟨by rw [hn], by rw [ht]⟩

/-- A pass without pieces keeps the text. -/
theorem eq_of_zero (h : Substituted R n previous s t) (hn : n = 0) : t = s := by
  induction h with
  | nil => rfl
  | keep _ _ ih => rw [ih hn]
  | change => cases hn

/-- A pass whose pieces all become longer adds a character for each. -/
theorem length_le (h : Substituted R n previous s t)
    (hlonger : ∀ previous m behind r, R previous m behind r → m <:+: s → m.length < r.length) :
    s.length + n ≤ t.length := by
  induction h with
  | nil => exact Nat.le_refl _
  | @keep n previous c s t _ _ ih =>
      have hle := ih fun previous m behind r hchange hm =>
        hlonger previous m behind r hchange (hm.trans (List.suffix_cons c s).isInfix)
      rw [List.length_cons, List.length_cons]
      omega
  | @change n previous m r s t hchange _ ih =>
      have hlt := hlonger previous m s r hchange (List.prefix_append m s).isInfix
      have hle := ih fun previous m' behind r hchange hm =>
        hlonger previous m' behind r hchange (hm.trans (List.suffix_append m s).isInfix)
      rw [List.length_append, List.length_append]
      omega

end Substituted

/-! ## Where pieces begin -/

/-- A piece begins here. -/
def Replacement.Opens (R : Replacement) : Option Char → List Char → Prop := fun previous s =>
  ∃ m behind r, R previous m behind r ∧ s = m ++ behind

/-- At a place of a text that stands behind a character, the property holds of the character in
front and of the rest. -/
def Somewhere (P : Option Char → List Char → Prop) (previous : Option Char) (s : List Char) : Prop :=
  ∃ front behind, s = front ++ behind ∧ P (front.getLast?.or previous) behind

section Places

variable {P : Option Char → List Char → Prop} {R : Replacement} {n : Nat} {previous : Option Char}
  {s t : List Char}

/-- The empty text has one place. -/
theorem somewhere_nil : Somewhere P previous [] ↔ P previous [] := by
  constructor
  · intro h
    obtain ⟨front, behind, heq, h⟩ := h
    obtain ⟨rfl, rfl⟩ := List.append_eq_nil_iff.1 heq.symm
    exact h
  · intro h
    exact ⟨[], [], rfl, h⟩

/-- The places of a text are its front and the places behind its first character. -/
theorem somewhere_cons {c : Char} :
    Somewhere P previous (c :: s) ↔ P previous (c :: s) ∨ Somewhere P (some c) s := by
  constructor
  · intro h
    obtain ⟨front, behind, heq, h⟩ := h
    cases front with
    | nil =>
        obtain rfl : c :: s = behind := heq
        exact Or.inl h
    | cons d front =>
        obtain ⟨rfl, rfl⟩ := List.cons.inj heq
        exact Or.inr ⟨front, behind, rfl, getLast?_cons_or c front previous ▸ h⟩
  · intro h
    rcases h with h | ⟨front, behind, rfl, h⟩
    · exact ⟨[], c :: s, rfl, h⟩
    · exact ⟨c :: front, behind, rfl, (getLast?_cons_or c front previous).symm ▸ h⟩

/-- A pass replaces something exactly if a piece begins somewhere. -/
theorem Substituted.eq_zero_iff (h : Substituted R n previous s t)
    (hne : ∀ {previous m behind r}, R previous m behind r → m ≠ []) :
    n = 0 ↔ ¬ Somewhere R.Opens previous s := by
  induction h with
  | @nil previous =>
      rw [somewhere_nil]
      refine iff_of_true rfl ?_
      intro hopens
      obtain ⟨m, behind, r, hm, heq⟩ := hopens
      exact hne hm (List.append_eq_nil_iff.1 heq.symm).1
  | @keep n previous c s t hnone _ ih =>
      rw [somewhere_cons, ih, not_or]
      refine ⟨fun h => ⟨?_, h⟩, And.right⟩
      intro hopens
      obtain ⟨m, behind, r, hm, heq⟩ := hopens
      exact hnone m behind r hm heq
  | @change n previous m r s t hm _ _ =>
      exact iff_of_false (Nat.succ_ne_zero n) fun h => h ⟨[], m ++ s, rfl, m, s, r, hm, rfl⟩

/-- A pass that changes each piece keeps a text exactly if none begins anywhere. -/
theorem Substituted.eq_iff (h : Substituted R n previous s t)
    (hne : ∀ {previous m behind r}, R previous m behind r → m ≠ [])
    (hchange : ∀ {previous m behind r}, R previous m behind r → ∀ t, r ++ t ≠ m ++ behind) :
    t = s ↔ ¬ Somewhere R.Opens previous s := by
  rw [← h.eq_zero_iff hne]
  refine ⟨?_, h.eq_of_zero⟩
  intro hsame
  induction h with
  | nil => rfl
  | keep _ _ ih => exact ih (List.cons.inj hsame).2
  | change hm => exact absurd hsame (hchange hm _)

end Places

/-! ## Passes by recognisers -/

section Recognisers

variable {recognise : Recogniser} {R : Replacement} {L : Pattern} {r : List Char}

/-- What a recogniser finds is sharp: at a place it answers in one way. -/
theorem Finds.sharp (h : Finds recognise R) : Sharp R := by
  refine ⟨h.nonempty, ?_⟩
  intro previous m behind r m' behind' r' hm hm' heq
  have hfound : recognise previous (m ++ behind) = some (r, behind) := h.iff.2 ⟨m, hm, rfl⟩
  have hfound' : recognise previous (m ++ behind) = some (r', behind') := h.iff.2 ⟨m', hm', heq⟩
  obtain ⟨rfl, rfl⟩ := Prod.mk.inj (Option.some.inj (hfound.symm.trans hfound'))
  exact ⟨List.append_cancel_right heq, rfl⟩

/-- The pass by a recogniser replaces the pieces that it finds. -/
theorem Finds.substituted (h : Finds recognise R) (previous : Option Char) (s : List Char) :
    ∃ n, Substituted R n previous s (substitute recognise previous s) := by
  fun_induction substitute recognise previous s with
  | case1 => exact ⟨0, .nil⟩
  | case2 previous c cs hnone ih =>
      obtain ⟨n, ih⟩ := ih
      refine ⟨n, .keep ?_ ih⟩
      intro m behind r hm heq
      rw [h.iff.2 ⟨m, hm, heq⟩] at hnone
      cases hnone
  | case3 previous c cs replacement rest hsome hlength ih =>
      obtain ⟨m, hm, heq⟩ := h.iff.1 hsome
      rw [heq, before_append] at ih
      obtain ⟨n, ih⟩ := ih
      rw [heq, before_append]
      exact ⟨n + 1, .change hm ih⟩
  | case4 previous c cs replacement rest hsome hlength ih =>
      obtain ⟨m, hm, heq⟩ := h.iff.1 hsome
      have hpos := List.length_pos_iff.2 (h.nonempty hm)
      have hsum := congrArg List.length heq
      rw [List.length_append, List.length_cons] at hsum
      omega

/-- A recogniser makes the pass that replaces what it finds. -/
theorem Finds.substitute_eq_iff (h : Finds recognise R) {previous : Option Char} {s t : List Char} :
    substitute recognise previous s = t ↔ ∃ n, Substituted R n previous s t := by
  obtain ⟨n, hpass⟩ := h.substituted previous s
  constructor
  · intro ht
    exact ⟨n, ht ▸ hpass⟩
  · intro hother
    obtain ⟨k, hother⟩ := hother
    exact (hpass.unique h.sharp hother).2

/-- A recogniser of a pattern finds the matches at the start of a word, if no text opens with two of
them. -/
theorem Recognises.finds (h : Recognises recognise L r) (hfree : PrefixFree L) :
    Finds recognise (.ofPattern L r) := by
  refine ⟨fun hm => h.nonempty _ hm.2.1, ?_⟩
  intro previous s r' rest
  constructor
  · intro hsome
    obtain ⟨hstart, hr, m, hm, heq⟩ := h.some previous s r' rest hsome
    exact ⟨m, ⟨hstart, hm, hr⟩, heq⟩
  · intro hpiece
    obtain ⟨m, ⟨hstart, hm, rfl⟩, rfl⟩ := hpiece
    cases hfound : recognise previous (m ++ rest) with
    | none =>
        exact absurd ⟨fun _ => hstart, m, hm, List.prefix_append m rest⟩ (h.none _ _ hfound)
    | some answer =>
        obtain ⟨-, hr, m', hm', heq⟩ := h.some _ _ answer.1 answer.2 hfound
        obtain rfl := hfree m m' rest answer.2 hm hm' heq
        rw [List.append_cancel_left heq, ← hr]

/-- A recogniser of a pattern answers nothing just where no match begins. -/
theorem recognise_eq_none_iff (h : Recognises recognise L r) {previous : Option Char} {s : List Char} :
    recognise previous s = none ↔ ¬ Begins true L previous s := by
  constructor
  · exact h.none previous s
  · intro hnone
    cases hfound : recognise previous s with
    | none => rfl
    | some answer =>
        obtain ⟨hstart, -, m, hm, rfl⟩ := h.some _ _ answer.1 answer.2 hfound
        exact absurd ⟨fun _ => hstart, m, hm, List.prefix_append m answer.2⟩ hnone

/-- If no match begins in another one, then a pass replaces as many pieces as there are matches. -/
theorem Replaced.substituted [∀ previous s, Decidable (Begins true L previous s)] (hlone : Lone L)
    {previous : Option Char} {s t : List Char} (h : Replaced L r previous s t) :
    Substituted (.ofPattern L r) (countFrom true L previous s) previous s t := by
  induction h with
  | nil => exact .nil
  | @keep previous c s t hnone _ ih =>
      rw [countFrom, if_neg hnone, Nat.zero_add]
      refine .keep ?_ ih
      intro m behind r' hm heq
      exact hnone ⟨fun _ => hm.1, m, hm.2.1, heq ▸ List.prefix_append m behind⟩
  | @change previous m s t hstart hm hne _ ih =>
      have hbegins : Begins true L previous (m ++ s) :=
        ⟨fun _ => hstart, m, hm, List.prefix_append m s⟩
      rw [countFrom_match hne hbegins, Nat.add_comm]
      · exact .change ⟨hstart, hm, rfl⟩ ih
      · intro a w hsplit ha hw
        exact hlone a w (hsplit ▸ hm) ha hw s

/-- A recogniser of a pattern replaces each of its matches. -/
theorem Recognises.substitute_eq_iff [∀ previous s, Decidable (Begins true L previous s)]
    (h : Recognises recognise L r) (hfree : PrefixFree L) (hlone : Lone L) {previous : Option Char}
    {s t : List Char} : substitute recognise previous s = t ↔
      Substituted (.ofPattern L r) (countFrom true L previous s) previous s t := by
  have hpass := (replaced_substitute h previous s).substituted hlone
  constructor
  · intro ht
    exact ht ▸ hpass
  · intro hother
    exact (hpass.unique (h.finds hfree).sharp hother).2

end Recognisers

/-! ## Passes that look for a text -/

/-- One text becomes another one wherever it stands. -/
abbrev Replacement.ofText (pattern replacement : List Char) : Replacement :=
  fun _ m _ r => m = pattern ∧ r = replacement

/-- A text is found wherever it stands. -/
theorem finds_literal {pattern : List Char} (hne : pattern ≠ []) (replacement : List Char) :
    Finds (Text.literal pattern replacement) (.ofText pattern replacement) := by
  refine ⟨fun h => h.1 ▸ hne, ?_⟩
  intro previous s r rest
  simp only [Text.literal, Option.map_eq_some_iff, dropPrefix?_eq_some_iff, Prod.mk.injEq]
  constructor
  · intro hsome
    obtain ⟨_, heq, rfl, rfl⟩ := hsome
    exact ⟨pattern, ⟨rfl, rfl⟩, heq⟩
  · intro hpiece
    obtain ⟨_, ⟨rfl, rfl⟩, heq⟩ := hpiece
    exact ⟨rest, heq, rfl, rfl⟩

/-- A text is replaced wherever it occurs, from the left. -/
theorem replaceAll_eq_iff {pattern replacement s t : List Char} (hne : pattern ≠ []) :
    replaceAll pattern replacement s = t ↔
      ∃ n, Substituted (.ofText pattern replacement) n none s t := by
  rw [replaceAll, if_neg hne]
  exact (finds_literal hne replacement).substitute_eq_iff

/-- Replacing a text that does not occur changes nothing. -/
theorem replaceAll_of_absent {pattern s : List Char} (h : ¬ pattern <:+: s)
    (replacement : List Char) : replaceAll pattern replacement s = s := by
  have hne : pattern ≠ [] := by
    rintro rfl
    exact h List.nil_infix
  obtain ⟨n, hpass⟩ := (replaceAll_eq_iff hne).1 (Eq.refl (replaceAll pattern replacement s))
  refine hpass.eq_of_zero ((hpass.eq_zero_iff fun hm => hm.1 ▸ hne).2 ?_)
  intro hopens
  obtain ⟨front, _, rfl, _, behind, r, ⟨rfl, -⟩, rfl⟩ := hopens
  exact h ⟨front, behind, List.append_assoc ..⟩

/-- Replacing a text edits occurrences of it. -/
theorem edited_replaceAll (pattern replacement s : List Char) :
    Edited (fun m r => m = pattern ∧ r = replacement) s (replaceAll pattern replacement s) := by
  unfold replaceAll
  split
  · exact .refl _ s
  · rename_i hne
    refine edited_substitute ?_ none s
    intro previous s replacement' rest hsome
    obtain ⟨m, hm, rfl⟩ := (finds_literal hne replacement).iff.1 hsome
    exact ⟨m, rfl, .of_change hm⟩

/-! ## Passes piece by piece -/

section Pieces

variable {recognise : Recogniser} {previous : Option Char}

/-- A pass over the empty text leaves it empty. -/
theorem substitute_nil : substitute recognise previous [] = [] := by
  rw [substitute]

/-- A character at which nothing is recognised is kept. -/
theorem substitute_cons_of_none {c : Char} {s : List Char} (h : recognise previous (c :: s) = none) :
    substitute recognise previous (c :: s) = c :: substitute recognise (some c) s := by
  rw [substitute]
  simp only [h]

/-- A piece that is recognised is replaced. -/
theorem substitute_append_of_some {m r s : List Char} (hne : m ≠ [])
    (h : recognise previous (m ++ s) = some (r, s)) :
    substitute recognise previous (m ++ s) = r ++ substitute recognise m.getLast? s := by
  have hbefore := before_append m s
  obtain ⟨c, m, rfl⟩ := List.exists_cons_of_ne_nil hne
  rw [List.cons_append] at h hbefore ⊢
  rw [substitute]
  simp only [h, hbefore]
  rw [dif_pos (by rw [List.length_append]; omega)]

/-- A piece stays if nothing is recognised in it. -/
theorem substitute_append_of_none {piece s : List Char}
    (h : ∀ a w, piece = a ++ w → w ≠ [] → recognise (a.getLast?.or previous) (w ++ s) = none) :
    substitute recognise previous (piece ++ s) =
      piece ++ substitute recognise (piece.getLast?.or previous) s := by
  induction piece generalizing previous with
  | nil => rfl
  | cons c piece ih =>
      have hnone : recognise previous (c :: (piece ++ s)) = none := h [] (c :: piece) rfl (by simp)
      rw [List.cons_append, substitute_cons_of_none hnone, List.cons_append, getLast?_cons_or]
      refine congrArg _ (ih ?_)
      intro a w hpiece hw
      rw [← getLast?_cons_or c a previous]
      exact h (c :: a) w (by rw [hpiece, List.cons_append]) hw

/-- A barren piece is kept. -/
theorem substitute_append_of_barren {L : Pattern} {r : List Char} (h : Recognises recognise L r)
    {piece : List Char} (hbarren : Barren L piece) (s : List Char) :
    substitute recognise previous (piece ++ s) =
      piece ++ substitute recognise (piece.getLast?.or previous) s := by
  refine substitute_append_of_none ?_
  intro a w hpiece hw
  rw [recognise_eq_none_iff h]
  intro hbegins
  obtain ⟨-, x, hx, hopens⟩ := hbegins
  exact hbarren w ⟨a, hpiece.symm⟩ hw s x hx hopens

/-- A pass goes through a piece on its own, if no match that begins in it runs out of it. -/
theorem substitute_append_of_recognises {L : Pattern} {r : List Char} (h : Recognises recognise L r)
    (hfree : PrefixFree L) {piece s : List Char}
    (hlocal : ∀ w, w <:+ piece → w ≠ [] → ∀ m, L m → m <+: w ++ s → m <+: w) :
    substitute recognise previous (piece ++ s) =
      substitute recognise previous piece ++
        substitute recognise (piece.getLast?.or previous) s := by
  fun_induction substitute recognise previous piece with
  | case1 => rfl
  | case2 previous c cs hnone ih =>
      have hnone' : recognise previous (c :: (cs ++ s)) = none := by
        rw [recognise_eq_none_iff h] at hnone ⊢
        intro hbegins
        obtain ⟨hstart, m, hm, hopens⟩ := hbegins
        exact hnone ⟨hstart, m, hm, hlocal (c :: cs) List.suffix_rfl (by simp) m hm hopens⟩
      rw [List.cons_append, substitute_cons_of_none hnone', List.cons_append, getLast?_cons_or,
        ih fun w hw => hlocal w (hw.trans (List.suffix_cons c cs))]
  | case3 previous c cs replacement rest hsome hlength ih =>
      obtain ⟨m, hm, heq⟩ := (h.finds hfree).iff.1 hsome
      have hne := h.nonempty m hm.2.1
      have hfound : recognise previous (m ++ (rest ++ s)) = some (replacement, rest ++ s) :=
        (h.finds hfree).iff.2 ⟨m, hm, rfl⟩
      rw [heq, before_append] at ih ⊢
      rw [List.append_assoc, substitute_append_of_some hne hfound, List.append_assoc,
        ih fun w hw => hlocal w (heq ▸ hw.trans (List.suffix_append m rest)), List.getLast?_append,
        Option.or_assoc, List.getLast?_eq_some_getLast hne]
      rfl
  | case4 previous c cs replacement rest hsome hlength ih =>
      obtain ⟨m, hm, heq⟩ := (h.finds hfree).iff.1 hsome
      have hpos := List.length_pos_iff.2 (h.nonempty m hm.2.1)
      have hsum := congrArg List.length heq
      rw [List.length_append, List.length_cons] at hsum
      omega

/-- What stands in front of a text matters only to the recogniser. -/
theorem substitute_congr {previous' : Option Char} {s : List Char}
    (h : recognise previous s = recognise previous' s) :
    substitute recognise previous s = substitute recognise previous' s := by
  cases s with
  | nil => rw [substitute, substitute]
  | cons c s => rw [substitute, substitute, h]

end Pieces

end Vendoring.Rule
