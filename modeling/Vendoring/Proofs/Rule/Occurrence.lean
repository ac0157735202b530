import Vendoring.Rule

/-!
# Matches and what edits do to them

A pattern is a set of texts. `count` counts the places of a text at which a match of a pattern
begins, if asked for only where a word can begin. An edit keeps most characters of a text and
changes pieces of it (`Edited`). It changes no match and adds none if no match begins in a piece,
old or new, whatever stands behind it (`Barren`), and none that begins in front of a piece runs into
it (`Sealed`): `Edited.count_eq`. Both hold for a piece with a character that no match has, if the
last character of matches does not stand in front of it and their first one not behind it
(`Foreign`).

A pass that replaces a pattern by a fixed text (`Replaced`) leaves none of its matches
(`Replaced.countFrom_eq_zero`) and makes one occurrence of the text from each
(`Replaced.countFrom_text`), if no match begins in another one (`Lone`). For the first it is enough
that the new text is sealed and barren where words begin (`Replaced.countFrom_eq_zero_of_words`).
-/

namespace Vendoring.Rule

open Text

/-- The texts that match. -/
abbrev Pattern := List Char → Prop

/-- A match begins here, at the start of a word if so bounded. -/
def Begins (bounded : Bool) (L : Pattern) (previous : Option Char) (s : List Char) : Prop :=
  (bounded = true → atWordStart previous = true) ∧ ∃ x, L x ∧ x <+: s

/-- The number of places behind a character at which a match begins. -/
def countFrom (bounded : Bool) (L : Pattern)
    [∀ previous s, Decidable (Begins bounded L previous s)] : Option Char → List Char → Nat
  | _, [] => 0
  | previous, c :: s =>
    (if Begins bounded L previous (c :: s) then 1 else 0) + countFrom bounded L (some c) s

/-- The number of places of a text at which a match begins. -/
def count (bounded : Bool) (L : Pattern)
    [∀ previous s, Decidable (Begins bounded L previous s)] (s : List Char) : Nat :=
  countFrom bounded L none s

/-- No match that begins in front of the piece runs into it, whatever stands behind it. -/
def Sealed (L : Pattern) (piece : List Char) : Prop :=
  ∀ a w, L (a ++ w) → a ≠ [] → w ≠ [] → ∀ s, ¬ w <+: piece ++ s

/-- No match begins in the piece, whatever stands behind it. -/
def Barren (L : Pattern) (piece : List Char) : Prop :=
  ∀ w, w <:+ piece → w ≠ [] → ∀ s x, L x → ¬ x <+: w ++ s

/-- No match that begins in front of the piece runs into it, if a word can begin where the piece
does. -/
def SealedAtWord (L : Pattern) (piece : List Char) : Prop :=
  ∀ a w, L (a ++ w) → a ≠ [] → w ≠ [] → atWordStart a.getLast? = true → ∀ s, ¬ w <+: piece ++ s

/-- No match begins where a word can begin in the piece. -/
def BarrenAtWords (L : Pattern) (piece : List Char) : Prop :=
  ∀ a w, piece = a ++ w → w ≠ [] → atWordStart a.getLast? = true → ∀ s x, L x → ¬ x <+: w ++ s

/-- No match of the pattern begins in another one behind its first character. -/
def Lone (L : Pattern) : Prop :=
  ∀ a w, L (a ++ w) → a ≠ [] → w ≠ [] → ∀ s x, L x → ¬ x <+: w ++ s

/-- No text opens with two matches of the pattern. -/
def PrefixFree (L : Pattern) : Prop :=
  ∀ m m' behind behind', L m → L m' → m ++ behind = m' ++ behind' → m = m'

/-- Some pieces of the first text are changed in the second one. -/
inductive Edited (change : List Char → List Char → Prop) : List Char → List Char → Prop
  | nil : Edited change [] []
  | keep (c : Char) {s t : List Char} (h : Edited change s t) : Edited change (c :: s) (c :: t)
  | change {m r s t : List Char} (hchange : change m r) (h : Edited change s t) :
      Edited change (m ++ s) (r ++ t)

/-- In the second text the matches of a pattern at the start of a word are replaced by a text, from
the left. -/
inductive Replaced (L : Pattern) (r : List Char) : Option Char → List Char → List Char → Prop
  | nil {previous : Option Char} : Replaced L r previous [] []
  | keep {previous : Option Char} {c : Char} {s t : List Char}
      (hnone : ¬ Begins true L previous (c :: s)) (h : Replaced L r (some c) s t) :
      Replaced L r previous (c :: s) (c :: t)
  | change {previous : Option Char} {m s t : List Char} (hstart : atWordStart previous = true)
      (hm : L m) (hne : m ≠ []) (h : Replaced L r m.getLast? s t) :
      Replaced L r previous (m ++ s) (r ++ t)

/-! ## Counting matches -/

section Counting

variable {bounded : Bool} {L : Pattern} [∀ previous s, Decidable (Begins bounded L previous s)]

/-- The character in front of what follows a text, if the text begins with a character. -/
theorem getLast?_cons_or (c : Char) (a : List Char) (previous : Option Char) :
    (c :: a).getLast?.or previous = a.getLast?.or (some c) := by
  rw [List.getLast?_cons]
  cases a.getLast? <;> rfl

/-- No match is counted in a piece in which none begins. -/
theorem countFrom_append {piece s : List Char} {previous : Option Char}
    (h : ∀ a w, piece = a ++ w → w ≠ [] → ¬ Begins bounded L (a.getLast?.or previous) (w ++ s)) :
    countFrom bounded L previous (piece ++ s) =
      countFrom bounded L (piece.getLast?.or previous) s := by
  induction piece generalizing previous with
  | nil => rfl
  | cons c piece ih =>
      have hnone : ¬ Begins bounded L previous (c :: (piece ++ s)) := h [] (c :: piece) rfl (by simp)
      rw [List.cons_append, countFrom, if_neg hnone, Nat.zero_add, getLast?_cons_or]
      refine ih ?_
      intro a w hpiece hw
      rw [← getLast?_cons_or c a previous]
      exact h (c :: a) w (by rw [hpiece, List.cons_append]) hw

/-- No match is counted in a barren piece. -/
theorem countFrom_append_of_barren {piece : List Char} (h : Barren L piece) (s : List Char)
    (previous : Option Char) :
    countFrom bounded L previous (piece ++ s) =
      countFrom bounded L (piece.getLast?.or previous) s := by
  refine countFrom_append ?_
  intro a w hpiece hw hbegins
  obtain ⟨-, x, hx, hopens⟩ := hbegins
  exact h w ⟨a, hpiece.symm⟩ hw s x hx hopens

/-- Where a match may begin anywhere, the character in front does not matter. -/
theorem countFrom_unbounded [∀ previous s, Decidable (Begins false L previous s)]
    (previous previous' : Option Char) (s : List Char) :
    countFrom false L previous s = countFrom false L previous' s := by
  cases s with
  | nil => rfl
  | cons c s =>
      have hbegins : Begins false L previous (c :: s) ↔ Begins false L previous' (c :: s) := by
        simp [Begins]
      rw [countFrom, countFrom]
      simp only [hbegins]

/-- One match is counted at the start of a piece if none begins further on in it. -/
theorem countFrom_match {m s : List Char} {previous : Option Char} (hne : m ≠ [])
    (hbegins : Begins bounded L previous (m ++ s))
    (h : ∀ a w, m = a ++ w → a ≠ [] → w ≠ [] → ∀ x, L x → ¬ x <+: w ++ s) :
    countFrom bounded L previous (m ++ s) = 1 + countFrom bounded L m.getLast? s := by
  obtain ⟨c, m, rfl⟩ := List.exists_cons_of_ne_nil hne
  rw [List.cons_append] at hbegins ⊢
  rw [countFrom, if_pos hbegins, countFrom_append, List.getLast?_cons]
  · cases m.getLast? <;> rfl
  · intro a w hm hw hother
    obtain ⟨-, x, hx, hopens⟩ := hother
    exact h (c :: a) w (by rw [hm, List.cons_append]) (by simp) hw x hx hopens

/-- Where no match is counted, none stands. -/
theorem not_infix_of_countFrom_eq_zero {L : Pattern}
    [∀ previous s, Decidable (Begins false L previous s)] {m s : List Char} (hm : L m) (hne : m ≠ [])
    {previous : Option Char} (hcount : countFrom false L previous s = 0) : ¬ m <:+: s := by
  induction s generalizing previous with
  | nil =>
      intro hwithin
      exact hne (List.infix_nil.1 hwithin)
  | cons c s ih =>
      rw [countFrom] at hcount
      intro hwithin
      rcases List.infix_cons_iff.1 hwithin with hopens | hbehind
      · rw [if_pos ⟨by simp, m, hm, hopens⟩] at hcount
        omega
      · exact ih (Nat.eq_zero_of_add_eq_zero_left hcount) hbehind

end Counting

/-! ## Edits -/

namespace Edited

variable {change : List Char → List Char → Prop} {s t : List Char}

/-- A text is edited to itself. -/
theorem refl (change : List Char → List Char → Prop) (s : List Char) : Edited change s s := by
  induction s with
  | nil => exact .nil
  | cons c s ih => exact .keep c ih

/-- Texts are edited one behind the other. -/
theorem append {s' t' : List Char} (h : Edited change s t) (h' : Edited change s' t') :
    Edited change (s ++ s') (t ++ t') := by
  induction h with
  | nil => exact h'
  | keep c _ ih => exact .keep c ih
  | change hchange _ ih =>
      rw [List.append_assoc, List.append_assoc]
      exact .change hchange ih

/-- A change edits the piece as a whole. -/
theorem of_change {m r : List Char} (h : change m r) : Edited change m r := by
  have hedited : Edited change (m ++ []) (r ++ []) := .change h .nil
  rwa [List.append_nil, List.append_nil] at hedited

/-- An edit is undone by the changes the other way round. -/
theorem symm (h : Edited change s t) : Edited (fun r m => change m r) t s := by
  induction h with
  | nil => exact .nil
  | keep c _ ih => exact .keep c ih
  | change hchange _ ih => exact .change hchange ih

/-- If no match runs into the new pieces, then the rest of a match that stands in the second text
stands in the first one, too. -/
theorem prefix_of {L : Pattern} (hsealed : ∀ m r, change m r → Sealed L r) (h : Edited change s t)
    {a w : List Char} (hmatch : L (a ++ w)) (ha : a ≠ []) (hw : w <+: t) : w <+: s := by
  induction h generalizing a w with
  | nil => exact hw
  | @keep c s t _ ih =>
      cases w with
      | nil => exact List.nil_prefix
      | cons d w =>
          obtain ⟨rfl, hrest⟩ := List.cons_prefix_cons.1 hw
          have hmatch' : L ((a ++ [d]) ++ w) := by simpa using hmatch
          exact List.cons_prefix_cons.2 ⟨rfl, ih hmatch' (by simp) hrest⟩
  | change hchange _ _ =>
      cases w with
      | nil => exact List.nil_prefix
      | cons d w => exact absurd hw (hsealed _ _ hchange a (d :: w) hmatch ha (by simp) _)

/-- A match that begins at a kept character begins there in both texts. -/
theorem begins_of {L : Pattern} (hsealed : ∀ m r, change m r → Sealed L r) (h : Edited change s t)
    {c : Char} {x : List Char} (hx : L x) (hopens : x <+: c :: t) : x <+: c :: s := by
  cases x with
  | nil => exact List.nil_prefix
  | cons d x =>
      obtain ⟨rfl, hrest⟩ := List.cons_prefix_cons.1 hopens
      have hmatch : L ([d] ++ x) := hx
      exact List.cons_prefix_cons.2 ⟨rfl, h.prefix_of hsealed hmatch (by simp) hrest⟩

/-- If no match runs into a piece, old or new, then the same matches begin at a kept character. -/
theorem begins_iff {L : Pattern} (hsealed : ∀ m r, change m r → Sealed L m ∧ Sealed L r)
    (h : Edited change s t) {bounded : Bool} {previous previous' : Option Char}
    (hprevious : atWordStart previous = atWordStart previous') (c : Char) :
    Begins bounded L previous (c :: s) ↔ Begins bounded L previous' (c :: t) := by
  rw [Begins, Begins, hprevious]
  refine and_congr_right ?_
  intro _
  constructor
  · rintro ⟨x, hx, hopens⟩
    exact ⟨x, hx, h.symm.begins_of (fun r m hchange => (hsealed m r hchange).1) hx hopens⟩
  · rintro ⟨x, hx, hopens⟩
    exact ⟨x, hx, h.begins_of (fun m r hchange => (hsealed m r hchange).2) hx hopens⟩

end Edited

/-- A match behind a piece in which none begins stands in the rest. -/
theorem Barren.infix_of_append {L : Pattern} {piece s x : List Char} (h : Barren L piece) (hx : L x)
    (hwithin : x <:+: piece ++ s) : x <:+: s := by
  obtain ⟨a, b, heq⟩ := hwithin
  rw [List.append_assoc] at heq
  rcases List.append_eq_append_iff.1 heq with ⟨w, hpiece, hw⟩ | ⟨w, -, rfl⟩
  · cases w with
    | nil => exact ⟨[], b, hw⟩
    | cons c w => exact absurd ⟨b, hw⟩ (h (c :: w) ⟨a, hpiece.symm⟩ (by simp) s x hx)
  · exact ⟨w, b, List.append_assoc ..⟩

/-- A match in the second text stands in the first one, too, if none runs into the new pieces or
begins in them. -/
theorem Edited.infix_of {change : List Char → List Char → Prop} {L : Pattern}
    (hsealed : ∀ m r, change m r → Sealed L r) (hbarren : ∀ m r, change m r → Barren L r)
    {s t x : List Char} (h : Edited change s t) (hx : L x) (hwithin : x <:+: t) : x <:+: s := by
  induction h with
  | nil => exact hwithin
  | keep c h ih =>
      rcases List.infix_cons_iff.1 hwithin with hopens | hbehind
      · exact (h.begins_of hsealed hx hopens).isInfix
      · exact List.infix_cons (ih hbehind)
  | @change m r s t hm _ ih =>
      exact (ih ((hbarren m r hm).infix_of_append hx hwithin)).trans (List.suffix_append m s).isInfix

/-- Changing the piece neither touches a match of the pattern nor adds one. -/
structure Harmless (L : Pattern) (m r : List Char) : Prop where
  sealed : Sealed L m ∧ Sealed L r
  barren : Barren L m ∧ Barren L r
  nonempty : m ≠ [] ∧ r ≠ []
  ending : atWordStart m.getLast? = atWordStart r.getLast?

/-- An edit by harmless changes keeps the number of matches. -/
theorem Edited.countFrom_eq {bounded : Bool} {L : Pattern}
    [∀ previous s, Decidable (Begins bounded L previous s)]
    {change : List Char → List Char → Prop} (hharmless : ∀ m r, change m r → Harmless L m r)
    {s t : List Char} (h : Edited change s t) {previous previous' : Option Char}
    (hprevious : atWordStart previous = atWordStart previous') :
    countFrom bounded L previous s = countFrom bounded L previous' t := by
  induction h generalizing previous previous' with
  | nil => rfl
  | @keep c s t h ih =>
      have hbegins : Begins bounded L previous (c :: s) ↔ Begins bounded L previous' (c :: t) :=
        h.begins_iff (fun m r hchange => (hharmless m r hchange).sealed) hprevious c
      rw [countFrom, countFrom, ih rfl]
      simp only [hbegins]
  | @change m r s t hchange h ih =>
      obtain ⟨-, ⟨hm, hr⟩, ⟨hmne, hrne⟩, hending⟩ := hharmless m r hchange
      rw [countFrom_append_of_barren hm, countFrom_append_of_barren hr]
      refine ih ?_
      rw [List.getLast?_eq_some_getLast hmne, List.getLast?_eq_some_getLast hrne] at hending ⊢
      exact hending

/-- An edit by harmless changes keeps the number of matches of the whole text. -/
theorem Edited.count_eq {bounded : Bool} {L : Pattern}
    [∀ previous s, Decidable (Begins bounded L previous s)]
    {change : List Char → List Char → Prop} (hharmless : ∀ m r, change m r → Harmless L m r)
    {s t : List Char} (h : Edited change s t) : count bounded L s = count bounded L t :=
  h.countFrom_eq hharmless rfl

/-! ## Foreign pieces -/

/-- All matches begin with one character, end with another one and are made of some characters. -/
structure Framed (L : Pattern) (first last : Char) (letters : Char → Prop) : Prop where
  head : ∀ x, L x → x.head? = some first
  getLast : ∀ x, L x → x.getLast? = some last
  letters : ∀ x, L x → ∀ c ∈ x, letters c

/-- Framed matches are not empty. -/
theorem Framed.ne_nil {L : Pattern} {first last : Char} {letters : Char → Prop}
    (h : Framed L first last letters) {x : List Char} (hx : L x) : x ≠ [] := by
  rintro rfl
  cases h.head _ hx

/-- Framed matches may be said to be made of more characters. -/
theorem Framed.mono {L : Pattern} {first last : Char} {letters letters' : Char → Prop}
    (h : Framed L first last letters) (hletters : ∀ c, letters c → letters' c) :
    Framed L first last letters' :=
  ⟨h.head, h.getLast, fun x hx c hc => hletters c (h.letters x hx c hc)⟩

/-- One text alone begins and ends as it does, and is made of its own characters. -/
theorem framed_text {s : List Char} {first last : Char} (hfirst : s.head? = some first)
    (hlast : s.getLast? = some last) : Framed (· = s) first last (· ∈ s) := by
  refine ⟨?_, ?_, ?_⟩
  · rintro _ rfl
    exact hfirst
  · rintro _ rfl
    exact hlast
  · rintro _ rfl c hc
    exact hc

/-- The piece has a character that no match has; no match ends in front of it and none begins behind
it. -/
def Foreign (first last : Char) (letters : Char → Prop) (piece : List Char) : Prop :=
  ∃ u b v, piece = u ++ b :: v ∧ ¬ letters b ∧ last ∉ u ∧ first ∉ v

/-- A piece may have more in front of it with which no match ends. -/
theorem Foreign.append_left {first last : Char} {letters : Char → Prop} {piece w : List Char}
    (h : Foreign first last letters piece) (hw : last ∉ w) :
    Foreign first last letters (w ++ piece) := by
  obtain ⟨u, b, v, rfl, hb, hu, hv⟩ := h
  refine ⟨w ++ u, b, v, by rw [List.append_assoc], hb, ?_, hv⟩
  rw [List.mem_append, not_or]
  exact ⟨hw, hu⟩

/-- A piece may have more behind it in which no match begins. -/
theorem Foreign.append_right {first last : Char} {letters : Char → Prop} {piece w : List Char}
    (h : Foreign first last letters piece) (hw : first ∉ w) :
    Foreign first last letters (piece ++ w) := by
  obtain ⟨u, b, v, rfl, hb, hu, hv⟩ := h
  refine ⟨u, b, v ++ w, by rw [List.append_assoc, List.cons_append], hb, hu, ?_⟩
  rw [List.mem_append, not_or]
  exact ⟨hv, hw⟩

section Framed

variable {L : Pattern} {first last : Char} {letters : Char → Prop}

/-- A text that ends like a match and is made of its characters does not run into a character that
no match has, past characters with which no match ends. -/
theorem not_prefix_of_barrier {w u v : List Char} {b : Char} (hne : w ≠ [])
    (hlast : w.getLast? = some last) (hletters : ∀ c ∈ w, letters c) (hb : ¬ letters b)
    (hu : last ∉ u) : ¬ w <+: u ++ b :: v := by
  intro hopens
  have hmem : last ∈ w := List.mem_of_getLast? hlast
  rcases List.prefix_or_prefix_of_prefix hopens (List.prefix_append u _) with hshort | ⟨q, rfl⟩
  · exact hu (hshort.subset hmem)
  · rw [List.prefix_append_right_inj] at hopens
    cases q with
    | nil => exact hu (by simpa using hmem)
    | cons d q =>
        obtain ⟨rfl, -⟩ := List.cons_prefix_cons.1 hopens
        exact hb (hletters d (by simp))

/-- No match runs past a character that none of them has. -/
theorem Framed.sealed_of_barrier (h : Framed L first last letters) {u v : List Char} {b : Char}
    (hb : ¬ letters b) (hu : last ∉ u) : Sealed L (u ++ b :: v) := by
  intro a w hmatch _ hw s
  rw [List.append_assoc, List.cons_append]
  have hlast : w.getLast? = some last := by
    rw [← h.getLast _ hmatch, List.getLast?_append, List.getLast?_eq_some_getLast hw]
    rfl
  exact not_prefix_of_barrier hw hlast
    (fun c hc => h.letters _ hmatch c (List.mem_append_right a hc)) hb hu

/-- No framed match runs into a foreign piece. -/
theorem Framed.sealed (h : Framed L first last letters) {piece : List Char}
    (hforeign : Foreign first last letters piece) : Sealed L piece := by
  obtain ⟨u, b, v, rfl, hb, hu, -⟩ := hforeign
  exact h.sealed_of_barrier hb hu

/-- No framed match begins in a foreign piece. -/
theorem Framed.barren (h : Framed L first last letters) {piece : List Char}
    (hforeign : Foreign first last letters piece) : Barren L piece := by
  obtain ⟨u, b, v, rfl, hb, hu, hv⟩ := hforeign
  rintro w ⟨front, hfront⟩ hne s x hx hopens
  have hlast := h.getLast x hx
  have hletters := h.letters x hx
  have hxne := h.ne_nil hx
  rcases List.append_eq_append_iff.1 hfront with ⟨u', rfl, rfl⟩ | ⟨v', rfl, hbehind⟩
  · rw [List.append_assoc, List.cons_append] at hopens
    refine not_prefix_of_barrier hxne hlast hletters hb ?_ hopens
    exact fun hmem => hu (List.mem_append_right front hmem)
  cases v' with
  | nil =>
      rw [List.nil_append] at hbehind
      rw [← hbehind, List.cons_append] at hopens
      exact not_prefix_of_barrier (u := []) hxne hlast hletters hb (by simp) hopens
  | cons d v' =>
      -- the match begins behind the barrier, where its first character does not stand
      obtain ⟨rfl, rfl⟩ := List.cons.inj hbehind
      obtain ⟨c, x, rfl⟩ := List.exists_cons_of_ne_nil hxne
      obtain ⟨d', w, rfl⟩ := List.exists_cons_of_ne_nil hne
      obtain ⟨rfl, -⟩ := List.cons_prefix_cons.1 hopens
      obtain rfl : c = first := by simpa using h.head _ hx
      exact hv (by simp)

/-- No match begins in a piece without the first character of matches. -/
theorem Framed.barren_of_notMem (h : Framed L first last letters) {piece : List Char}
    (hfirst : first ∉ piece) : Barren L piece := by
  intro w hw hne s x hx hopens
  obtain ⟨c, x, rfl⟩ := List.exists_cons_of_ne_nil (h.ne_nil hx)
  obtain ⟨d, w, rfl⟩ := List.exists_cons_of_ne_nil hne
  obtain ⟨rfl, -⟩ := List.cons_prefix_cons.1 hopens
  obtain rfl : c = first := by simpa using h.head _ hx
  exact hfirst (hw.subset (by simp))

/-- A foreign piece may be changed to another one that ends in a word if it does. -/
theorem Framed.harmless (h : Framed L first last letters) {m r : List Char}
    (hm : Foreign first last letters m) (hr : Foreign first last letters r)
    (hending : atWordStart m.getLast? = atWordStart r.getLast?) : Harmless L m r := by
  refine ⟨⟨h.sealed hm, h.sealed hr⟩, ⟨h.barren hm, h.barren hr⟩, ?_, hending⟩
  obtain ⟨u, b, v, rfl, -⟩ := hm
  obtain ⟨u', b', v', rfl, -⟩ := hr
  exact ⟨by simp, by simp⟩

end Framed

/-! ## Passes -/

/-- A recogniser whose matches edit their front edits the text. -/
theorem edited_substitute {change : List Char → List Char → Prop} {recognise : Recogniser}
    (h : ∀ previous s replacement rest, recognise previous s = some (replacement, rest) →
      ∃ front, s = front ++ rest ∧ Edited change front replacement)
    (previous : Option Char) (s : List Char) :
    Edited change s (substitute recognise previous s) := by
  fun_induction substitute recognise previous s with
  | case1 => exact .nil
  | case2 previous c cs hnone ih => exact .keep c ih
  | case3 previous c cs replacement rest hsome hlength ih =>
      obtain ⟨front, hfront, hedited⟩ := h _ _ _ _ hsome
      have happend := hedited.append ih
      rwa [← hfront] at happend
  | case4 previous c cs replacement rest hsome hlength ih => exact .keep c ih

/-- The recogniser answers for the matches of a pattern at the start of a word, and with a fixed
text. -/
structure Recognises (recognise : Recogniser) (L : Pattern) (r : List Char) : Prop where
  nonempty : ∀ x, L x → x ≠ []
  some : ∀ previous s replacement rest, recognise previous s = some (replacement, rest) →
    atWordStart previous = true ∧ replacement = r ∧ ∃ m, L m ∧ s = m ++ rest
  none : ∀ previous s, recognise previous s = none → ¬ Begins true L previous s

/-- A pass replaces the matches of the pattern that its recogniser reads. -/
theorem replaced_substitute {recognise : Recogniser} {L : Pattern} {r : List Char}
    (h : Recognises recognise L r) (previous : Option Char) (s : List Char) :
    Replaced L r previous s (substitute recognise previous s) := by
  fun_induction substitute recognise previous s with
  | case1 => exact .nil
  | case2 previous c cs hnone ih => exact .keep (h.none _ _ hnone) ih
  | case3 previous c cs replacement rest hsome hlength ih =>
      obtain ⟨hstart, rfl, m, hm, heq⟩ := h.some _ _ _ _ hsome
      rw [heq, before_append] at ih
      rw [heq, before_append]
      exact .change hstart hm (h.nonempty m hm) ih
  | case4 previous c cs replacement rest hsome hlength ih =>
      -- a match that is not empty leaves less text
      obtain ⟨-, -, m, hm, heq⟩ := h.some _ _ _ _ hsome
      have hpos := List.length_pos_iff.2 (h.nonempty m hm)
      have hsum := congrArg List.length heq
      rw [List.length_append, List.length_cons] at hsum
      omega

/-- A pass edits matches to the new text. -/
theorem Replaced.edited {L : Pattern} {r : List Char} {previous : Option Char} {s t : List Char}
    (h : Replaced L r previous s t) : Edited (fun m r' => L m ∧ r' = r) s t := by
  induction h with
  | nil => exact .nil
  | @keep _ c _ _ _ _ ih => exact .keep c ih
  | change _ hm _ _ ih => exact .change ⟨hm, rfl⟩ ih

/-- A sealed piece is sealed where a word can begin. -/
theorem Sealed.atWord {L : Pattern} {piece : List Char} (h : Sealed L piece) : SealedAtWord L piece :=
  fun a w hmatch ha hw _ => h a w hmatch ha hw

/-- A barren piece is barren where a word can begin. -/
theorem Barren.atWords {L : Pattern} {piece : List Char} (h : Barren L piece) :
    BarrenAtWords L piece :=
  fun a w hpiece hw _ => h w ⟨a, hpiece.symm⟩ hw

/-- No match at the start of a word is counted in a piece that is barren there. -/
theorem countFrom_append_of_barrenAtWords {L : Pattern}
    [∀ previous s, Decidable (Begins true L previous s)] {piece : List Char}
    (h : BarrenAtWords L piece) (s : List Char) (previous : Option Char) :
    countFrom true L previous (piece ++ s) =
      countFrom true L (piece.getLast?.or previous) s := by
  refine countFrom_append ?_
  intro a w hpiece hw hbegins
  obtain ⟨hstart, x, hx, hopens⟩ := hbegins
  refine h a w hpiece hw ?_ s x hx hopens
  -- in front of the piece a word can begin
  have hstart' := hstart rfl
  cases hlast : a.getLast? with
  | none => rfl
  | some c =>
      rw [hlast] at hstart'
      exact hstart'

/-- If no match runs into the new text where a word can begin, then the rest of a match that stands
in the second text stands in the first one, too. -/
theorem Replaced.prefix_of {L : Pattern} {r : List Char} (hsealed : SealedAtWord L r)
    {previous : Option Char} {s t : List Char} (h : Replaced L r previous s t) {a w : List Char}
    (hmatch : L (a ++ w)) (ha : a ≠ []) (hlast : atWordStart a.getLast? = atWordStart previous)
    (hw : w <+: t) : w <+: s := by
  induction h generalizing a w with
  | nil => exact hw
  | @keep previous c s t _ _ ih =>
      cases w with
      | nil => exact List.nil_prefix
      | cons d w =>
          obtain ⟨rfl, hrest⟩ := List.cons_prefix_cons.1 hw
          have hmatch' : L ((a ++ [d]) ++ w) := by simpa using hmatch
          exact List.cons_prefix_cons.2 ⟨rfl, ih hmatch' (by simp) (by simp) hrest⟩
  | change hstart _ _ _ _ =>
      cases w with
      | nil => exact List.nil_prefix
      | cons d w =>
          exact absurd hw (hsealed a (d :: w) hmatch ha (by simp) (hlast.trans hstart) _)

/-- A match that begins at a kept character begins there in both texts. -/
theorem Replaced.begins_of {L : Pattern} {r : List Char} (hsealed : SealedAtWord L r) {c : Char}
    {s t : List Char} (h : Replaced L r (some c) s t) {x : List Char} (hx : L x)
    (hopens : x <+: c :: t) : x <+: c :: s := by
  cases x with
  | nil => exact List.nil_prefix
  | cons d x =>
      obtain ⟨rfl, hrest⟩ := List.cons_prefix_cons.1 hopens
      have hmatch : L ([d] ++ x) := hx
      exact List.cons_prefix_cons.2 ⟨rfl, h.prefix_of hsealed hmatch (by simp) (by simp) hrest⟩

/-- A pass leaves no match of its pattern, if the new text gives rise to none where words begin. -/
theorem Replaced.countFrom_eq_zero_of_words {L : Pattern}
    [∀ previous s, Decidable (Begins true L previous s)] {r : List Char}
    (hsealed : SealedAtWord L r) (hbarren : BarrenAtWords L r) (hne : r ≠ [])
    (hending : ∀ m, L m → atWordStart m.getLast? = atWordStart r.getLast?)
    {previous previous' : Option Char} (hprevious : atWordStart previous = atWordStart previous')
    {s t : List Char} (h : Replaced L r previous s t) : countFrom true L previous' t = 0 := by
  induction h generalizing previous' with
  | nil => rfl
  | @keep previous c s t hnone h ih =>
      have hnone' : ¬ Begins true L previous' (c :: t) := by
        rintro ⟨hstart, x, hx, hopens⟩
        exact hnone ⟨fun _ => hprevious.trans (hstart rfl), x, hx, h.begins_of hsealed hx hopens⟩
      rw [countFrom, if_neg hnone', ih rfl]
  | @change previous m s t _ hm _ _ ih =>
      rw [countFrom_append_of_barrenAtWords hbarren]
      refine ih ?_
      rw [hending m hm, List.getLast?_eq_some_getLast hne]
      rfl

/-- A pass leaves no match of its pattern, if the new text gives rise to none. -/
theorem Replaced.countFrom_eq_zero {L : Pattern}
    [∀ previous s, Decidable (Begins true L previous s)] {r : List Char} (hsealed : Sealed L r)
    (hbarren : Barren L r) (hne : r ≠ [])
    (hending : ∀ m, L m → atWordStart m.getLast? = atWordStart r.getLast?)
    {previous previous' : Option Char} (hprevious : atWordStart previous = atWordStart previous')
    {s t : List Char} (h : Replaced L r previous s t) : countFrom true L previous' t = 0 :=
  h.countFrom_eq_zero_of_words hsealed.atWord hbarren.atWords hne hending hprevious

/-- A pass makes one occurrence of the new text from each match and keeps those that are there. -/
theorem Replaced.countFrom_text {L : Pattern} {r : List Char}
    [∀ previous s, Decidable (Begins true L previous s)]
    [∀ previous s, Decidable (Begins false (· = r) previous s)] (hne : r ≠ []) (hlone : Lone L)
    (hown : Sealed (· = r) r) (hsealed : ∀ m, L m → Sealed (· = r) m)
    (hbarren : ∀ m, L m → Barren (· = r) m) {previous previous' previous'' : Option Char}
    {s t : List Char} (hprevious : atWordStart previous = atWordStart previous')
    (h : Replaced L r previous s t) :
    countFrom false (· = r) previous'' t =
      countFrom true L previous' s + countFrom false (· = r) previous'' s := by
  induction h generalizing previous' previous'' with
  | nil => rfl
  | @keep previous c s t hnone h ih =>
      have hnone' : ¬ Begins true L previous' (c :: s) := by
        rintro ⟨hstart, hmatch⟩
        exact hnone ⟨fun _ => hprevious.trans (hstart rfl), hmatch⟩
      have hbegins : Begins false (· = r) previous'' (c :: s) ↔
          Begins false (· = r) previous'' (c :: t) := by
        refine h.edited.begins_iff (fun m r' hchange => ?_) rfl c
        rw [hchange.2]
        exact ⟨hsealed m hchange.1, hown⟩
      rw [countFrom, countFrom, countFrom, if_neg hnone', ih rfl]
      simp only [hbegins]
      omega
  | @change previous m s t hstart hm hmne _ ih =>
      have hmatch : Begins true L previous' (m ++ s) :=
        ⟨fun _ => hprevious.symm.trans hstart, m, hm, List.prefix_append m s⟩
      have htext : Begins false (· = r) previous'' (r ++ t) :=
        ⟨by simp, r, rfl, List.prefix_append r t⟩
      rw [countFrom_match hne htext, countFrom_match hmne hmatch,
        countFrom_append_of_barren (hbarren m hm), ih rfl, Nat.add_assoc]
      · rw [countFrom_unbounded r.getLast? (m.getLast?.or previous'')]
      · rintro a w rfl ha hw
        exact hlone a w hm ha hw s
      · rintro a w hr ha hw x rfl hopens
        -- the text would begin in itself
        have hshort : w <+: x :=
          List.prefix_of_prefix_length_le (List.prefix_append w t) hopens (by simp [hr])
        exact hown a w hr.symm ha hw [] (by simpa using hshort)

end Vendoring.Rule
