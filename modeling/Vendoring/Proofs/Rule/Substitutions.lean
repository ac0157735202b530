import Vendoring.Proofs.Rule.Pass
import Vendoring.Transformer

/-!
# Substitutions that do not meet

The literal rules of a transformer apply one after the other, and a later one reads what the earlier
ones have written. If all their texts begin with one sign that does not occur further on in them,
and no text that is replaced begins with another text of theirs or the other way round (`Apart`),
then this makes no difference: two passes are one pass that looks for the texts of both
(`Apart.compose`), and it leaves none of them (`Apart.countFrom_eq_zero`). So the order of the rules
does not matter, and nothing changes when they are applied again.

The default substitutions are of this kind: their sign is the `#` of an include line
(`defaultSubstitutions_simultaneous`).
-/

namespace Vendoring

namespace Rule

open Text

/-- Each text becomes its own replacement. -/
def Replacement.ofSubstitutions (substitutions : List Substitution) : Replacement := fun _ m _ r =>
  ∃ x ∈ substitutions, m = x.pattern.toList ∧ r = x.replacement.toList

/-- The texts that are replaced. -/
def Replaceable (substitutions : List Substitution) : Pattern := fun m =>
  ∃ x ∈ substitutions, m = x.pattern.toList

instance (bounded : Bool) (substitutions : List Substitution) (previous : Option Char)
    (s : List Char) : Decidable (Begins bounded (Replaceable substitutions) previous s) :=
  decidable_of_iff ((bounded = true → atWordStart previous = true) ∧
    ∃ x ∈ substitutions, x.pattern.toList <+: s) (and_congr_right fun _ =>
      ⟨fun ⟨x, hx, hopens⟩ => ⟨_, ⟨x, hx, rfl⟩, hopens⟩,
        fun ⟨_, ⟨x, hx, rfl⟩, hopens⟩ => ⟨x, hx, hopens⟩⟩)

/-- The literal rules of the substitutions, one after the other. -/
def substituteAll (substitutions : List Substitution) (s : List Char) : List Char :=
  (substitutions.map fun x => Rule.literal x.pattern x.replacement).foldl (fun s rule => rule.edit s) s

/-- The text begins with the sign, which does not occur further on. -/
def Headed (sign : Char) (s : List Char) : Prop :=
  s.head? = some sign ∧ sign ∉ s.tail

instance (sign : Char) (s : List Char) : Decidable (Headed sign s) :=
  inferInstanceAs (Decidable (_ ∧ _))

/-- Neither text begins with the other one. -/
def Parted (s t : List Char) : Prop :=
  ¬ s <+: t ∧ ¬ t <+: s

instance (s t : List Char) : Decidable (Parted s t) :=
  inferInstanceAs (Decidable (_ ∧ _))

/-- All texts of the substitutions have the sign in front. No text that is replaced begins with
another one or with a replacement, or the other way round. -/
structure Apart (sign : Char) (substitutions : List Substitution) : Prop where
  pattern : ∀ x ∈ substitutions, Headed sign x.pattern.toList
  replacement : ∀ x ∈ substitutions, Headed sign x.replacement.toList
  distinct : ∀ x ∈ substitutions, ∀ y ∈ substitutions, x ≠ y →
    Parted x.pattern.toList y.pattern.toList
  fresh : ∀ x ∈ substitutions, ∀ y ∈ substitutions, Parted x.pattern.toList y.replacement.toList

/-! ## Texts with a sign in front -/

/-- A text with a sign in front is the sign and a rest without it. -/
theorem Headed.exists_cons {sign : Char} {s : List Char} (h : Headed sign s) :
    ∃ w, s = sign :: w ∧ sign ∉ w := by
  obtain ⟨hhead, htail⟩ := h
  cases s with
  | nil => cases hhead
  | cons c w =>
      obtain rfl := Option.some.inj hhead
      exact ⟨w, rfl, htail⟩

/-- A text with a sign in front has characters. -/
theorem Headed.ne_nil {sign : Char} {s : List Char} (h : Headed sign s) : s ≠ [] := by
  obtain ⟨w, rfl, -⟩ := h.exists_cons
  exact List.cons_ne_nil sign w

/-- Such a text does not begin with another character. -/
theorem Headed.ne_append {sign c : Char} {m s behind : List Char} (h : Headed sign m) (hc : sign ≠ c) :
    c :: s ≠ m ++ behind := by
  obtain ⟨w, rfl, -⟩ := h.exists_cons
  intro heq
  exact hc (List.cons.inj heq).1.symm

/-- A text that begins with the sign does not begin further on in another one. -/
theorem Headed.not_prefix_behind {sign : Char} {m s a w : List Char} (h : Headed sign m)
    (hs : Headed sign s) (hsplit : s = a ++ w) (ha : a ≠ []) (hw : w ≠ []) (rest : List Char) :
    ¬ m <+: w ++ rest := by
  obtain ⟨-, hfree⟩ := hs
  obtain ⟨_, a, rfl⟩ := List.exists_cons_of_ne_nil ha
  obtain ⟨c, w, rfl⟩ := List.exists_cons_of_ne_nil hw
  rw [hsplit, List.cons_append, List.tail_cons] at hfree
  intro hopens
  obtain ⟨behind, heq⟩ := hopens
  refine h.ne_append ?_ heq.symm
  rintro rfl
  exact hfree (by simp)

/-- Texts do not open a text together if neither begins with the other one. -/
theorem Parted.append_ne {s t : List Char} (h : Parted s t) (behind behind' : List Char) :
    s ++ behind ≠ t ++ behind' := by
  intro heq
  rcases List.prefix_or_prefix_of_prefix (List.prefix_append s behind)
    (heq ▸ List.prefix_append t behind') with hprefix | hprefix
  · exact h.1 hprefix
  · exact h.2 hprefix

section Sign

variable {sign : Char} {R : Replacement} {n : Nat} {previous : Option Char} {w s t : List Char}

/-- A front without the sign stays. -/
theorem Substituted.of_append (hR : ∀ previous m behind r, R previous m behind r → Headed sign m)
    (hw : sign ∉ w) (h : Substituted R n previous (w ++ s) t) :
    ∃ t', t = w ++ t' ∧ Substituted R n (w.getLast?.or previous) s t' := by
  induction w generalizing previous t with
  | nil => exact ⟨t, rfl, h⟩
  | cons c w ih =>
      obtain ⟨hc, hw⟩ : sign ≠ c ∧ sign ∉ w := by simpa using hw
      rcases h.cases_text with ⟨hs, -⟩ | ⟨_, _, t', hs, rfl, -, hrest⟩ |
        ⟨_, m, r, s', _, -, hs, -, hm, -⟩
      · cases hs
      · obtain ⟨rfl, rfl⟩ := List.cons.inj hs
        obtain ⟨t', rfl, hbehind⟩ := ih hw hrest
        exact ⟨t', rfl, (getLast?_cons_or c w previous).symm ▸ hbehind⟩
      · exact absurd hs ((hR _ _ _ _ hm).ne_append hc)

/-- A front of the outcome without the sign was there before. -/
theorem Substituted.of_append_right (hR : ∀ previous m behind r, R previous m behind r → Headed sign r)
    (hw : sign ∉ w) (h : Substituted R n previous s (w ++ t)) :
    ∃ s', s = w ++ s' ∧ Substituted R n (w.getLast?.or previous) s' t := by
  induction w generalizing previous s with
  | nil => exact ⟨s, rfl, h⟩
  | cons c w ih =>
      obtain ⟨hc, hw⟩ : sign ≠ c ∧ sign ∉ w := by simpa using hw
      rcases h.cases_text with ⟨-, -, ht⟩ | ⟨_, s', _, rfl, ht, -, hrest⟩ |
        ⟨_, m, r, _, t', -, -, ht, hm, -⟩
      · cases ht
      · obtain ⟨rfl, rfl⟩ := List.cons.inj ht
        obtain ⟨s', rfl, hbehind⟩ := ih hw hrest
        exact ⟨s', rfl, (getLast?_cons_or c w previous).symm ▸ hbehind⟩
      · exact absurd ht ((hR _ _ _ _ hm).ne_append hc)

end Sign

/-- One substitution replaces one text. -/
theorem ofSubstitutions_singleton (x : Substitution) : Replacement.ofSubstitutions [x] =
    .ofText x.pattern.toList x.replacement.toList := by
  funext previous m behind r
  simp [Replacement.ofSubstitutions]

/-- Without substitutions, everything stays. -/
theorem Substituted.of_no_substitutions (previous : Option Char) (s : List Char) :
    Substituted (.ofSubstitutions []) 0 previous s s := by
  induction s generalizing previous with
  | nil => exact .nil
  | cons c s ih =>
      refine .keep ?_ (ih (some c))
      intro m behind r hm
      obtain ⟨x, hx, -⟩ := hm
      cases hx

/-- The pass of substitutions does not look at what stands in front of a text. -/
theorem Substituted.of_previous {substitutions : List Substitution} {n : Nat}
    {previous : Option Char} {s t : List Char}
    (h : Substituted (.ofSubstitutions substitutions) n previous s t) (previous' : Option Char) :
    Substituted (.ofSubstitutions substitutions) n previous' s t := by
  cases h with
  | nil => exact .nil
  | keep hnone h => exact .keep hnone h
  | change hchange h => exact .change hchange h

namespace Apart

variable {sign : Char} {substitutions earlier later : List Substitution} {n k : Nat}
  {previous : Option Char} {s t u : List Char}

/-- Some of the substitutions are apart if all are. -/
theorem mono (h : Apart sign substitutions) (hsubset : earlier ⊆ substitutions) : Apart sign earlier :=
  ⟨fun x hx => h.pattern x (hsubset hx), fun x hx => h.replacement x (hsubset hx),
    fun x hx y hy => h.distinct x (hsubset hx) y (hsubset hy),
    fun x hx y hy => h.fresh x (hsubset hx) y (hsubset hy)⟩

/-- What is replaced has the sign in front. -/
theorem headed (h : Apart sign substitutions) (previous : Option Char) (m behind r : List Char)
    (hm : Replacement.ofSubstitutions substitutions previous m behind r) : Headed sign m := by
  obtain ⟨x, hx, rfl, -⟩ := hm
  exact h.pattern x hx

/-- What it becomes has the sign in front. -/
theorem headed_replacement (h : Apart sign substitutions) (previous : Option Char)
    (m behind r : List Char) (hm : Replacement.ofSubstitutions substitutions previous m behind r) :
    Headed sign r := by
  obtain ⟨x, hx, -, rfl⟩ := hm
  exact h.replacement x hx

/-- Substitutions that are apart replace one piece at a place, by one text. -/
theorem sharp (h : Apart sign substitutions) : Sharp (.ofSubstitutions substitutions) := by
  refine ⟨fun hm => (h.headed _ _ _ _ hm).ne_nil, ?_⟩
  intro previous m behind r m' behind' r' hm hm' heq
  obtain ⟨x, hx, rfl, rfl⟩ := hm
  obtain ⟨y, hy, rfl, rfl⟩ := hm'
  by_cases hxy : x = y
  · rw [hxy]
    exact ⟨rfl, rfl⟩
  · exact absurd heq ((h.distinct x hx y hy hxy).append_ne behind behind')

/-! ## Passes one after the other -/

/-- A replacement stays in a pass of any of the substitutions. -/
theorem keep_replacement (h : Apart sign substitutions) (hlater : later ⊆ substitutions)
    {x : Substitution} (hx : x ∈ substitutions)
    (hpass : Substituted (.ofSubstitutions later) n previous (x.replacement.toList ++ s) t) :
    ∃ t', t = x.replacement.toList ++ t' ∧ Substituted (.ofSubstitutions later) n none s t' := by
  obtain ⟨w, hw, hfree⟩ := (h.replacement x hx).exists_cons
  rcases hpass.cases_text with ⟨hs, -⟩ | ⟨c, s', t', hs, rfl, -, hrest⟩ |
    ⟨_, _, _, s', _, -, hs, -, hm, -⟩
  · rw [hw] at hs
    cases hs
  · rw [hw, List.cons_append] at hs
    obtain ⟨rfl, rfl⟩ := List.cons.inj hs
    obtain ⟨t', rfl, hbehind⟩ := hrest.of_append (h.mono hlater).headed hfree
    exact ⟨t', by rw [hw, List.cons_append], hbehind.of_previous none⟩
  · obtain ⟨y, hy, rfl, -⟩ := hm
    exact absurd hs.symm ((h.fresh y (hlater hy) x hx).append_ne s' s)

/-- One of the texts that stands behind a pass, from a character that the pass keeps, stood there in
front of it. -/
theorem of_pattern (h : Apart sign substitutions) (hearlier : earlier ⊆ substitutions)
    {x : Substitution} (hx : x ∈ substitutions) {c : Char} {behind : List Char}
    (hpass : Substituted (.ofSubstitutions earlier) n previous s t)
    (hopens : c :: t = x.pattern.toList ++ behind) :
    ∃ s', c :: s = x.pattern.toList ++ s' ∧
      Substituted (.ofSubstitutions earlier) n none s' behind := by
  obtain ⟨w, hw, hfree⟩ := (h.pattern x hx).exists_cons
  rw [hw, List.cons_append] at hopens
  obtain ⟨rfl, rfl⟩ := List.cons.inj hopens
  obtain ⟨s', rfl, hbehind⟩ := hpass.of_append_right (h.mono hearlier).headed_replacement hfree
  exact ⟨s', by rw [hw, List.cons_append], hbehind.of_previous none⟩

/-- One of the texts that stands in front of a pass, from a character that the pass keeps, stands
there behind it, too. -/
theorem keep_pattern (h : Apart sign substitutions) (hearlier : earlier ⊆ substitutions)
    {x : Substitution} (hx : x ∈ substitutions) {c : Char} {behind : List Char}
    (hpass : Substituted (.ofSubstitutions earlier) n previous s t)
    (hopens : c :: s = x.pattern.toList ++ behind) : ∃ t', c :: t = x.pattern.toList ++ t' := by
  obtain ⟨w, hw, hfree⟩ := (h.pattern x hx).exists_cons
  rw [hw, List.cons_append] at hopens
  obtain ⟨rfl, rfl⟩ := List.cons.inj hopens
  obtain ⟨t', rfl, -⟩ := hpass.of_append (h.mono hearlier).headed hfree
  exact ⟨t', by rw [hw, List.cons_append]⟩

/-- Two passes are one that looks for the texts of both. -/
theorem compose (h : Apart sign (earlier ++ later))
    (hfirst : Substituted (.ofSubstitutions earlier) n none s t)
    (hsecond : Substituted (.ofSubstitutions later) k none t u) :
    Substituted (.ofSubstitutions (earlier ++ later)) (n + k) none s u := by
  have hearlier : earlier ⊆ earlier ++ later := List.subset_append_left earlier later
  have hlater : later ⊆ earlier ++ later := List.subset_append_right earlier later
  -- the passes go on behind different pieces, so the induction is on what is left of the text
  induction hlength : s.length using Nat.strongRecOn generalizing n k s t u with
  | ind length ih =>
  rcases hfirst.cases_text with ⟨rfl, rfl, rfl⟩ | ⟨c, s, t, rfl, rfl, hnone, hfirst'⟩ |
    ⟨n, _, _, s, t, rfl, rfl, rfl, ⟨x, hx, rfl, rfl⟩, hfirst'⟩
  · rcases hsecond.cases_text with ⟨-, rfl, rfl⟩ | ⟨_, _, _, ht, -⟩ | ⟨_, m, _, _, _, -, ht, -, hm, -⟩
    · exact .nil
    · cases ht
    · exact absurd (List.append_eq_nil_iff.1 ht.symm).1 ((h.mono hlater).sharp.nonempty hm)
  · rcases hsecond.cases_text with ⟨ht, -⟩ | ⟨_, _, u, ht, rfl, hnone', hsecond'⟩ |
      ⟨k, _, _, t', u, rfl, ht, rfl, ⟨x, hx, rfl, rfl⟩, hsecond'⟩
    · cases ht
    · -- nothing begins here for either pass
      obtain ⟨rfl, rfl⟩ := List.cons.inj ht
      have hrest := ih s.length (by simp [← hlength]) (hfirst'.of_previous none)
        (hsecond'.of_previous none) rfl
      refine .keep ?_ (hrest.of_previous (some c))
      intro m behind r hm heq
      obtain ⟨x, hx, rfl, rfl⟩ := hm
      rcases List.mem_append.1 hx with hx | hx
      · exact hnone _ behind _ ⟨x, hx, rfl, rfl⟩ heq
      · obtain ⟨t', ht'⟩ := h.keep_pattern hearlier (hlater hx) hfirst' heq
        exact hnone' _ t' _ ⟨x, hx, rfl, rfl⟩ ht'
    · -- the second pass replaces what was there
      obtain ⟨s', hs, hfront⟩ := h.of_pattern hearlier (hlater hx) hfirst' ht
      have hpos := List.length_pos_iff.2 (h.pattern x (hlater hx)).ne_nil
      have hshorter : s'.length < length := by
        rw [← hlength, hs, List.length_append]
        omega
      rw [hs, ← Nat.add_assoc]
      exact .change ⟨x, hlater hx, rfl, rfl⟩
        ((ih s'.length hshorter hfront (hsecond'.of_previous none) rfl).of_previous _)
  · -- the second pass keeps what the first one has written
    obtain ⟨u, rfl, hrest⟩ := h.keep_replacement hlater (hearlier hx) hsecond
    have hpos := List.length_pos_iff.2 (h.pattern x (hearlier hx)).ne_nil
    have hshorter : s.length < length := by
      rw [← hlength, List.length_append]
      omega
    rw [Nat.add_right_comm]
    exact .change ⟨x, hearlier hx, rfl, rfl⟩
      ((ih s.length hshorter (hfirst'.of_previous none) hrest rfl).of_previous _)

/-! ## What a pass replaces and leaves -/

/-- A pass replaces each of the texts. -/
theorem eq_countFrom (h : Apart sign substitutions)
    (hpass : Substituted (.ofSubstitutions substitutions) n previous s t) :
    n = countFrom false (Replaceable substitutions) previous s := by
  induction hpass with
  | nil => rfl
  | @keep n previous c s t hnone _ ih =>
      rw [countFrom, if_neg, Nat.zero_add, ih]
      intro hbegins
      obtain ⟨-, _, ⟨x, hx, rfl⟩, behind, heq⟩ := hbegins
      exact hnone _ behind _ ⟨x, hx, rfl, rfl⟩ heq.symm
  | @change n previous m r s t hm _ ih =>
      obtain ⟨x, hx, rfl, rfl⟩ := hm
      have hbegins : Begins false (Replaceable substitutions) previous (x.pattern.toList ++ s) :=
        ⟨by simp, _, ⟨x, hx, rfl⟩, List.prefix_append _ s⟩
      rw [countFrom_match (h.pattern x hx).ne_nil hbegins, ← ih, Nat.add_comm]
      intro a w hsplit ha hw _ hm
      obtain ⟨y, hy, rfl⟩ := hm
      exact (h.pattern y hy).not_prefix_behind (h.pattern x hx) hsplit ha hw s

/-- None of the texts begins in a replacement. -/
theorem barren (h : Apart sign substitutions) {x : Substitution} (hx : x ∈ substitutions) :
    Barren (Replaceable substitutions) x.replacement.toList := by
  intro w hw hne s _ hm hopens
  obtain ⟨y, hy, rfl⟩ := hm
  obtain ⟨a, hsplit⟩ := hw
  by_cases ha : a = []
  · obtain ⟨behind, heq⟩ := hopens
    obtain rfl : w = x.replacement.toList := by rw [← hsplit, ha, List.nil_append]
    exact (h.fresh y hy x hx).append_ne behind s heq
  · exact (h.pattern y hy).not_prefix_behind (h.replacement x hx) hsplit.symm ha hne s hopens

/-- A pass leaves none of the texts. -/
theorem countFrom_eq_zero (h : Apart sign substitutions)
    (hpass : Substituted (.ofSubstitutions substitutions) n previous s t) (previous' : Option Char) :
    countFrom false (Replaceable substitutions) previous' t = 0 := by
  induction hpass generalizing previous' with
  | nil => rfl
  | @keep n previous c s t hnone hrest ih =>
      rw [countFrom, if_neg, ih]
      intro hbegins
      obtain ⟨-, _, ⟨x, hx, rfl⟩, behind, heq⟩ := hbegins
      obtain ⟨s', hs', -⟩ := h.of_pattern (List.Subset.refl _) hx hrest heq.symm
      exact hnone _ s' _ ⟨x, hx, rfl, rfl⟩ hs'
  | @change n previous m r s t hm _ ih =>
      obtain ⟨x, hx, rfl, rfl⟩ := hm
      rw [countFrom_append_of_barren (h.barren hx), ih]

/-! ## The literal rules -/

/-- The literal rules, one after the other, make one pass. -/
theorem substituted_substituteAll (h : Apart sign substitutions) (s : List Char) :
    ∃ n, Substituted (.ofSubstitutions substitutions) n none s (substituteAll substitutions s) := by
  induction substitutions generalizing s with
  | nil => exact ⟨0, Substituted.of_no_substitutions none s⟩
  | cons x later ih =>
      obtain ⟨n, hfirst⟩ := (replaceAll_eq_iff (h.pattern x (by simp)).ne_nil).1
        (Eq.refl (replaceAll x.pattern.toList x.replacement.toList s))
      obtain ⟨k, hsecond⟩ := ih (h.mono (List.subset_cons_self x later))
        (replaceAll x.pattern.toList x.replacement.toList s)
      rw [← ofSubstitutions_singleton] at hfirst
      exact ⟨n + k, h.compose hfirst hsecond⟩

/-- The literal rules replace each of their texts from the left, and keep everything else. -/
theorem substituteAll_eq_iff (h : Apart sign substitutions) {s t : List Char} :
    substituteAll substitutions s = t ↔ Substituted (.ofSubstitutions substitutions)
      (count false (Replaceable substitutions) s) none s t := by
  obtain ⟨n, hpass⟩ := h.substituted_substituteAll s
  rw [h.eq_countFrom hpass] at hpass
  constructor
  · intro ht
    exact ht ▸ hpass
  · intro hother
    exact (hpass.unique h.sharp hother).2

/-- The literal rules leave none of their texts. -/
theorem not_infix_substituteAll (h : Apart sign substitutions) (s : List Char) {x : Substitution}
    (hx : x ∈ substitutions) : ¬ x.pattern.toList <:+: substituteAll substitutions s := by
  obtain ⟨n, hpass⟩ := h.substituted_substituteAll s
  exact not_infix_of_countFrom_eq_zero ⟨x, hx, rfl⟩ (h.pattern x hx).ne_nil
    (h.countFrom_eq_zero hpass none)

/-- The literal rules change nothing when they are applied again. -/
theorem substituteAll_substituteAll (h : Apart sign substitutions) (s : List Char) :
    substituteAll substitutions (substituteAll substitutions s) = substituteAll substitutions s := by
  obtain ⟨n, hpass⟩ := h.substituted_substituteAll s
  exact (h.substituteAll_eq_iff.1 rfl).eq_of_zero (h.countFrom_eq_zero hpass none)

/-- The order of the literal rules does not matter. -/
theorem substituteAll_perm (h : Apart sign substitutions) (horder : earlier.Perm substitutions)
    (s : List Char) : substituteAll earlier s = substituteAll substitutions s := by
  obtain ⟨n, hpass⟩ := (h.mono horder.subset).substituted_substituteAll s
  obtain ⟨k, hpass'⟩ := h.substituted_substituteAll s
  have hsame : Replacement.ofSubstitutions earlier = .ofSubstitutions substitutions := by
    funext previous m behind r
    simp only [Replacement.ofSubstitutions, horder.mem_iff]
  exact ((hsame ▸ hpass).unique h.sharp hpass').2

end Apart

end Rule

open Rule

/-- A transformer applies its literal rules one after the other to every file, and behind them its
structural rules to the entry point. -/
theorem Transformer.transform_eq_substituteAll (t : Transformer) (text : String) (source : Path) :
    t.transform text source = String.ofList
      ((if t.isEntryPoint source then t.structural else []).foldl (fun s rule => rule.edit s)
        (substituteAll t.literal (Text.unifyLineEnds text.toList))) := by
  rw [transform, edit, rulesFor, List.foldl_append]
  rfl

namespace Settings

/-- The default substitutions are apart, with the number sign in front. -/
theorem apart_defaultSubstitutions : Apart '#' defaultSubstitutions := by
  refine ⟨?_, ?_, ?_, ?_⟩
  all_goals decide +kernel

/-- In any order, the default substitutions make one pass over any text: each occurrence of one of
their texts becomes its own replacement, and everything else is kept. None of the texts is left, and
nothing changes when they are applied again. This is what a transformer with these substitutions
does to every file. -/
theorem defaultSubstitutions_simultaneous {substitutions : List Substitution}
    (horder : substitutions.Perm defaultSubstitutions) (s : List Char) :
    (∀ t, substituteAll substitutions s = t ↔ Substituted (.ofSubstitutions defaultSubstitutions)
      (count false (Replaceable defaultSubstitutions) s) none s t) ∧
    substituteAll substitutions s = substituteAll defaultSubstitutions s ∧
    (∀ x ∈ defaultSubstitutions, ¬ x.pattern.toList <:+: substituteAll substitutions s) ∧
    substituteAll substitutions (substituteAll substitutions s) = substituteAll substitutions s ∧
    ∀ (transformer : Transformer) (text : String) (source : Path),
      transformer.literal = substitutions → Text.unifyLineEnds text.toList = s →
      transformer.transform text source = String.ofList
        ((if transformer.isEntryPoint source then transformer.structural else []).foldl
          (fun s rule => rule.edit s) (substituteAll substitutions s)) := by
  have hapart := apart_defaultSubstitutions
  have hsame := hapart.substituteAll_perm horder
  refine ⟨?_, hsame s, ?_, ?_, ?_⟩
  · intro t
    rw [hsame]
    exact hapart.substituteAll_eq_iff
  · intro x hx
    rw [hsame]
    exact hapart.not_infix_substituteAll s hx
  · rw [hsame, hsame]
    exact hapart.substituteAll_substituteAll s
  · rintro transformer text source rfl rfl
    exact transformer.transform_eq_substituteAll text source

/-- Both directives are replaced at once, also where one stands behind a number sign, in the order
from behind. -/
theorem defaultSubstitutions_simultaneous_sample :
    defaultSubstitutions.reverse.Perm defaultSubstitutions ∧
    substituteAll defaultSubstitutions.reverse
        "##include \"defs.hpp\"#include \"../utils.hpp\"".toList =
      "##include \"hymo_defs.hpp\"#include \"../hymo_utils.hpp\"".toList ∧
    Substituted (.ofSubstitutions defaultSubstitutions) 2 none
      "##include \"defs.hpp\"#include \"../utils.hpp\"".toList
      "##include \"hymo_defs.hpp\"#include \"../hymo_utils.hpp\"".toList ∧
    (∀ x ∈ defaultSubstitutions, ¬ x.pattern.toList <:+:
      "##include \"hymo_defs.hpp\"#include \"../hymo_utils.hpp\"".toList) := by
  have horder : defaultSubstitutions.reverse.Perm defaultSubstitutions := List.reverse_perm _
  obtain ⟨hpass, -, hnone, -⟩ := defaultSubstitutions_simultaneous horder
    "##include \"defs.hpp\"#include \"../utils.hpp\"".toList
  have hsubstitute : substituteAll defaultSubstitutions.reverse
      "##include \"defs.hpp\"#include \"../utils.hpp\"".toList =
      "##include \"hymo_defs.hpp\"#include \"../hymo_utils.hpp\"".toList := by
    decide +kernel
  have hcount : count false (Replaceable defaultSubstitutions)
      "##include \"defs.hpp\"#include \"../utils.hpp\"".toList = 2 := by
    decide +kernel
  refine ⟨horder, hsubstitute, ?_, hsubstitute ▸ hnone⟩
  rw [← hcount]
  exact (hpass _).1 hsubstitute

end Settings

end Vendoring
