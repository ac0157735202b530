import Mathlib.Data.List.DropRight
import Vendoring.VersionControl

/-!
# Labels that a program prints

The label of a checkout is what the program prints to one of two questions, the first one to which
it prints more than white space, or the word for an unknown version if there is none
(`version_label`). Only the ends are trimmed. So the label is never empty, but it has a line feed if
the program printed one between words (`lineFeed_mem_label_iff`).
-/

namespace Vendoring

/-! ## Trimming -/

namespace Text

/-- There is nothing but white space in a text. -/
def Blank (text : String) : Prop :=
  ∀ c ∈ text.toList, isSpace c = true

/-- A text has a line feed with more than white space on both sides. -/
def Breaks (text : String) : Prop :=
  ∃ before after, text.toList = before ++ '\n' :: after ∧
    (∃ c ∈ before, isSpace c = false) ∧ ∃ c ∈ after, isSpace c = false

variable {p : Char → Bool} {s t : List Char}

/-- Both ends are trimmed one after the other. -/
theorem trimBoth_eq (p : Char → Bool) (s : List Char) : trimBoth p s = (s.dropWhile p).rdropWhile p :=
  rfl

/-- Dropping from the front goes no further than to a character that is kept. -/
theorem dropWhile_append_of_exists (h : ∃ c ∈ s, p c = false) :
    (s ++ t).dropWhile p = s.dropWhile p ++ t := by
  have hne : s.dropWhile p ≠ [] := by
    obtain ⟨c, hc, hp⟩ := h
    intro hnil
    rw [List.dropWhile_eq_nil_iff.1 hnil c hc] at hp
    cases hp
  rw [List.dropWhile_append, if_neg (by simpa using hne)]

/-- Dropping from the end goes no further than to a character that is kept. -/
theorem rdropWhile_append_of_exists (h : ∃ c ∈ t, p c = false) :
    (s ++ t).rdropWhile p = s ++ t.rdropWhile p := by
  have hreverse : ∃ c ∈ t.reverse, p c = false := by simpa using h
  rw [List.rdropWhile, List.reverse_append, dropWhile_append_of_exists hreverse, List.reverse_append,
    List.reverse_reverse, List.rdropWhile]

/-- A text is trimmed to nothing just if all of it is in the class. -/
theorem trimBoth_eq_nil_iff : trimBoth p s = [] ↔ ∀ c ∈ s, p c = true := by
  rw [trimBoth_eq, List.rdropWhile_eq_nil_iff]
  constructor
  · intro h
    have hnil : s.dropWhile p = [] := by
      by_contra hne
      have hhead := List.head_dropWhile_not p hne
      rw [h _ (List.head_mem hne)] at hhead
      cases hhead
    exact List.dropWhile_eq_nil_iff.1 hnil
  · intro h c hc
    exact h c ((List.dropWhile_sublist p).subset hc)

/-- Between characters outside of the class nothing is trimmed. -/
theorem mem_trimBoth_of_between {before after : List Char} (c : Char)
    (hbefore : ∃ d ∈ before, p d = false) (hafter : ∃ d ∈ after, p d = false) :
    c ∈ trimBoth p (before ++ c :: after) := by
  have hcons : before.dropWhile p ++ c :: after = (before.dropWhile p ++ [c]) ++ after := by simp
  rw [trimBoth_eq, dropWhile_append_of_exists hbefore, hcons, rdropWhile_append_of_exists hafter]
  simp

/-- A character of the class that is not trimmed has others around it. -/
theorem exists_between_of_mem_trimBoth {c : Char} (hc : p c = true) (h : c ∈ trimBoth p s) :
    ∃ before after, trimBoth p s = before ++ c :: after ∧ (∃ d ∈ before, p d = false) ∧
      ∃ d ∈ after, p d = false := by
  have hne : trimBoth p s ≠ [] := List.ne_nil_of_mem h
  obtain ⟨more, hmore⟩ : trimBoth p s <+: s.dropWhile p := List.rdropWhile_prefix p _
  have hhead : p ((trimBoth p s).head hne) = false := by
    obtain ⟨d, rest, htrimmed⟩ := List.exists_cons_of_ne_nil hne
    have hdropped : s.dropWhile p = d :: (rest ++ more) := by rw [← hmore, htrimmed, List.cons_append]
    have hnot := List.head_dropWhile_not p (l := s) (by simp [hdropped])
    simpa [htrimmed, hdropped] using hnot
  have hlast : ¬ p ((trimBoth p s).getLast hne) = true := List.rdropWhile_last_not p _ hne
  obtain ⟨before, after, hsplit⟩ := List.append_of_mem h
  refine ⟨before, after, hsplit, ?_, ?_⟩
  · cases before with
    | nil => simp [hsplit, hc] at hhead
    | cons d before => exact ⟨d, by simp, by simpa [hsplit] using hhead⟩
  · rcases List.eq_nil_or_concat after with rfl | ⟨after, d, rfl⟩
    · simp [hsplit, hc] at hlast
    · exact ⟨d, by simp, by simpa [hsplit] using hlast⟩

/-- What is trimmed off the ends. -/
theorem exists_trimBoth (p : Char → Bool) (s : List Char) :
    ∃ front back, s = front ++ trimBoth p s ++ back := by
  obtain ⟨back, hback⟩ : trimBoth p s <+: s.dropWhile p := List.rdropWhile_prefix p _
  refine ⟨s.takeWhile p, back, ?_⟩
  rw [List.append_assoc, hback, List.takeWhile_append_dropWhile]

/-- A text is trimmed to nothing exactly if it is blank. -/
theorem trim_eq_empty_iff {text : String} : trim text = "" ↔ Blank text := by
  rw [trim, Blank, ← trimBoth_eq_nil_iff, ← String.toList_inj, String.toList_ofList]
  rfl

/-- Trimming leaves a line feed only between words. -/
theorem breaks_trim_of_mem {text : String} (h : '\n' ∈ (trim text).toList) : Breaks (trim text) := by
  rw [trim, String.toList_ofList] at h
  rw [Breaks, trim, String.toList_ofList]
  exact exists_between_of_mem_trimBoth (by decide) h

/-- A line feed is left behind trimming just if the text breaks. -/
theorem lineFeed_mem_trim_iff {text : String} : '\n' ∈ (trim text).toList ↔ Breaks text := by
  constructor
  · intro h
    obtain ⟨before, after, htrimmed, ⟨c, hc, hword⟩, d, hd, hword'⟩ := breaks_trim_of_mem h
    rw [trim, String.toList_ofList] at htrimmed
    obtain ⟨front, back, htext⟩ := exists_trimBoth isSpace text.toList
    refine ⟨front ++ before, after ++ back, ?_, ⟨c, by simp [hc], hword⟩, d, by simp [hd], hword'⟩
    rw [htext, htrimmed]
    simp
  · rintro ⟨before, after, htext, hbefore, hafter⟩
    rw [trim, String.toList_ofList, htext]
    exact mem_trimBoth_of_between '\n' hbefore hafter

end Text

/-! ## What a program prints -/

namespace VersionControl

/-- The label of a checkout is the answer to the first of two questions that has one. -/
theorem Client.version_label_eq (client : Client) (root : Path) (unknown : String) (tree : Tree) :
    (client.version root unknown tree).label =
      match (client.label root tree).1 with
      | .ok label => label
      | .error _ =>
        match (client.revision root (client.label root tree).2).1 with
        | .ok revision => revision
        | .error _ => unknown := by
  unfold version
  cases client.label root tree with
  | mk result left =>
      cases result with
      | ok label => rfl
      | error failure =>
          simp only
          cases client.revision root left with
          | mk result final => cases result <;> rfl

namespace Program

variable {program : Program} {root : Path} {tree : Tree}

/-- The program runs on a query and reports success, and prints the text. -/
def Prints (program : Program) (query : Query) (root : Path) (tree : Tree) (text : String) : Prop :=
  program.obstacle? root tree = none ∧ ∃ reply, program.reply? = some reply ∧
    (reply root query.arguments tree).1.success = true ∧
    text = Text.decodeLossy (reply root query.arguments tree).1.output

/-- The text from which the label is taken: what is printed to the question for the label, if that
is more than white space, or else to the one for the revision. -/
inductive Answers (program : Program) (root : Path) (tree : Tree) : String → Prop where
  | label {text : String} (hprints : program.Prints .label root tree text)
      (hword : ¬ Text.Blank text) : Answers program root tree text
  | revision {text : String} (hnone : ∀ other, program.Prints .label root tree other →
        Text.Blank other)
      (hprints : program.Prints .revision root (program.client.label root tree).2 text)
      (hword : ¬ Text.Blank text) : Answers program root tree text

/-- A program prints one text to a query. -/
theorem Prints.unique {query : Query} {text text' : String}
    (h : program.Prints query root tree text) (h' : program.Prints query root tree text') :
    text' = text := by
  obtain ⟨-, reply, hreply, -, rfl⟩ := h
  obtain ⟨-, reply', hreply', -, rfl⟩ := h'
  obtain rfl := Option.some.inj (hreply.symm.trans hreply')
  rfl

/-- The label is taken from one text. -/
theorem Answers.unique {text text' : String} (h : program.Answers root tree text)
    (h' : program.Answers root tree text') : text' = text := by
  cases h with
  | label hprints hword =>
      cases h' with
      | label hprints' hword' => exact hprints.unique hprints'
      | revision hnone => exact absurd (hnone _ hprints) hword
  | revision hnone hprints hword =>
      cases h' with
      | label hprints' hword' => exact absurd (hnone _ hprints') hword'
      | revision hnone' hprints' hword' => exact hprints.unique hprints'

/-- The answer to a query is what the program prints, trimmed. -/
theorem ask_eq_ok_iff (program : Program) (query : Query) (root : Path) (tree : Tree)
    (answer : String) :
    (program.ask query root tree).1 = .ok answer ↔
      ∃ text, program.Prints query root tree text ∧ answer = Text.trim text := by
  unfold ask Prints
  cases hobstacle : program.obstacle? root tree with
  | some cause => simp
  | none =>
      cases hreply : program.reply? with
      | none => simp
      | some reply =>
          cases hsuccess : (reply root query.arguments tree).1.success with
          | false => simp [hsuccess]
          | true =>
              simp only [hsuccess, if_true, Option.some.injEq]
              constructor
              · intro h
                exact ⟨_, ⟨trivial, reply, rfl, hsuccess, rfl⟩, (Except.ok.inj h).symm⟩
              · rintro ⟨text, ⟨-, other, rfl, -, rfl⟩, rfl⟩
                rfl

/-- The answer to a query that must have one is not empty. -/
theorem askSome_eq_ok_iff (program : Program) (query : Query) (root : Path) (tree : Tree)
    (answer : String) :
    (program.askSome query root tree).1 = .ok answer ↔
      ∃ text, program.Prints query root tree text ∧ ¬ Text.Blank text ∧ answer = Text.trim text := by
  have hask := program.ask_eq_ok_iff query root tree
  have hsome : (program.askSome query root tree).1 = .ok answer ↔
      (program.ask query root tree).1 = .ok answer ∧ answer ≠ "" := by
    unfold askSome
    cases program.ask query root tree with
    | mk result left =>
        cases result with
        | error failure => simp
        | ok found =>
            constructor
            · intro h
              simp only at h
              split at h
              · cases h
              · rename_i hne
                obtain rfl := Except.ok.inj h
                exact ⟨rfl, by simpa using hne⟩
            · rintro ⟨h, hne⟩
              obtain rfl := Except.ok.inj h
              simp [hne]
  rw [hsome, hask]
  constructor
  · rintro ⟨⟨text, hprints, rfl⟩, hne⟩
    exact ⟨text, hprints, fun hblank => hne (Text.trim_eq_empty_iff.2 hblank), rfl⟩
  · rintro ⟨text, hprints, hword, rfl⟩
    exact ⟨⟨text, hprints, rfl⟩, fun hempty => hword (Text.trim_eq_empty_iff.1 hempty)⟩

/-- The label is taken from what is printed, or it is the word for an unknown version. -/
theorem version_label (program : Program) (root : Path) (unknown : String) (tree : Tree) :
    (∃ text, program.Answers root tree text ∧
        (program.client.version root unknown tree).label = Text.trim text) ∨
      (∀ text, ¬ program.Answers root tree text) ∧
        (program.client.version root unknown tree).label = unknown := by
  have hlabel : ∀ answer, (program.client.label root tree).1 = .ok answer ↔ _ :=
    program.askSome_eq_ok_iff .label root tree
  have hrevision : ∀ answer, (program.client.revision root (program.client.label root tree).2).1 =
      .ok answer ↔ _ := program.askSome_eq_ok_iff .revision root (program.client.label root tree).2
  rw [Client.version_label_eq]
  cases hask : (program.client.label root tree).1 with
  | ok label =>
      obtain ⟨text, hprints, hword, rfl⟩ := (hlabel label).1 hask
      exact Or.inl ⟨text, .label hprints hword, rfl⟩
  | error failure =>
      have hnone : ∀ other, program.Prints .label root tree other → Text.Blank other := by
        intro other hprints
        by_contra hword
        cases hask.symm.trans ((hlabel _).2 ⟨other, hprints, hword, rfl⟩)
      cases hasked : (program.client.revision root (program.client.label root tree).2).1 with
      | ok revision =>
          obtain ⟨text, hprints, hword, rfl⟩ := (hrevision revision).1 hasked
          exact Or.inl ⟨text, .revision hnone hprints hword, rfl⟩
      | error failure' =>
          refine Or.inr ⟨fun text hanswers => ?_, rfl⟩
          cases hanswers with
          | label hprints hword => exact hword (hnone text hprints)
          | revision _ hprints hword =>
              cases hasked.symm.trans ((hrevision _).2 ⟨text, hprints, hword, rfl⟩)

/-- A label that is found is never empty. It has a line feed just if the text that it is taken from
breaks. -/
theorem lineFeed_mem_label_iff (program : Program) (root : Path) {unknown : String} (tree : Tree)
    (hunknown : unknown ≠ "") (hline : '\n' ∉ unknown.toList) :
    (program.client.version root unknown tree).label ≠ "" ∧
      ('\n' ∈ (program.client.version root unknown tree).label.toList ↔
        ∃ text, program.Answers root tree text ∧ Text.Breaks text) := by
  rcases program.version_label root unknown tree with ⟨text, hanswers, hlabel⟩ | ⟨hnone, hlabel⟩ <;>
    rw [hlabel]
  · refine ⟨?_, ?_⟩
    · intro hempty
      have hblank := Text.trim_eq_empty_iff.1 hempty
      cases hanswers with
      | label _ hword => exact hword hblank
      | revision _ _ hword => exact hword hblank
    · rw [Text.lineFeed_mem_trim_iff]
      constructor
      · exact fun hbreaks => ⟨text, hanswers, hbreaks⟩
      · rintro ⟨other, hother, hbreaks⟩
        exact hanswers.unique hother ▸ hbreaks
  · exact ⟨hunknown, fun h => absurd h hline, fun ⟨text, hanswers, _⟩ => absurd hanswers (hnone text)⟩

end Program

end VersionControl

end Vendoring
