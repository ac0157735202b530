import Vendoring.Proofs.Rule.Substitutions

/-!
# Texts that differ in their line ends

A checkout may have a carriage return in front of any of its line feeds (`Returned`). If the text
had none there before, then exactly the texts that arise in this way become the text when line ends
are unified (`unifyLineEnds_eq_iff`). Every transformation unifies line ends before any rule sees
the text, so it makes the same of all of them (`transform_returned`).
-/

namespace Vendoring

namespace Text

/-- The second text is the first one with carriage returns in front of some line feeds. -/
inductive Returned : List Char → List Char → Prop
  | nil : Returned [] []
  | keep {s t : List Char} (c : Char) (h : Returned s t) : Returned (c :: s) (c :: t)
  | insert {s t : List Char} (h : Returned s t) : Returned ('\n' :: s) ('\r' :: '\n' :: t)

/-- A text has no line feed behind a carriage return. -/
def Unreturned (s : List Char) : Prop :=
  ¬ ['\r', '\n'] <:+: s

/-- A text is itself with no carriage return inserted. -/
theorem Returned.refl (s : List Char) : Returned s s := by
  induction s with
  | nil => exact .nil
  | cons c s ih => exact .keep c ih

/-- Behind its first character a text has no carriage return in front of a line feed if it has
none. -/
theorem Unreturned.of_cons {c : Char} {s : List Char} (h : Unreturned (c :: s)) : Unreturned s :=
  fun hs => h (hs.trans (List.suffix_cons c s).isInfix)

/-- Only a line feed begins a text that begins with one behind inserted carriage returns. -/
theorem Returned.head_eq {s t : List Char} (h : Returned s ('\n' :: t)) : ∃ s', s = '\n' :: s' := by
  cases h with
  | keep _ h => exact ⟨_, rfl⟩

/-- Unifying the line ends takes the carriage returns out again. -/
theorem Returned.substituted {s t : List Char} (h : Returned s t) (hs : Unreturned s)
    (previous : Option Char) :
    ∃ n, Rule.Substituted (.ofText ['\r', '\n'] ['\n']) n previous t s := by
  induction h generalizing previous with
  | nil => exact ⟨0, .nil⟩
  | @keep s t c h ih =>
      obtain ⟨n, hpass⟩ := ih hs.of_cons (some c)
      refine ⟨n, .keep ?_ hpass⟩
      -- two characters that are kept would stand behind each other in the first text, too
      rintro m behind r ⟨rfl, rfl⟩ heq
      obtain ⟨rfl, rfl⟩ := List.cons.inj heq
      obtain ⟨s', rfl⟩ := h.head_eq
      exact hs ⟨[], s', rfl⟩
  | @insert s t h ih =>
      obtain ⟨n, hpass⟩ := ih hs.of_cons (some '\n')
      have hfirst : ['\r', '\n'] = ['\r', '\n'] ∧ ['\n'] = ['\n'] := ⟨rfl, rfl⟩
      exact ⟨n + 1, .change (m := ['\r', '\n']) (r := ['\n']) hfirst hpass⟩

/-- A text with unified line ends lacks carriage returns only. -/
theorem returned_of_substituted {n : Nat} {previous : Option Char} {s t : List Char}
    (h : Rule.Substituted (.ofText ['\r', '\n'] ['\n']) n previous t s) :
    Returned s t := by
  induction h with
  | nil => exact .nil
  | @keep _ _ c _ _ _ _ ih => exact .keep c ih
  | change hm _ ih =>
      obtain ⟨rfl, rfl⟩ := hm
      exact .insert ih

/-- A text without line feeds behind carriage returns comes out of exactly those texts that have
them in front of some of its line feeds. -/
theorem unifyLineEnds_eq_iff {s t : List Char} (hs : Unreturned s) :
    unifyLineEnds t = s ↔ Returned s t := by
  rw [unifyLineEnds, Rule.replaceAll_eq_iff (by simp)]
  constructor
  · rintro ⟨n, hpass⟩
    exact returned_of_substituted hpass
  · intro h
    exact h.substituted hs none

end Text

open Text

/-- A transformation makes the same of all texts that have carriage returns in front of some line
feeds of one text, also for the entry point. -/
theorem Transformer.transform_returned (t : Transformer) (source : Path) {x y : String}
    (hx : Unreturned x.toList) (h : Returned x.toList y.toList) :
    t.transform y source = t.transform x source := by
  have hself := (unifyLineEnds_eq_iff hx).2 (Returned.refl x.toList)
  have hother := (unifyLineEnds_eq_iff hx).2 h
  rw [transform, transform, edit, edit, hself, hother]

end Vendoring
