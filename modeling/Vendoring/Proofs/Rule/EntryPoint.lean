import Mathlib.Data.List.Infix
import Vendoring.Proofs.Rule.Pass
import Vendoring.Proofs.Rule.Pattern

/-!
# The rule for the entry point

The signature that the rule writes is no signature of an entry point, if its function has another
name than `main`, and none can run into it or begin in it, whatever stands around it: between `int`
and `main` there is white space only, and an identifier has none. So the rule replaces each
signature, leaves none and changes nothing when it is applied again (`entryPoint_renamed`).
-/

namespace Vendoring.Rule

open Text

/-- A character of an identifier: an ASCII letter, a digit or an underscore. -/
def isNameChar (c : Char) : Bool :=
  c.isAlphanum || c == '_'

/-- An identifier: letters, digits and underscores, of which the first is no digit. -/
structure Identifier (name : List Char) : Prop where
  nonempty : name ≠ []
  chars : ∀ c ∈ name, isNameChar c = true
  first : name.head?.any Char.isDigit = false

/-! ## Identifiers -/

/-- The characters of names are ASCII. -/
theorem toNat_lt_of_isNameChar {c : Char} (h : isNameChar c = true) : c.toNat < 128 := by
  have hval : c.toNat = c.val.toNat := rfl
  have hZ : 'Z'.val.toNat = 90 := rfl
  have hz : 'z'.val.toNat = 122 := rfl
  have hnine : '9'.val.toNat = 57 := rfl
  unfold isNameChar at h
  delta Char.isAlphanum Char.isAlpha Char.isUpper Char.isLower Char.isDigit at h
  simp only [Bool.or_eq_true, Bool.and_eq_true, decide_eq_true_eq, beq_iff_eq,
    UInt32.le_iff_toNat_le, ge_iff_le] at h
  rcases h with h | rfl
  · omega
  · decide

/-- The characters of an identifier are word characters and no white space. -/
theorem word_of_isNameChar {c : Char} (h : isNameChar c = true) :
    isWord c = true ∧ isSpace c = false := by
  have hall : ∀ n < 128, isNameChar (Char.ofNat n) = true →
      isWord (Char.ofNat n) = true ∧ isSpace (Char.ofNat n) = false := by
    decide +kernel
  have hchar := hall c.toNat (toNat_lt_of_isNameChar h)
  rw [Char.ofNat_toNat] at hchar
  exact hchar h

/-- White space is not in names. -/
theorem isNameChar_of_isSpace {c : Char} (h : isSpace c = true) : isNameChar c = false := by
  cases hname : isNameChar c with
  | false => rfl
  | true =>
      rw [(word_of_isNameChar hname).2] at h
      cases h

/-- A name in front of a parenthesis is the name that opens the text, and the parenthesis is the
sign behind it. -/
theorem eq_of_parenthesis {v name b s t : List Char} {c : Char} (hv : ∀ c ∈ v, isNameChar c = true)
    (hname : ∀ c ∈ name, isNameChar c = true) (hb : Spaces b) (hc : isNameChar c = false)
    (h : v ++ '(' :: s = name ++ (b ++ c :: t)) : v = name ∧ '(' = c := by
  cases b with
  | nil =>
      obtain ⟨hsame, hsign, -⟩ := eq_of_runs hv hname (by decide) hc h
      exact ⟨hsame, hsign⟩
  | cons d b =>
      have hd : isSpace d = true := hb d (by simp)
      obtain ⟨-, rfl, -⟩ := eq_of_runs hv hname (by decide) (isNameChar_of_isSpace hd) h
      cases hd

/-- Behind a blank, an identifier begins where white space ends. -/
theorem Identifier.of_blank {function s a t : List Char} {c : Char} (h : Identifier function)
    (ha : Spaces a) (hc : isSpace c = false) (heq : ' ' :: (function ++ s) = a ++ c :: t) :
    function ++ s = c :: t := by
  obtain ⟨d, rest, hfunction⟩ := List.exists_cons_of_ne_nil h.nonempty
  have hd : isSpace d = false := (word_of_isNameChar (h.chars d (by simp [hfunction]))).2
  rw [hfunction] at heq ⊢
  obtain ⟨-, rfl, rfl⟩ := eq_of_runs spaces_blank ha hd hc heq
  rfl

/-! ## The signature that is written -/

/-- The signature that is written, with its first characters apart. -/
theorem signature_eq (function : List Char) :
    signature function =
      'i' :: 'n' :: 't' :: ' ' :: (function ++ '(' :: "int argc, char** argv)".toList) := rfl

/-- No signature of an entry point runs into the one that is written. -/
theorem sealed_signature {function : List Char} (h : Identifier function) :
    Sealed Signature (signature function) := by
  intro a w hmatch ha hw s hopens
  obtain ⟨i, w, rfl⟩ := List.exists_cons_of_ne_nil hw
  rw [signature_eq, List.cons_append, List.cons_prefix_cons] at hopens
  obtain ⟨rfl, z, hz⟩ := hopens
  rcases hmatch.behind ha with ⟨b, rest, hb, rfl⟩ | ⟨d, e, rest, hd, he, rfl⟩
  · simp only [List.cons_append, List.append_assoc, List.cons.injEq, true_and] at hz
    exact absurd (eq_of_spaces hb spaces_nil (by decide) (by decide) hz) (by decide)
  · simp only [List.cons_append, List.append_assoc, List.cons.injEq, true_and] at hz
    have hname := h.of_blank hd (by decide) hz.symm
    have hargc : ∀ c ∈ ['a', 'r', 'g', 'c'], isNameChar c = true :=
      List.all_eq_true.1 (by decide)
    exact absurd (eq_of_parenthesis h.chars hargc he (by decide) hname).2 (by decide)

/-- A text that ends two texts ends the second one, or covers it. -/
theorem suffix_append_cases {w p q : List Char} (h : w <:+ p ++ q) :
    w <:+ q ∨ ∃ v, v <:+ p ∧ v ≠ [] ∧ w = v ++ q := by
  obtain ⟨u, hu⟩ := h
  rcases List.append_eq_append_iff.1 hu with ⟨v, rfl, rfl⟩ | ⟨v, -, rfl⟩
  · cases v with
    | nil => exact Or.inl List.suffix_rfl
    | cons c v => exact Or.inr ⟨c :: v, List.suffix_append u (c :: v), by simp, rfl⟩
  · exact Or.inl (List.suffix_append v w)

/-- No signature of an entry point begins in the one that is written. -/
theorem barren_signature {function : List Char} (h : Identifier function)
    (hmain : function ≠ ['m', 'a', 'i', 'n']) : Barren Signature (signature function) := by
  intro w hw hne s x hx hopens
  obtain ⟨a, b, rest, ha, hane, hb, hstart⟩ := hx.front hopens
  have hfirst : w.head? = some 'i' := by
    obtain ⟨c, w, rfl⟩ := List.exists_cons_of_ne_nil hne
    rw [(List.cons.inj hstart).1]
    rfl
  have hsplit : signature function =
      ['i', 'n', 't', ' '] ++ (function ++ "(int argc, char** argv)".toList) := rfl
  rw [hsplit] at hw
  rcases suffix_append_cases hw with hw | ⟨v, hv, hvne, rfl⟩
  · rcases suffix_append_cases hw with hw | ⟨v, hv, hvne, rfl⟩
    · -- among the parameters stands one `i`, in front of the count of the arguments
      have hends : ∀ w ∈ "(int argc, char** argv)".toList.tails, w.head? = some 'i' →
          w = 'i' :: 'n' :: 't' :: ([' '] ++ 'a' :: "rgc, char** argv)".toList) := by
        decide
      rw [hends w ((List.mem_tails w _).2 hw) hfirst] at hstart
      simp only [List.cons_append, List.append_assoc, List.cons.injEq, true_and] at hstart
      exact absurd (eq_of_spaces spaces_blank ha (by decide) (by decide) hstart) (by decide)
    · -- in the name stands no white space
      obtain ⟨d, a, rfl⟩ := List.exists_cons_of_ne_nil hane
      have hd : isSpace d = true := ha d (by simp)
      have hchars : ∀ c ∈ v, isNameChar c = true := fun c hc => h.chars c (hv.subset hc)
      have hint : ∀ c ∈ ['i', 'n', 't'], isNameChar c = true :=
        List.all_eq_true.1 (by decide)
      have hparenthesis := eq_of_parenthesis hchars hint spaces_nil (isNameChar_of_isSpace hd)
        (by simpa using hstart)
      rw [← hparenthesis.2] at hd
      cases hd
  · have hends : ∀ v ∈ ['i', 'n', 't', ' '].tails, v.head? = some 'i' → v = ['i', 'n', 't', ' '] := by
      decide
    have hv' : v.head? = some 'i' := by
      rw [← hfirst, List.head?_append_of_ne_nil v hvne]
    rw [hends v ((List.mem_tails v _).2 hv) hv'] at hstart
    simp only [List.cons_append, List.append_assoc, List.nil_append, List.cons.injEq, true_and] at hstart
    have hname := h.of_blank ha (by decide) hstart
    have hmain' : ∀ c ∈ ['m', 'a', 'i', 'n'], isNameChar c = true :=
      List.all_eq_true.1 (by decide)
    exact hmain (eq_of_parenthesis h.chars hmain' hb (by decide) hname).1

/-! ## The rule -/

/-- For an identifier other than `main`, the rule leaves no signature. -/
theorem count_edit_entryPoint {naming : Naming} (hname : Identifier naming.entryFunction.toList)
    (hmain : naming.entryFunction.toList ≠ ['m', 'a', 'i', 'n']) (s : List Char) :
    count true Signature ((Rule.entryPoint naming).edit s) = 0 := by
  have hreplaced := replaced_substitute (recognises_signature naming.entryFunction.toList) none s
  refine hreplaced.countFrom_eq_zero (sealed_signature hname) (barren_signature hname hmain)
    (by simp [signature]) ?_ rfl
  intro m hm
  rw [framed_signature.getLast m hm, signature_eq]
  simp [List.getLast?_cons]

/-- The rule replaces each signature by the one of its function and keeps everything else; no
signature is left, and nothing changes when the rule is applied again. -/
theorem entryPoint_renamed {naming : Naming} (hname : Identifier naming.entryFunction.toList)
    (hmain : naming.entryFunction ≠ "main") (text : String) :
    (∀ out : String, (Rule.entryPoint naming).apply text = out ↔
      Substituted (.ofPattern Signature (signature naming.entryFunction.toList))
        (count true Signature text.toList) none text.toList out.toList) ∧
    count true Signature ((Rule.entryPoint naming).apply text).toList = 0 ∧
    (Rule.entryPoint naming).apply ((Rule.entryPoint naming).apply text) =
      (Rule.entryPoint naming).apply text := by
  have hrecognises := recognises_signature naming.entryFunction.toList
  have hpass : ∀ s t, (Rule.entryPoint naming).edit s = t ↔
      Substituted (.ofPattern Signature (signature naming.entryFunction.toList))
        (count true Signature s) none s t :=
    fun s t => hrecognises.substitute_eq_iff prefixFree_signature lone_signature
  have hnone : ∀ s, count true Signature ((Rule.entryPoint naming).edit s) = 0 :=
    count_edit_entryPoint hname fun h => hmain (String.toList_inj.1 h)
  refine ⟨?_, ?_, ?_⟩
  · intro out
    rw [apply_eq_iff]
    exact hpass text.toList out.toList
  · rw [toList_apply]
    exact hnone text.toList
  · rw [apply_eq_iff, toList_apply]
    exact ((hpass _ _).1 rfl).eq_of_zero (hnone text.toList)

/-- Signatures with odd white space, stars and brackets, one behind the other. -/
def sampleSignatures : String :=
  "int\tmain (int argc , char * *argv);int main(int argc,char*argv[ ] )int main(int argc, char argv)"

/-- Two signatures with odd white space are renamed, and one without stars is not. -/
theorem entryPoint_renamed_sample :
    Identifier "maint".toList ∧ "maint" ≠ "main" ∧
    (Rule.entryPoint { entryFunction := "maint" }).apply sampleSignatures =
      "int maint(int argc, char** argv);int maint(int argc, char** argv)int main(int argc, char argv)" ∧
    Substituted (.ofPattern Signature (signature "maint".toList)) 2 none sampleSignatures.toList
      ((Rule.entryPoint { entryFunction := "maint" }).apply sampleSignatures).toList ∧
    count true Signature
      ((Rule.entryPoint { entryFunction := "maint" }).apply sampleSignatures).toList = 0 := by
  have hname : Identifier "maint".toList :=
    ⟨by decide, List.all_eq_true.1 (by decide), by decide⟩
  have hmain : "maint" ≠ "main" := by decide
  have hcount : count true Signature sampleSignatures.toList = 2 := by decide +kernel
  obtain ⟨hpass, hnone, -⟩ :=
    @entryPoint_renamed { entryFunction := "maint" } hname hmain sampleSignatures
  rw [hcount] at hpass
  refine ⟨hname, hmain, ?_, (hpass _).1 rfl, hnone⟩
  decide +kernel

end Vendoring.Rule
