import Mathlib.Data.List.DropRight
import Vendoring.Proofs.Transformer.Header

/-!
# What the adapter is

The adapter is written from configured texts, which may have line feeds in them, and is then given
one empty line in front and one line feed behind. Whatever the texts are, it begins and ends so: its
lines begin with its namespace and do not end in a line feed. Behind a text that ends its last line
it stands on lines of its own (`FragmentContext.adapter_spec`).
-/

namespace Vendoring

open Text

/-! ## Line feeds at the end -/

namespace Text

/-- Cutting a sign from the end leaves a text that does not end in it. -/
theorem exists_dropEndWhile (c : Char) (s : List Char) :
    ∃ n, s = dropEndWhile (· == c) s ++ List.replicate n c ∧
      (dropEndWhile (· == c) s).getLast? ≠ some c := by
  induction s using List.reverseRecOn with
  | nil => exact ⟨0, rfl, by simp [dropEndWhile]⟩
  | append_singleton s d ih =>
      by_cases hd : d = c
      · subst hd
        obtain ⟨n, hsplit, hlast⟩ := ih
        rw [dropEndWhile_append_of _ _ _ (by simp)]
        refine ⟨n + 1, ?_, hlast⟩
        rw [List.replicate_succ', ← List.append_assoc, ← hsplit]
      · rw [dropEndWhile_append_of_not _ _ _ (by simpa using hd)]
        exact ⟨0, by simp, by simpa using hd⟩

/-- Nothing is dropped from a text that ends in something else. -/
theorem dropEndWhile_of_getLast? {c : Char} {s : List Char} (h : s.getLast? ≠ some c) :
    dropEndWhile (· == c) s = s := by
  obtain ⟨n, hsplit, -⟩ := exists_dropEndWhile c s
  cases n with
  | zero => simpa using hsplit.symm
  | succ n =>
      rw [List.replicate_succ', ← List.append_assoc] at hsplit
      rw [hsplit, List.getLast?_concat] at h
      exact absurd rfl h

/-- A text without a sign that begins another one still does so when that sign is cut from its
end. -/
theorem prefix_dropEndWhile {c : Char} {sign s : List Char} (hsign : c ∉ sign) (h : sign <+: s) :
    sign <+: dropEndWhile (· == c) s := by
  obtain ⟨n, hsplit, -⟩ := exists_dropEndWhile c s
  rw [hsplit] at h
  rcases List.prefix_or_prefix_of_prefix h (List.prefix_append _ _) with hbegins | ⟨rest, hrest⟩
  · exact hbegins
  · rw [← hrest, List.prefix_append_right_inj] at h
    have hnil : rest = [] := by
      refine List.eq_nil_iff_forall_not_mem.2 fun d hd => hsign ?_
      obtain rfl := List.eq_of_mem_replicate (h.subset hd)
      rw [← hrest]
      exact List.mem_append_right _ hd
    rw [← hrest, hnil, List.append_nil]

end Text

/-! ## The adapter -/

namespace FragmentContext

/-- The text of the adapter begins with its namespace and ends with a comment on it. -/
theorem adapterText_eq (c : FragmentContext) :
    (∃ rest, c.adapterText = "namespace " ++ rest) ∧
      ∃ front, c.adapterText =
        front ++ "\x7d  // namespace " ++ c.adapterNamespace ++ "\n" := by
  unfold adapterText
  constructor
  · simp only [String.append_assoc]
    exact ⟨_, rfl⟩
  · exact ⟨_, rfl⟩

/-- Unifying its line ends leaves the namespace at the beginning. -/
theorem prefix_unifyLineEnds (c : FragmentContext) :
    "namespace ".toList <+: unifyLineEnds c.adapterText.toList := by
  obtain ⟨⟨rest, hrest⟩, -⟩ := c.adapterText_eq
  rw [(returned_unifyLineEnds _).prefix_iff (by decide) (by decide), hrest, String.toList_append]
  exact List.prefix_append _ _

/-- Between an empty line in front and the line feed at its end, the adapter has its text with
single line feeds, less those at the end of the text. -/
theorem toList_adapter (c : FragmentContext) : c.adapter.toList =
    '\n' :: dropEndWhile (· == '\n') (unifyLineEnds c.adapterText.toList) ++ ['\n'] := by
  obtain ⟨rest, hrest⟩ := c.prefix_unifyLineEnds
  rw [adapter, String.toList_ofList, trimBoth, ← hrest]
  rfl

/-- A text without carriage returns, of which the namespace does not end in a line feed, stands in
the adapter as it is. -/
theorem toList_adapter_of_notMem {c : FragmentContext} (hreturn : '\r' ∉ c.adapterText.toList)
    (hfeed : c.adapterNamespace.toList.getLast? ≠ some '\n') :
    c.adapter.toList = '\n' :: c.adapterText.toList := by
  have hunified : unifyLineEnds c.adapterText.toList = c.adapterText.toList := by
    refine Rule.replaceAll_of_absent ?_ _
    intro hpattern
    exact hreturn (hpattern.subset (by simp))
  obtain ⟨-, front, hfront⟩ := c.adapterText_eq
  have htext : c.adapterText.toList =
      (front.toList ++ "\x7d  // namespace ".toList ++ c.adapterNamespace.toList) ++ ['\n'] := by
    rw [hfront]
    simp only [String.toList_append]
    rfl
  have hlast : (front.toList ++ "\x7d  // namespace ".toList ++
      c.adapterNamespace.toList).getLast? ≠ some '\n' := by
    rw [List.getLast?_append]
    cases hnamespace : c.adapterNamespace.toList.getLast? with
    | none => simp
    | some d => rwa [hnamespace] at hfeed
  rw [toList_adapter, hunified, htext, dropEndWhile_append_of _ _ _ (by simp),
    dropEndWhile_of_getLast? hlast]
  rfl

/-- Whatever its texts are, the adapter is a text between two line feeds that begins with the
namespace and does not end in a line feed. It is the text of the adapter with single line feeds,
less those at its end. So behind a line feed the adapter stands on lines of its own, of which the
first one is empty. -/
theorem adapter_spec (c : FragmentContext) :
    ∃ lines n, c.adapter.toList = '\n' :: lines ++ ['\n'] ∧
      "namespace ".toList <+: lines ∧ lines.getLast? ≠ some '\n' ∧
      unifyLineEnds c.adapterText.toList = lines ++ List.replicate n '\n' ∧
      ∀ text, splitLines (text ++ '\n' :: c.adapter.toList) =
        splitLines (text ++ ['\n']) ++ ['\n'] :: splitLines (lines ++ ['\n']) := by
  obtain ⟨n, hsplit, hlast⟩ := exists_dropEndWhile '\n' (unifyLineEnds c.adapterText.toList)
  refine ⟨_, n, c.toList_adapter, prefix_dropEndWhile (by decide) c.prefix_unifyLineEnds, hlast,
    hsplit, ?_⟩
  intro text
  rw [toList_adapter, splitLines_append]
  exact congrArg _ (splitLines_line List.not_mem_nil _)

end FragmentContext

end Vendoring
