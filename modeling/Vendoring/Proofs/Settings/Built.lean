import Vendoring.Proofs.Path.Names
import Vendoring.Settings

/-!
# Settings that are built

Settings are built from a tool directory, which fails only if the directory is not deep enough
(`ofToolDir_eq_ok_iff`), and by applying manifests, each of which is accepted in three steps
(`apply_eq_ok_iff_steps`). Neither the embedded root nor the tie between the stamp and the label of
the naming is lost on the way (`Built.anchored`): the root is reached without climbing, and stamps
begin as the label says.
-/

namespace Vendoring.Settings

/-- The settings follow from a tool directory without climbing, and from manifests that were applied
with success. -/
inductive Built : Settings → Prop where
  | ofToolDir {toolDir : Path} {s : Settings} (hclimbs : .parent ∉ toolDir.components)
      (h : Settings.ofToolDir toolDir = .ok s) : Built s
  | apply {s t : Settings} {m : Manifest} (hs : Built s) (h : s.apply m = (t, .ok ())) : Built t

/-- What every step of building settings keeps. -/
structure Anchored (s : Settings) : Prop where
  embeddedRoot : .parent ∉ s.embeddedRoot.components
  stampPrefix : s.stampPrefix = stampPrefixOf s.naming.label

/-- The settings of a tool directory in a host component, with places for a checkout. -/
def defaults (toolDir hostDir : Path) (candidates : List Path) : Settings :=
  { toolDir
    hostDir
    checkoutName := "meta-hymo"
    candidates
    cloneUrl := "https://github.com/Anatdx/meta-hymo"
    sourceSubdir := ⟨"src"⟩
    embeddedRoot := (hostDir.join ⟨"src"⟩).join ⟨"hymo"⟩
    entryPoint := ⟨"main.cpp"⟩
    stampTarget := ⟨"hymo_defs.hpp"⟩
    stampPrefix := stampPrefixOf "hymo"
    unknownVersion := "unknown"
    naming := {}
    substitutions := defaultSubstitutions
    mappings := MappingTable.builtin }

/-- The entry point is in the built-in table. -/
theorem validate_defaults (toolDir hostDir : Path) (candidates : List Path) :
    (defaults toolDir hostDir candidates).validate = .ok () := by
  have hmapped : (MappingTable.builtin.get? ⟨"main.cpp"⟩).isSome = true := by decide +kernel
  unfold validate defaults
  rw [if_pos hmapped]

/-! ## From a tool directory -/

/-- There are places for a checkout if there are directories two and three levels above the host
component. -/
theorem candidatesFor_eq_ok_iff {toolDir hostDir : Path} {name : String} {candidates : List Path} :
    candidatesFor toolDir hostDir name = .ok candidates ↔
      ∃ project workspace, hostDir.parent?.bind Path.parent? = some project ∧
        project.parent? = some workspace ∧
        candidates = [project.join ⟨name⟩, workspace.join ⟨name⟩] := by
  unfold candidatesFor
  cases hproject : hostDir.parent?.bind Path.parent? with
  | none => simp
  | some project =>
      cases hworkspace : project.parent? with
      | none => simp [hworkspace]
      | some workspace => simp [hworkspace, eq_comm]

/-- Settings follow from a tool directory if there are places for a checkout above it. -/
theorem ofToolDir_eq_ok_iff {toolDir : Path} {s : Settings} :
    Settings.ofToolDir toolDir = .ok s ↔
      ∃ hostDir candidates, toolDir.parent? = some hostDir ∧
        candidatesFor toolDir hostDir "meta-hymo" = .ok candidates ∧
        s = defaults toolDir hostDir candidates := by
  unfold Settings.ofToolDir
  cases hparent : toolDir.parent? with
  | none => simp
  | some hostDir =>
      cases hcandidates : candidatesFor toolDir hostDir "meta-hymo" with
      | error error => simp [bind, Except.bind, hcandidates]
      | ok candidates =>
          have hvalid := validate_defaults toolDir hostDir candidates
          unfold defaults at hvalid
          simp only [hcandidates, hvalid, bind, Except.bind]
          constructor
          · intro h
            exact ⟨hostDir, candidates, rfl, hcandidates, (Except.ok.inj h).symm⟩
          · rintro ⟨hostDir', candidates', hhost, hfound, rfl⟩
            obtain rfl := Option.some.inj hhost
            rw [hcandidates] at hfound
            obtain rfl := Except.ok.inj hfound
            rfl

/-- For a tool directory with four components there are places for a checkout under every name. -/
theorem candidatesFor_sample (name : String) :
    candidatesFor ⟨"w/p/host/tool"⟩ ⟨"w/p/host"⟩ name =
      .ok [(⟨"w"⟩ : Path).join ⟨name⟩, (⟨""⟩ : Path).join ⟨name⟩] := by
  have hproject : (⟨"w/p/host"⟩ : Path).parent?.bind Path.parent? = some ⟨"w"⟩ := by decide +kernel
  have hworkspace : (⟨"w"⟩ : Path).parent? = some ⟨""⟩ := by decide +kernel
  exact candidatesFor_eq_ok_iff.2 ⟨_, _, hproject, hworkspace, rfl⟩

/-- A tool directory in a host component, with two places for a checkout. -/
theorem ofToolDir_sample :
    Settings.ofToolDir ⟨"w/p/host/tool"⟩ =
      .ok (defaults ⟨"w/p/host/tool"⟩ ⟨"w/p/host"⟩ [⟨"w/meta-hymo"⟩, ⟨"meta-hymo"⟩]) := by
  have hhost : (⟨"w/p/host/tool"⟩ : Path).parent? = some ⟨"w/p/host"⟩ := by decide +kernel
  exact ofToolDir_eq_ok_iff.2 ⟨_, _, hhost, candidatesFor_sample "meta-hymo", rfl⟩

/-- Settings that follow from a tool directory without climbing are anchored. -/
theorem anchored_ofToolDir {toolDir : Path} {s : Settings} (hclimbs : .parent ∉ toolDir.components)
    (h : Settings.ofToolDir toolDir = .ok s) : s.Anchored := by
  obtain ⟨hostDir, candidates, hparent, -, rfl⟩ := ofToolDir_eq_ok_iff.1 h
  refine ⟨?_, rfl⟩
  show .parent ∉ ((hostDir.join ⟨"src"⟩).join ⟨"hymo"⟩).components
  have hsrc : (⟨"src"⟩ : Path).names = ["src".toList] := by decide
  have hhymo : (⟨"hymo"⟩ : Path).names = ["hymo".toList] := by decide
  rw [Path.parent_mem_components] at hclimbs ⊢
  rw [Path.names_join _ (by decide), Path.names_join _ (by decide), hsrc, hhymo,
    (Path.parent?_eq_some hparent).1]
  intro hmem
  rcases List.mem_append.1 hmem with hmem | hmem
  · rcases List.mem_append.1 hmem with hmem | hmem
    · exact hclimbs (List.dropLast_subset _ hmem)
    · simp at hmem
  · simp at hmem

/-! ## By a manifest -/

/-- Naming the checkout succeeds exactly if there are places for it. -/
theorem withCheckout_eq_ok_iff {s t : Settings} {m : Manifest} :
    s.withCheckout m = .ok t ↔ ∃ candidates,
      (m.checkoutName.map (candidatesFor s.toolDir s.hostDir)).getD (.ok s.candidates) =
        .ok candidates ∧
      t = { s with candidates, checkoutName := m.checkoutName.getD s.checkoutName } := by
  unfold withCheckout
  cases m.checkoutName with
  | none =>
      simp only [Option.map_none, Option.getD_none, Except.ok.injEq, exists_eq_left']
      exact eq_comm
  | some name =>
      cases hcandidates : candidatesFor s.toolDir s.hostDir name <;>
        simp [bind, Except.bind, pure, Except.pure, hcandidates, eq_comm]

/-- Giving mappings succeeds exactly if they make a table. -/
theorem withMappings_eq_ok_iff {s t : Settings} {m : Manifest} :
    s.withMappings m = .ok t ↔ ∃ mappings,
      (m.mappings.map MappingTable.ofList).getD (.ok s.mappings) = .ok mappings ∧
      t = { s with mappings } := by
  unfold withMappings
  cases m.mappings with
  | none =>
      simp only [Option.map_none, Option.getD_none, Except.ok.injEq, exists_eq_left']
      exact eq_comm
  | some entries => cases htable : MappingTable.ofList entries <;> simp [htable, eq_comm]

/-- A manifest is accepted in three steps, which end in settings that are valid. -/
theorem apply_eq_ok_iff_steps {s t : Settings} {m : Manifest} :
    s.apply m = (t, .ok ()) ↔
      ∃ located, s.withCheckout m = .ok located ∧ (located.withKeys m).withMappings m = .ok t ∧
        t.validate = .ok () := by
  unfold Settings.apply
  cases hlocated : s.withCheckout m with
  | error error => simp
  | ok located =>
      cases hmapped : (located.withKeys m).withMappings m with
      | error error => simp [hmapped]
      | ok mapped =>
          simp only [hmapped, Prod.mk.injEq, Except.ok.injEq, exists_eq_left']
          constructor
          · rintro ⟨rfl, hvalid⟩
            exact ⟨rfl, hvalid⟩
          · rintro ⟨rfl, hvalid⟩
            exact ⟨rfl, hvalid⟩

/-- A manifest that names a label brings the stamps that begin with it. -/
theorem anchored_withKeys {s : Settings} (h : s.Anchored) (m : Manifest) :
    (s.withKeys m).Anchored := by
  refine ⟨h.embeddedRoot, ?_⟩
  unfold withKeys
  cases hnaming : m.naming with
  | none => exact h.stampPrefix
  | some naming => rfl

/-- Of the three steps only the one with the keys changes what is anchored. -/
theorem anchored_apply {s t : Settings} {m : Manifest} (hs : s.Anchored)
    (h : s.apply m = (t, .ok ())) : t.Anchored := by
  obtain ⟨located, hlocated, hmapped, -⟩ := apply_eq_ok_iff_steps.1 h
  obtain ⟨candidates, -, rfl⟩ := withCheckout_eq_ok_iff.1 hlocated
  obtain ⟨mappings, -, rfl⟩ := withMappings_eq_ok_iff.1 hmapped
  have hkeyed := anchored_withKeys ⟨hs.embeddedRoot, hs.stampPrefix⟩ m
  exact ⟨hkeyed.embeddedRoot, hkeyed.stampPrefix⟩

/-- Settings that were built are anchored, by induction on the manifests. -/
theorem Built.anchored {s : Settings} (h : s.Built) : s.Anchored := by
  induction h with
  | ofToolDir hclimbs h => exact anchored_ofToolDir hclimbs h
  | apply hs h ih => exact anchored_apply ih h

/-- The entry point of validated settings has a destination. -/
theorem exists_entryPointDestination {s : Settings} (h : s.validate = .ok ()) :
    ∃ destination, s.entryPointDestination? = some destination := by
  unfold validate at h
  split at h
  · rename_i hsome
    obtain ⟨m, hm⟩ := Option.isSome_iff_exists.1 hsome
    refine ⟨m.destination, ?_⟩
    rw [entryPointDestination?, MappingTable.destinationOf?, hm]
    rfl
  · cases h

end Vendoring.Settings
