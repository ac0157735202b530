import Vendoring.Proofs.Path.Components
import Vendoring.Proofs.Settings.Override

/-!
# Where settings put things

A tool directory is deep enough for settings if it has four components besides the root. Each of the
directories that the settings start from is a front of it: one component is left out for the host
component, three for the project and four for the place beside the project (`fronts_of_parents`). So
all places are told by the components of the tool directory and the name of the checkout, which any
history of manifests may change (`layout_exact`).
-/

namespace Vendoring.Settings

/-- A path that starts where the second one does and has as many of its first components as
given. -/
def IsFront (directory toolDir : Path) (n : Nat) : Prop :=
  directory.isAbsolute = toolDir.isAbsolute ∧ directory.parts = toolDir.parts.take n

/-- A path that is read from a front of the tool directory. A `.` that it begins with counts only if
there is nothing in front of it. -/
def ReadFrom (toolDir : Path) (n : Nat) (name : String) (place : Path) : Prop :=
  ∃ directory : Path, directory.components = toolDir.front n ∧ place = directory.join ⟨name⟩ ∧
    place.isAbsolute = toolDir.isAbsolute ∧
    place.components = toolDir.front n ++
      (if directory.text = "" then (⟨name⟩ : Path).components else (⟨name⟩ : Path).normalized)

/-- The places for a checkout are read from the directories that leave out three components and four
components of the tool directory. -/
def Located (toolDir : Path) (name : String) (candidates : List Path) : Prop :=
  ∃ inside beside, candidates = [inside, beside] ∧
    ReadFrom toolDir (toolDir.parts.length - 3) name inside ∧
    ReadFrom toolDir (toolDir.parts.length - 4) name beside

/-- The places in the settings of a tool directory. -/
structure Layout (toolDir : Path) (s : Settings) : Prop where
  hostDir : s.hostDir.components = toolDir.front (toolDir.parts.length - 1)
  embeddedRoot : s.embeddedRoot.components =
    toolDir.front (toolDir.parts.length - 1) ++ [.name "src".toList, .name "hymo".toList]
  isAbsolute : s.hostDir.isAbsolute = toolDir.isAbsolute ∧
    s.embeddedRoot.isAbsolute = toolDir.isAbsolute
  candidates : ∃ inside beside, s.candidates = [inside, beside] ∧
    inside.components = toolDir.front (toolDir.parts.length - 3) ++ [.name s.checkoutName.toList] ∧
    beside.components = toolDir.front (toolDir.parts.length - 4) ++ [.name s.checkoutName.toList] ∧
    inside.isAbsolute = toolDir.isAbsolute ∧ beside.isAbsolute = toolDir.isAbsolute

/-! ## Fronts -/

section

variable {directory above toolDir : Path} {n : Nat}

/-- A front has the first components of the tool directory. -/
theorem IsFront.components (h : IsFront directory toolDir n) :
    directory.components = toolDir.front n := by
  rw [Path.components_eq_parts, h.1, h.2, Path.front]

/-- The parent of a front leaves out one component more. -/
theorem IsFront.parent? (h : IsFront directory toolDir n) (hn : n ≤ toolDir.parts.length)
    (habove : directory.parent? = some above) : 0 < n ∧ IsFront above toolDir (n - 1) := by
  have hparts : directory.parts ≠ [] := fun hnil => by
    simp [Path.parent?_eq_none_iff.2 hnil] at habove
  have hpositive : 0 < n := by
    refine Nat.pos_of_ne_zero fun hzero => hparts ?_
    rw [h.2, hzero, List.take_zero]
  refine ⟨hpositive, (Path.components_parent? habove).1.trans h.1, ?_⟩
  rw [Path.parts_parent? habove, h.2, List.dropLast_eq_take, List.take_take, List.length_take]
  congr 1
  omega

/-- A front with a component has a parent. -/
theorem IsFront.exists_parent? (h : IsFront directory toolDir n) (hn : n ≤ toolDir.parts.length)
    (hpositive : 0 < n) : ∃ above, directory.parent? = some above := by
  cases habove : directory.parent? with
  | some above => exact ⟨above, rfl⟩
  | none =>
      have hlength := congrArg List.length (Path.parent?_eq_none_iff.1 habove)
      rw [h.2, List.length_take, List.length_nil] at hlength
      omega

end

/-- The tool directory is a front of itself. -/
theorem isFront_self (toolDir : Path) : IsFront toolDir toolDir toolDir.parts.length :=
  ⟨rfl, List.take_length.symm⟩

/-- Directories above a tool directory leave out as many of its components as they lie above it. -/
theorem fronts_of_parents {toolDir hostDir project workspace : Path}
    (hhost : toolDir.parent? = some hostDir)
    (hproject : hostDir.parent?.bind Path.parent? = some project)
    (hworkspace : project.parent? = some workspace) :
    4 ≤ toolDir.parts.length ∧ IsFront hostDir toolDir (toolDir.parts.length - 1) ∧
      IsFront project toolDir (toolDir.parts.length - 3) ∧
      IsFront workspace toolDir (toolDir.parts.length - 4) := by
  obtain ⟨sources, hsources, hproject⟩ := Option.bind_eq_some_iff.1 hproject
  obtain ⟨hone, hhost⟩ := (isFront_self toolDir).parent? (Nat.le_refl _) hhost
  obtain ⟨htwo, hsources⟩ := hhost.parent? (by omega) hsources
  obtain ⟨hthree, hproject⟩ := hsources.parent? (by omega) hproject
  obtain ⟨hfour, hworkspace⟩ := hproject.parent? (by omega) hworkspace
  exact ⟨by omega, hhost, hproject, hworkspace⟩

/-- Directories are there four levels above a path with four components. -/
theorem exists_parents {toolDir : Path} (h : 4 ≤ toolDir.parts.length) :
    ∃ hostDir project workspace, toolDir.parent? = some hostDir ∧
      hostDir.parent?.bind Path.parent? = some project ∧ project.parent? = some workspace := by
  have htool := isFront_self toolDir
  obtain ⟨hostDir, hhost⟩ := htool.exists_parent? (by omega) (by omega)
  have hhostFront := (htool.parent? (by omega) hhost).2
  obtain ⟨sources, hsources⟩ := hhostFront.exists_parent? (by omega) (by omega)
  have hsourcesFront := (hhostFront.parent? (by omega) hsources).2
  obtain ⟨project, hproject⟩ := hsourcesFront.exists_parent? (by omega) (by omega)
  have hprojectFront := (hsourcesFront.parent? (by omega) hproject).2
  obtain ⟨workspace, hworkspace⟩ := hprojectFront.exists_parent? (by omega) (by omega)
  exact ⟨hostDir, project, workspace, hhost, Option.bind_eq_some_iff.2 ⟨sources, hsources, hproject⟩,
    hworkspace⟩

/-! ## Success and failure -/

/-- Settings follow from a tool directory with four components, and from no other. -/
theorem exists_ofToolDir_iff {toolDir : Path} :
    (∃ start, Settings.ofToolDir toolDir = .ok start) ↔ 4 ≤ toolDir.parts.length := by
  constructor
  · rintro ⟨start, hstart⟩
    obtain ⟨hostDir, candidates, hhost, hcandidates, -⟩ := ofToolDir_eq_ok_iff.1 hstart
    obtain ⟨project, workspace, hproject, hworkspace, -⟩ := candidatesFor_eq_ok_iff.1 hcandidates
    exact (fronts_of_parents hhost hproject hworkspace).1
  · intro h
    obtain ⟨hostDir, project, workspace, hhost, hproject, hworkspace⟩ := exists_parents h
    exact ⟨_, ofToolDir_eq_ok_iff.2 ⟨hostDir, _, hhost,
      candidatesFor_eq_ok_iff.2 ⟨project, workspace, hproject, hworkspace, rfl⟩, rfl⟩⟩

/-- If there are no places for a checkout, the tool directory is too shallow. -/
theorem candidatesFor_eq_error {toolDir hostDir : Path} {name : String} {error : SettingsError}
    (h : candidatesFor toolDir hostDir name = .error error) : error = .shallowToolDir toolDir := by
  unfold candidatesFor at h
  split at h
  · exact (Except.error.inj h).symm
  · split at h
    · exact (Except.error.inj h).symm
    · cases h

/-- Settings of a tool directory fail for nothing but its depth. -/
theorem ofToolDir_eq_error {toolDir : Path} {error : SettingsError}
    (h : Settings.ofToolDir toolDir = .error error) : error = .shallowToolDir toolDir := by
  cases hhost : toolDir.parent? with
  | none =>
      unfold Settings.ofToolDir at h
      rw [hhost] at h
      exact (Except.error.inj h).symm
  | some hostDir =>
      cases hcandidates : candidatesFor toolDir hostDir "meta-hymo" with
      | error fault =>
          unfold Settings.ofToolDir at h
          simp only [hhost, hcandidates, bind, Except.bind, Except.error.injEq] at h
          rw [← h, candidatesFor_eq_error hcandidates]
      | ok candidates =>
          rw [ofToolDir_eq_ok_iff.2 ⟨hostDir, candidates, hhost, hcandidates, rfl⟩] at h
          cases h

/-! ## Places -/

/-- A relative name is read from a front. -/
theorem IsFront.readFrom {directory toolDir : Path} {n : Nat} {name : String}
    (h : IsFront directory toolDir n) (hname : (⟨name⟩ : Path).isAbsolute = false) :
    ReadFrom toolDir n name (directory.join ⟨name⟩) := by
  refine ⟨directory, h.components, rfl, ?_, ?_⟩
  · rw [Path.isAbsolute_join _ hname, h.1]
  · rw [Path.components_join _ hname, h.components]

/-- A name without a `.` in front counts in full. -/
theorem ReadFrom.components {toolDir place : Path} {n : Nat} {name : String}
    (h : ReadFrom toolDir n name place)
    (hname : (⟨name⟩ : Path).normalized = (⟨name⟩ : Path).components) :
    place.components = toolDir.front n ++ (⟨name⟩ : Path).components := by
  obtain ⟨directory, -, -, -, hplace⟩ := h
  rw [hplace, hname, ite_self]

/-- Coherent settings look for a checkout of a relative name in two fronts of the tool directory. -/
theorem Coherent.located {start s : Settings} (h : Coherent start s)
    (hname : (⟨s.checkoutName⟩ : Path).isAbsolute = false) :
    Located s.toolDir s.checkoutName s.candidates := by
  obtain ⟨project, workspace, hproject, hworkspace, hcandidates⟩ := h.candidates
  obtain ⟨-, -, hinside, hbeside⟩ := fronts_of_parents h.host hproject hworkspace
  exact ⟨_, _, hcandidates, hinside.readFrom hname, hbeside.readFrom hname⟩

/-- The embedded root lies in the host component. -/
theorem embeddedRoot_spec (hostDir : Path) :
    ((hostDir.join ⟨"src"⟩).join ⟨"hymo"⟩).isAbsolute = hostDir.isAbsolute ∧
      ((hostDir.join ⟨"src"⟩).join ⟨"hymo"⟩).components =
        hostDir.components ++ [.name "src".toList, .name "hymo".toList] := by
  have hsrc : (⟨"src"⟩ : Path).isAbsolute = false ∧
      (⟨"src"⟩ : Path).components = [.name "src".toList] ∧
      (⟨"src"⟩ : Path).normalized = [.name "src".toList] := by decide
  have hhymo : (⟨"hymo"⟩ : Path).isAbsolute = false ∧
      (⟨"hymo"⟩ : Path).components = [.name "hymo".toList] ∧
      (⟨"hymo"⟩ : Path).normalized = [.name "hymo".toList] := by decide
  obtain ⟨hsrc, hsrcComponents, hsrcNormalized⟩ := hsrc
  obtain ⟨hhymo, hhymoComponents, hhymoNormalized⟩ := hhymo
  refine ⟨?_, ?_⟩
  · rw [Path.isAbsolute_join _ hhymo, Path.isAbsolute_join _ hsrc]
  · rw [Path.components_join _ hhymo, Path.components_join _ hsrc, hsrcComponents, hsrcNormalized,
      hhymoComponents, hhymoNormalized, ite_self, ite_self, List.append_assoc]
    rfl

/-- The settings of a tool directory have the layout. -/
theorem layout_ofToolDir {toolDir : Path} {start : Settings}
    (hstart : Settings.ofToolDir toolDir = .ok start) : Layout toolDir start := by
  have hcoherent := coherent_ofToolDir hstart
  obtain ⟨hostDir, candidates, hhost, hcandidates, rfl⟩ := ofToolDir_eq_ok_iff.1 hstart
  obtain ⟨project, workspace, hproject, hworkspace, -⟩ := candidatesFor_eq_ok_iff.1 hcandidates
  have hfront := (fronts_of_parents hhost hproject hworkspace).2.1
  obtain ⟨hroot, hrootComponents⟩ := embeddedRoot_spec hostDir
  have hname : (⟨"meta-hymo"⟩ : Path).isAbsolute = false ∧
      (⟨"meta-hymo"⟩ : Path).normalized = (⟨"meta-hymo"⟩ : Path).components ∧
      (⟨"meta-hymo"⟩ : Path).components = [.name "meta-hymo".toList] := by decide
  obtain ⟨hrelative, hplain, hcomponents⟩ := hname
  obtain ⟨inside, beside, hplaces, hinside, hbeside⟩ := hcoherent.located hrelative
  refine ⟨hfront.components, ?_, ⟨hfront.1, hroot.trans hfront.1⟩, inside, beside, hplaces, ?_, ?_,
    ?_, ?_⟩
  · rw [← hfront.components]
    exact hrootComponents
  · exact (hinside.components hplain).trans (congrArg _ hcomponents)
  · exact (hbeside.components hplain).trans (congrArg _ hcomponents)
  · obtain ⟨-, -, -, habsolute, -⟩ := hinside
    exact habsolute
  · obtain ⟨-, -, -, habsolute, -⟩ := hbeside
    exact habsolute

/-- Settings follow from a tool directory exactly if it has four components besides the root, and
else its depth is the fault. The host component leaves out one of its components, the embedded root
lies in it, and the places for a checkout leave out three and four. After any manifests an accepted
one that names a checkout has it looked for in the same two directories. -/
theorem layout_exact (toolDir : Path) :
    ((∃ start, Settings.ofToolDir toolDir = .ok start) ↔ 4 ≤ toolDir.parts.length) ∧
      (toolDir.parts.length < 4 →
        Settings.ofToolDir toolDir = .error (.shallowToolDir toolDir)) ∧
      ∀ start, Settings.ofToolDir toolDir = .ok start →
        start.checkoutName = "meta-hymo" ∧ Layout toolDir start ∧
        ∀ manifests m t name, (start.applyAll manifests).apply m = (t, .ok ()) →
          m.checkoutName = some name → (⟨name⟩ : Path).isAbsolute = false →
          Located toolDir name t.candidates := by
  refine ⟨exists_ofToolDir_iff, ?_, ?_⟩
  · intro h
    cases hstart : Settings.ofToolDir toolDir with
    | error error => rw [ofToolDir_eq_error hstart]
    | ok start =>
        have hdeep := exists_ofToolDir_iff.1 ⟨start, hstart⟩
        omega
  · intro start hstart
    have hcoherent := coherent_ofToolDir hstart
    have htool : start.toolDir = toolDir := by
      obtain ⟨hostDir, candidates, -, -, rfl⟩ := ofToolDir_eq_ok_iff.1 hstart
      rfl
    refine ⟨?_, layout_ofToolDir hstart, ?_⟩
    · obtain ⟨hostDir, candidates, -, -, rfl⟩ := ofToolDir_eq_ok_iff.1 hstart
      rfl
    · intro manifests m t name happly hname hrelative
      have hkept := ((hcoherent.applyAll manifests).apply m).1
      rw [happly] at hkept
      have hchosen := (apply_eq_ok_iff.1 happly).1.checkoutName
      rw [hname, Option.getD_some] at hchosen
      rw [← hchosen] at hrelative ⊢
      have hlocated := hkept.located hrelative
      rwa [hkept.toolDir, htool] at hlocated

/-- With four components, of which the first one is a `.`, the place beside the project is read from
nowhere, so that a `.` in front of the name of the checkout counts there and only there. -/
theorem layout_exact_sample :
    ∃ start t, Settings.ofToolDir ⟨"./p//host/tool/"⟩ = .ok start ∧
      start.apply { checkoutName := some "./fork" } = (t, .ok ()) ∧
      Layout ⟨"./p//host/tool/"⟩ start ∧ Located ⟨"./p//host/tool/"⟩ "./fork" t.candidates ∧
      start.embeddedRoot = ⟨"./p//host/src/hymo"⟩ ∧
      t.candidates = [⟨"././fork"⟩, ⟨"./fork"⟩] ∧
      Settings.ofToolDir ⟨"/p//host/tool/"⟩ = .error (.shallowToolDir ⟨"/p//host/tool/"⟩) := by
  have htool : (⟨"./p//host/tool/"⟩ : Path).parent? = some ⟨"./p//host"⟩ := by decide +kernel
  have hhost : (⟨"./p//host"⟩ : Path).parent?.bind Path.parent? = some ⟨"."⟩ := by decide +kernel
  have hworkspace : (⟨"."⟩ : Path).parent? = some ⟨""⟩ := by decide +kernel
  have hcandidates : ∀ name, candidatesFor ⟨"./p//host/tool/"⟩ ⟨"./p//host"⟩ name =
      .ok [(⟨"."⟩ : Path).join ⟨name⟩, (⟨""⟩ : Path).join ⟨name⟩] := fun name =>
    candidatesFor_eq_ok_iff.2 ⟨_, _, hhost, hworkspace, rfl⟩
  have hstart := ofToolDir_eq_ok_iff.2 ⟨_, _, htool, hcandidates "meta-hymo", rfl⟩
  have hmapped : (MappingTable.builtin.get? ⟨"main.cpp"⟩).isSome = true := by decide +kernel
  have happly : (defaults ⟨"./p//host/tool/"⟩ ⟨"./p//host"⟩
      [(⟨"."⟩ : Path).join ⟨"meta-hymo"⟩, (⟨""⟩ : Path).join ⟨"meta-hymo"⟩]).apply
        { checkoutName := some "./fork" } = ({ defaults ⟨"./p//host/tool/"⟩ ⟨"./p//host"⟩
          [(⟨"."⟩ : Path).join ⟨"./fork"⟩, (⟨""⟩ : Path).join ⟨"./fork"⟩] with
            checkoutName := "./fork" }, .ok ()) :=
    apply_eq_ok_iff.2 ⟨⟨rfl, rfl, rfl, rfl, rfl, hcandidates "./fork", rfl, rfl, rfl, rfl, rfl, rfl,
      rfl, rfl⟩, mapped_iff.2 hmapped⟩
  obtain ⟨-, -, hlayout⟩ := layout_exact ⟨"./p//host/tool/"⟩
  obtain ⟨-, hplaces, hlocated⟩ := hlayout _ hstart
  refine ⟨_, _, hstart, happly, hplaces, hlocated [] _ _ _ happly rfl (by decide), rfl, rfl, ?_⟩
  exact (layout_exact ⟨"/p//host/tool/"⟩).2.1 (by decide)

end Vendoring.Settings
