import Vendoring.Proofs.Mapping.Validation
import Vendoring.Proofs.Pipeline.Trace

/-!
# Settings under manifests

Manifests are applied one after the other, each to the settings that the one before left behind, and
a rejected manifest leaves behind what came before its fault. Whatever the manifests are, the
settings stay coherent: what follows from the tool directory still does, the places for a checkout
carry its name of the moment, stamps begin with the label of the moment, and the mappings are a
table (`Coherent`). A manifest is accepted, or its mappings are no table, or the entry point is not
mapped (`Answer`). Settings whose entry point is mapped set up a run, and any others end it before
it does anything (`apply_history`).
-/

namespace Vendoring.Settings

/-- The settings that are left behind when manifests are applied in order. -/
def applyAll (s : Settings) (manifests : List Manifest) : Settings :=
  manifests.foldl (fun s m => (s.apply m).1) s

/-- The entry point is the source of a mapping. -/
def Mapped (s : Settings) : Prop :=
  ∃ mapping ∈ s.mappings.toList, mapping.source.Same s.entryPoint

/-- Settings that agree with those of a tool directory in what follows from it alone, and whose
parts fit each other. -/
structure Coherent (start s : Settings) : Prop where
  toolDir : s.toolDir = start.toolDir
  hostDir : s.hostDir = start.hostDir
  embeddedRoot : s.embeddedRoot = start.embeddedRoot
  unknownVersion : s.unknownVersion = start.unknownVersion
  host : s.toolDir.parent? = some s.hostDir
  candidates : ∃ project workspace, s.hostDir.parent?.bind Path.parent? = some project ∧
    project.parent? = some workspace ∧
    s.candidates = [project.join ⟨s.checkoutName⟩, workspace.join ⟨s.checkoutName⟩]
  stampPrefix : s.stampPrefix = "// Synced from " ++ s.naming.label ++ " "
  mappings : MappingTable.Acceptable s.mappings.toList

/-- What applying a manifest can answer, with the settings that it leaves behind. -/
inductive Answer (m : Manifest) (t : Settings) : Except SettingsError Unit → Prop where
  | accepted (hmapped : t.Mapped) : Answer m t (.ok ())
  | rejected {entries : List Mapping} {error : MappingError} (hentries : m.mappings = some entries)
      (hfault : MappingTable.ofList entries = .error error) : Answer m t (.error (.mapping error))
  | unmapped (hmapped : ¬ t.Mapped) : Answer m t (.error (.unknownEntryPoint t.entryPoint))

/-! ## The parts -/

/-- The entry point is mapped exactly if it is found in the table. -/
theorem mapped_iff {s : Settings} : s.Mapped ↔ (s.mappings.get? s.entryPoint).isSome = true := by
  unfold Mapped MappingTable.get? MappingTable.toList
  rw [List.find?_isSome]
  simp only [decide_eq_true_eq]

/-- Validation asks for nothing but a mapped entry point. -/
theorem validate_eq_ok_iff {s : Settings} : s.validate = .ok () ↔ s.Mapped := by
  unfold validate
  rw [mapped_iff]
  split <;> simp_all

/-- Settings that do not map their entry point do not hold together, for that reason. -/
theorem validate_of_not_mapped {s : Settings} (h : ¬ s.Mapped) :
    s.validate = .error (.unknownEntryPoint s.entryPoint) := by
  unfold validate
  rw [if_neg fun hsome => h (mapped_iff.2 hsome)]

/-- The entries of a table are acceptable. -/
theorem acceptable (table : MappingTable) : MappingTable.Acceptable table.toList :=
  MappingTable.acceptable_iff.2 table.valid

/-! ## One manifest -/

section

variable {start s : Settings}

/-- A place for the checkout is found under any name, and the name comes with it. -/
theorem Coherent.withCheckout (h : Coherent start s) (m : Manifest) :
    ∃ located, s.withCheckout m = .ok located ∧ Coherent start located := by
  unfold Settings.withCheckout
  cases m.checkoutName with
  | none => exact ⟨s, rfl, h⟩
  | some name =>
      obtain ⟨project, workspace, hproject, hworkspace, -⟩ := h.candidates
      have hfound : candidatesFor s.toolDir s.hostDir name =
          .ok [project.join ⟨name⟩, workspace.join ⟨name⟩] :=
        candidatesFor_eq_ok_iff.2 ⟨project, workspace, hproject, hworkspace, rfl⟩
      simp only [hfound, bind, Except.bind]
      exact ⟨_, rfl, { h with candidates := ⟨project, workspace, hproject, hworkspace, rfl⟩ }⟩

/-- A naming brings the stamps that begin with its label. -/
theorem Coherent.withKeys (h : Coherent start s) (m : Manifest) :
    Coherent start (s.withKeys m) := by
  have hstamp : (s.withKeys m).stampPrefix =
      "// Synced from " ++ (s.withKeys m).naming.label ++ " " := by
    unfold Settings.withKeys
    cases m.naming with
    | none => exact h.stampPrefix
    | some naming => rfl
  exact { h with stampPrefix := hstamp }

/-- Mappings are replaced by a table, or they are no table and nothing is replaced. -/
theorem Coherent.withMappings (h : Coherent start s) (m : Manifest) :
    (∃ mapped, s.withMappings m = .ok mapped ∧ Coherent start mapped) ∨
      ∃ entries error, m.mappings = some entries ∧
        MappingTable.ofList entries = .error error ∧
        s.withMappings m = .error (.mapping error) := by
  unfold Settings.withMappings
  cases hentries : m.mappings with
  | none => exact Or.inl ⟨s, rfl, h⟩
  | some entries =>
      cases htable : MappingTable.ofList entries with
      | error error => exact Or.inr ⟨entries, error, rfl, htable, by simp only [htable]⟩
      | ok table =>
          exact Or.inl ⟨{ s with mappings := table }, by simp only [htable],
            { h with mappings := acceptable table }⟩

/-- A manifest keeps settings coherent, accepted or not, and there are only two ways to reject
it. -/
theorem Coherent.apply (h : Coherent start s) (m : Manifest) :
    Coherent start (s.apply m).1 ∧ Answer m (s.apply m).1 (s.apply m).2 := by
  obtain ⟨located, hlocated, hcoherent⟩ := h.withCheckout m
  have hkeyed := hcoherent.withKeys m
  unfold Settings.apply
  simp only [hlocated]
  rcases hkeyed.withMappings m with
    ⟨mapped, hmappings, hmapped⟩ | ⟨entries, error, hentries, hfault, hmappings⟩
  · simp only [hmappings]
    refine ⟨hmapped, ?_⟩
    by_cases hentry : mapped.Mapped
    · rw [validate_eq_ok_iff.2 hentry]
      exact .accepted hentry
    · rw [validate_of_not_mapped hentry]
      exact .unmapped hentry
  · simp only [hmappings]
    exact ⟨hkeyed, .rejected hentries hfault⟩

/-! ## All manifests -/

/-- Settings of a tool directory are coherent from the beginning. -/
theorem coherent_ofToolDir {toolDir : Path} (h : Settings.ofToolDir toolDir = .ok start) :
    Coherent start start := by
  obtain ⟨hostDir, candidates, hhost, hcandidates, rfl⟩ := ofToolDir_eq_ok_iff.1 h
  exact ⟨rfl, rfl, rfl, rfl, hhost, candidatesFor_eq_ok_iff.1 hcandidates, rfl,
    acceptable MappingTable.builtin⟩

/-- Settings stay coherent over any manifests. -/
theorem Coherent.applyAll (h : Coherent start s) (manifests : List Manifest) :
    Coherent start (s.applyAll manifests) := by
  induction manifests generalizing s with
  | nil => exact h
  | cons m manifests ih => exact ih (h.apply m).1

end

/-! ## Running with what is left behind -/

/-- A run with an entry point that is not mapped ends in front of its first action. -/
theorem run_of_not_mapped {s : Settings} (h : ¬ s.Mapped) (client : VersionControl.Client)
    (policy : Confirmation.Policy) (options : Pipeline.Options) (tree : Tree) :
    Pipeline.run s client policy options tree =
      (.error (.settings (.unknownEntryPoint s.entryPoint)), ⟨[⟨.enter .setUp, tree⟩], [], tree⟩) := by
  have hsetUp : Pipeline.setUp s = .error (.settings (.unknownEntryPoint s.entryPoint)) := by
    unfold Pipeline.setUp
    rw [validate_of_not_mapped h]
  unfold Pipeline.run
  rw [hsetUp]
  rfl

/-- Over any history of manifests the settings stay coherent, and no manifest is rejected for the
depth of the tool directory. An accepted one leaves a mapped entry point behind; after a rejected
one the entry point is mapped, and a run is set up, or a run ends with a fault of the settings,
having only entered its first stage on the tree as it was. -/
theorem apply_history {toolDir : Path} {start : Settings}
    (hstart : Settings.ofToolDir toolDir = .ok start) (manifests : List Manifest) :
    Coherent start (start.applyAll manifests) ∧
      ∀ m t result, (start.applyAll manifests).apply m = (t, result) →
        Coherent start t ∧
        Answer m t result ∧
        (∀ dir, result ≠ .error (.shallowToolDir dir)) ∧
        (result = .ok () → t.Mapped) ∧
        ((t.Mapped ∧ ∃ transformer, Pipeline.setUp t = .ok transformer) ∨
          (¬ t.Mapped ∧ ∀ client policy options tree,
            Pipeline.run t client policy options tree =
              (.error (.settings (.unknownEntryPoint t.entryPoint)),
                ⟨[⟨.enter .setUp, tree⟩], [], tree⟩))) := by
  have hcoherent := (coherent_ofToolDir hstart).applyAll manifests
  refine ⟨hcoherent, ?_⟩
  intro m t result happly
  obtain ⟨hkept, hanswer⟩ := hcoherent.apply m
  rw [happly] at hkept hanswer
  refine ⟨hkept, hanswer, ?_, ?_, ?_⟩
  · rintro dir rfl
    cases hanswer
  · rintro rfl
    cases hanswer with
    | accepted hmapped => exact hmapped
  · by_cases hmapped : t.Mapped
    · exact Or.inl ⟨hmapped, Pipeline.exists_setUp (validate_eq_ok_iff.2 hmapped)⟩
    · exact Or.inr ⟨hmapped, run_of_not_mapped hmapped⟩

/-- A manifest that names another checkout and another entry point, and two mappings of one
source. -/
def clashingManifest : Manifest :=
  { checkoutName := some "fork"
    entryPoint := some ⟨"cli.cpp"⟩
    mappings := some [⟨⟨"cli.cpp"⟩, ⟨"cli.cpp"⟩⟩, ⟨⟨"cli.cpp"⟩, ⟨"tool.cpp"⟩⟩] }

/-- What this manifest leaves behind in the settings of a tool directory. -/
def clashedSettings : Settings :=
  { defaults ⟨"w/p/host/tool"⟩ ⟨"w/p/host"⟩ [⟨"w/fork"⟩, ⟨"fork"⟩] with
    checkoutName := "fork"
    entryPoint := ⟨"cli.cpp"⟩ }

/-- The manifest is rejected for its mappings, after the places for the checkout and the entry point
have changed. A run with what is left ends, until another manifest maps the new entry point. -/
theorem apply_history_sample :
    ∃ start, Settings.ofToolDir ⟨"w/p/host/tool"⟩ = .ok start ∧
      start.apply clashingManifest =
        (clashedSettings, .error (.mapping (.repeatedSource ⟨"cli.cpp"⟩))) ∧
      Coherent start clashedSettings ∧
      (∀ client policy options tree, Pipeline.run clashedSettings client policy options tree =
        (.error (.settings (.unknownEntryPoint ⟨"cli.cpp"⟩)), ⟨[⟨.enter .setUp, tree⟩], [], tree⟩)) ∧
      ((start.applyAll [clashingManifest]).apply
        { mappings := some [⟨⟨"cli.cpp"⟩, ⟨"tool.cpp"⟩⟩] }).1.Mapped := by
  have hclash : (defaults ⟨"w/p/host/tool"⟩ ⟨"w/p/host"⟩
      [⟨"w/meta-hymo"⟩, ⟨"meta-hymo"⟩]).apply clashingManifest =
      (clashedSettings, .error (.mapping (.repeatedSource ⟨"cli.cpp"⟩))) := by
    unfold Settings.apply Settings.withCheckout
    simp only [clashingManifest, defaults, candidatesFor_sample]
    rfl
  have hmapped : ¬ clashedSettings.Mapped := by
    rw [mapped_iff]
    decide +kernel
  obtain ⟨hcoherent, -, -, -, hrun⟩ := (apply_history ofToolDir_sample []).2 clashingManifest _ _ hclash
  have hnext : clashedSettings.apply { mappings := some [⟨⟨"cli.cpp"⟩, ⟨"tool.cpp"⟩⟩] } =
      ({ clashedSettings with mappings := ⟨[⟨⟨"cli.cpp"⟩, ⟨"tool.cpp"⟩⟩], by decide⟩ }, .ok ()) := rfl
  refine ⟨_, ofToolDir_sample, hclash, hcoherent, (hrun.resolve_left fun h => hmapped h.1).2, ?_⟩
  have hhistory := (apply_history ofToolDir_sample [clashingManifest]).2
  unfold applyAll at hhistory ⊢
  simp only [List.foldl_cons, List.foldl_nil, hclash] at hhistory ⊢
  obtain ⟨-, -, -, haccepted, -⟩ := hhistory _ _ _ hnext
  rw [hnext]
  exact haccepted rfl

end Vendoring.Settings
