import Vendoring.Proofs.Settings.History

/-!
# One manifest over another

An accepted manifest determines the settings of its keys and leaves the others as they were
(`Overridden`), and it is accepted exactly if there are such settings and they map their entry point
(`apply_eq_ok_iff`). So applying two manifests is applying the one that has the keys of the second
where it has them and those of the first elsewhere (`apply_override`), and a history of accepted
manifests is one manifest (`Accepted.apply_overrides`).
-/

namespace Vendoring.Settings

/-- The second settings have what the keys of a manifest determine, and what the first ones have
where a key is absent. -/
structure Overridden (s : Settings) (m : Manifest) (t : Settings) : Prop where
  toolDir : t.toolDir = s.toolDir
  hostDir : t.hostDir = s.hostDir
  embeddedRoot : t.embeddedRoot = s.embeddedRoot
  unknownVersion : t.unknownVersion = s.unknownVersion
  checkoutName : t.checkoutName = m.checkoutName.getD s.checkoutName
  candidates : (m.checkoutName.map (candidatesFor s.toolDir s.hostDir)).getD (.ok s.candidates) =
    .ok t.candidates
  cloneUrl : t.cloneUrl = m.cloneUrl.getD s.cloneUrl
  sourceSubdir : t.sourceSubdir = m.sourceSubdir.getD s.sourceSubdir
  entryPoint : t.entryPoint = m.entryPoint.getD s.entryPoint
  stampTarget : t.stampTarget = m.stampTarget.getD s.stampTarget
  stampPrefix : t.stampPrefix = (m.naming.map fun n => stampPrefixOf n.label).getD s.stampPrefix
  naming : t.naming = m.naming.getD s.naming
  substitutions : t.substitutions = m.substitutions.getD s.substitutions
  mappings : (m.mappings.map MappingTable.ofList).getD (.ok s.mappings) = .ok t.mappings

/-- Manifests are accepted one after the other. -/
inductive Accepted : Settings → List Manifest → Settings → Prop
  | nil {s : Settings} (hmapped : s.Mapped) : Accepted s [] s
  | cons {s t u : Settings} {m : Manifest} {manifests : List Manifest}
      (hm : s.apply m = (t, .ok ())) (h : Accepted t manifests u) : Accepted s (m :: manifests) u

/-! ## One manifest -/

/-- A manifest is accepted exactly if what its keys determine are settings that map their entry
point. -/
theorem apply_eq_ok_iff {s t : Settings} {m : Manifest} :
    s.apply m = (t, .ok ()) ↔ s.Overridden m t ∧ t.Mapped := by
  rw [apply_eq_ok_iff_steps]
  simp only [validate_eq_ok_iff]
  constructor
  · rintro ⟨located, hlocated, hmappings, hmapped⟩
    obtain ⟨candidates, hcandidates, rfl⟩ := withCheckout_eq_ok_iff.1 hlocated
    obtain ⟨mappings, htable, rfl⟩ := withMappings_eq_ok_iff.1 hmappings
    exact ⟨⟨rfl, rfl, rfl, rfl, rfl, hcandidates, rfl, rfl, rfl, rfl, rfl, rfl, rfl, htable⟩, hmapped⟩
  · rintro ⟨h, hmapped⟩
    refine ⟨_, withCheckout_eq_ok_iff.2 ⟨t.candidates, h.candidates, rfl⟩,
      withMappings_eq_ok_iff.2 ⟨t.mappings, h.mappings, ?_⟩, hmapped⟩
    obtain ⟨⟩ := t
    simp only [withKeys, mk.injEq, true_and, and_true]
    exact ⟨h.toolDir, h.hostDir, h.checkoutName, h.cloneUrl, h.sourceSubdir, h.embeddedRoot,
      h.entryPoint, h.stampTarget, h.stampPrefix, h.unknownVersion, h.naming, h.substitutions⟩

/-! ## Two manifests -/

/-- Settings that were overridden twice are overridden by both manifests, the second one first. -/
theorem Overridden.trans {s t u : Settings} {m n : Manifest} (hm : s.Overridden m t)
    (hn : t.Overridden n u) : s.Overridden (m.override n) u where
  toolDir := hn.toolDir.trans hm.toolDir
  hostDir := hn.hostDir.trans hm.hostDir
  embeddedRoot := hn.embeddedRoot.trans hm.embeddedRoot
  unknownVersion := hn.unknownVersion.trans hm.unknownVersion
  checkoutName := by rw [hn.checkoutName, hm.checkoutName, Manifest.override, Option.getD_or]
  candidates := by
    rw [Manifest.override, Option.map_or, Option.getD_or, hm.candidates, ← hm.toolDir, ← hm.hostDir,
      hn.candidates]
  cloneUrl := by rw [hn.cloneUrl, hm.cloneUrl, Manifest.override, Option.getD_or]
  sourceSubdir := by rw [hn.sourceSubdir, hm.sourceSubdir, Manifest.override, Option.getD_or]
  entryPoint := by rw [hn.entryPoint, hm.entryPoint, Manifest.override, Option.getD_or]
  stampTarget := by rw [hn.stampTarget, hm.stampTarget, Manifest.override, Option.getD_or]
  stampPrefix := by
    rw [hn.stampPrefix, hm.stampPrefix, Manifest.override, Option.map_or, Option.getD_or]
  naming := by rw [hn.naming, hm.naming, Manifest.override, Option.getD_or]
  substitutions := by rw [hn.substitutions, hm.substitutions, Manifest.override, Option.getD_or]
  mappings := by
    rw [Manifest.override, Option.map_or, Option.getD_or, hm.mappings, hn.mappings]

/-- A value that a key determined is determined again by the key. -/
theorem getD_again {α : Type} {key : Option α} {old new : α} (h : new = key.getD old) :
    new = key.getD new := by
  rw [h, ← Option.getD_or, Option.or_self]

/-- What a manifest determines it determines again. -/
theorem Overridden.again {s t : Settings} {m : Manifest} (h : s.Overridden m t) :
    t.Overridden m t where
  toolDir := rfl
  hostDir := rfl
  embeddedRoot := rfl
  unknownVersion := rfl
  checkoutName := getD_again h.checkoutName
  candidates := by
    rw [h.toolDir, h.hostDir]
    exact (getD_again h.candidates.symm).symm
  cloneUrl := getD_again h.cloneUrl
  sourceSubdir := getD_again h.sourceSubdir
  entryPoint := getD_again h.entryPoint
  stampTarget := getD_again h.stampTarget
  stampPrefix := getD_again h.stampPrefix
  naming := getD_again h.naming
  substitutions := getD_again h.substitutions
  mappings := (getD_again h.mappings.symm).symm

/-- Nothing is overridden by a manifest without keys. -/
theorem Overridden.refl (s : Settings) : s.Overridden {} s :=
  ⟨rfl, rfl, rfl, rfl, rfl, rfl, rfl, rfl, rfl, rfl, rfl, rfl, rfl, rfl⟩

/-- Settings that accepted manifests map their entry point. -/
theorem Accepted.mapped {s t : Settings} {manifests : List Manifest} (h : Accepted s manifests t) :
    t.Mapped := by
  induction h with
  | nil hmapped => exact hmapped
  | cons _ _ ih => exact ih

/-- A history of accepted manifests is one manifest, in which later keys come before earlier
ones. -/
theorem Accepted.apply_overrides {s t : Settings} {manifests : List Manifest}
    (h : Accepted s manifests t) : s.apply (manifests.foldr Manifest.override {}) = (t, .ok ()) := by
  rw [apply_eq_ok_iff]
  refine ⟨?_, h.mapped⟩
  induction h with
  | nil => exact .refl _
  | cons hm _ ih => exact (apply_eq_ok_iff.1 hm).1.trans ih

/-- If one manifest is accepted and then another one, then the one that has the keys of the second
over those of the first is accepted, too, and leads to the same settings: they have what its keys
determine and keep what is left. An accepted manifest changes nothing when it is applied again. -/
theorem apply_override {s t u : Settings} {m n : Manifest} (hm : s.apply m = (t, .ok ()))
    (hn : t.apply n = (u, .ok ())) :
    s.apply (m.override n) = (u, .ok ()) ∧ s.Overridden (m.override n) u ∧
      t.apply m = (t, .ok ()) := by
  obtain ⟨hfirst, hmapped⟩ := apply_eq_ok_iff.1 hm
  obtain ⟨hsecond, hmapped'⟩ := apply_eq_ok_iff.1 hn
  have hboth := hfirst.trans hsecond
  exact ⟨apply_eq_ok_iff.2 ⟨hboth, hmapped'⟩, hboth, apply_eq_ok_iff.2 ⟨hfirst.again, hmapped⟩⟩

/-- A manifest with another checkout and another table, whose entry point has another name. -/
def tableManifest : Manifest :=
  { checkoutName := some "fork"
    entryPoint := some ⟨"cli.cpp"⟩
    naming := some { label := "fork" }
    mappings := some [⟨⟨"cli.cpp"⟩, ⟨"cli.cpp"⟩⟩, ⟨⟨"tool.cpp"⟩, ⟨"tool.cpp"⟩⟩] }

/-- A manifest with an entry point that only the other table has. -/
def entryManifest : Manifest :=
  { entryPoint := some ⟨"tool.cpp/"⟩
    naming := some { label := "tool" } }

/-- The settings of a tool directory under the first manifest. -/
def tabledSettings : Settings :=
  { defaults ⟨"w/p/host/tool"⟩ ⟨"w/p/host"⟩ [⟨"w/fork"⟩, ⟨"fork"⟩] with
    checkoutName := "fork"
    entryPoint := ⟨"cli.cpp"⟩
    stampPrefix := "// Synced from fork "
    naming := { label := "fork" }
    mappings := ⟨[⟨⟨"cli.cpp"⟩, ⟨"cli.cpp"⟩⟩, ⟨⟨"tool.cpp"⟩, ⟨"tool.cpp"⟩⟩], by decide⟩ }

/-- One manifest brings the table and the other one the entry point, which is mapped only there. -/
theorem apply_override_sample :
    ∃ start t u, Settings.ofToolDir ⟨"w/p/host/tool"⟩ = .ok start ∧
      (start.apply entryManifest).2 = .error (.unknownEntryPoint ⟨"tool.cpp/"⟩) ∧
      start.apply tableManifest = (t, .ok ()) ∧ t.apply entryManifest = (u, .ok ()) ∧
      start.apply (tableManifest.override entryManifest) = (u, .ok ()) ∧
      start.Overridden (tableManifest.override entryManifest) u ∧
      t.apply tableManifest = (t, .ok ()) ∧
      u.candidates = [⟨"w/fork"⟩, ⟨"fork"⟩] ∧ u.stampPrefix = "// Synced from tool " := by
  have htable : (defaults ⟨"w/p/host/tool"⟩ ⟨"w/p/host"⟩
      [⟨"w/meta-hymo"⟩, ⟨"meta-hymo"⟩]).apply tableManifest = (tabledSettings, .ok ()) := by
    unfold Settings.apply Settings.withCheckout
    simp only [tableManifest, defaults, candidatesFor_sample]
    rfl
  have hentry : tabledSettings.apply entryManifest =
      ({ tabledSettings with
          entryPoint := ⟨"tool.cpp/"⟩
          stampPrefix := "// Synced from tool "
          naming := { label := "tool" } }, .ok ()) := rfl
  obtain ⟨hboth, hoverridden, hagain⟩ := apply_override htable hentry
  exact ⟨_, _, _, ofToolDir_sample, rfl, htable, hentry, hboth, hoverridden, hagain, rfl, rfl⟩

end Vendoring.Settings
