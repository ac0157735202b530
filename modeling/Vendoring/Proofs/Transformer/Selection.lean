import Vendoring.Proofs.Mapping.Lookup
import Vendoring.Proofs.Settings.History
import Vendoring.Proofs.Transformer.EntryPoint

/-!
# The one file that is adapted

The validation of settings, the fragments around the entry point and the transformer look for the
entry point each on its own: by the components of its path. A table has no two sources with the same
components once `.` is dropped, so at most one mapping is found, however the entry point is spelled
(`exists_sole_source`). It is found just if the settings are valid. Then that mapping alone is
rewritten by the structural rules, which are the five of the settings, and the fragments call it by
the last name of its destination; otherwise no mapping would be (`entryPoint_selected`).
-/

namespace Vendoring

/-! ## The last name of a destination -/

namespace Path

/-- A path that names a file ends in a name. -/
theorem NamesFile.exists_last {p : Path} (h : p.NamesFile) :
    ∃ above name, p.components = above ++ [.name name] ∧ name ≠ [] ∧ '/' ∉ name := by
  obtain ⟨hinside, name, hname⟩ := h
  obtain ⟨head, hcomponents, hhead⟩ := components_eq p
  have hne : p.names ≠ [] := by
    intro hnil
    rw [hcomponents, hnil, List.map_nil, List.append_nil] at hname
    rcases hhead with ⟨-, rfl⟩ | ⟨-, rfl | rfl⟩ <;> simp at hname
  obtain ⟨front, last, hnames⟩ := exists_lastName hne
  rw [hnames, List.map_append, List.map_singleton, ← List.append_assoc] at hcomponents
  have hlast : componentOf last = .name last := by
    rcases hinside (componentOf last) (by simp [hcomponents]) with hcurrent | ⟨other, hother⟩
    · exact absurd hcurrent (componentOf_ne last).1
    · unfold componentOf at hother ⊢
      split at hother
      · cases hother
      · rename_i hup
        exact if_neg hup
  rw [hlast] at hcomponents
  exact ⟨_, last, hcomponents, name_spec (p := p) (by simp [hnames])⟩

/-- The file name is the last component, if that is a name. -/
theorem fileName?_of_components {p : Path} {above : List Component} {name : List Char}
    (h : p.components = above ++ [.name name]) : p.fileName? = some name := by
  rw [fileName?, h, List.getLast?_concat]

end Path

/-! ## The one source -/

/-- At most one source of a table has the components of a path. -/
theorem MappingTable.exists_sole_source {table : MappingTable} {p : Path} {m : Mapping}
    (h : table.get? p = some m) :
    m.source.Same p ∧ ∃ front back, table.toList = front ++ m :: back ∧
      ∀ n ∈ front ++ back, ¬ n.source.Same p := by
  obtain ⟨hm, hsame⟩ := get?_eq_some_iff.1 h
  obtain ⟨front, back, hsplit, hunique⟩ := exists_split_of_pairwise (Settings.acceptable table).sources hm
  refine ⟨hsame, front, back, hsplit, ?_⟩
  intro n hn hother
  exact hunique n hn (hother.normalized.trans hsame.normalized.symm)

namespace Transformer

/-- The texts of a path get the literal rules and no others. -/
def LiteralOnly (t : Transformer) (source : Path) : Prop :=
  t.isEntryPoint source = false ∧
    ∀ text, t.transform text source = String.ofList (t.afterLiterals text)

/-- The structural rules apply to one mapping of a table, and to no other one. -/
structure Selects (t : Transformer) (table : MappingTable) (m : Mapping) : Prop where
  entry : t.isEntryPoint m.source = true
  structural : ∀ text, t.transform text m.source =
    String.ofList (t.structural.foldl (fun s rule => rule.edit s) (t.afterLiterals text))
  others : ∃ front back, table.toList = front ++ m :: back ∧
    ∀ n ∈ front ++ back, t.LiteralOnly n.source

/-- To sources other than the entry point only the literal rules apply. -/
theorem literalOnly_of_not_same {t : Transformer} {source : Path} (h : ¬ source.Same t.entryPoint) :
    t.LiteralOnly source := by
  have hentry : t.isEntryPoint source = false := decide_eq_false h
  refine ⟨hentry, ?_⟩
  intro text
  rw [transform_eq_substituteAll, hentry]
  rfl

/-- The transformer selects the mapping that is found for its entry point. -/
theorem selects_of_get? {t : Transformer} {table : MappingTable} {m : Mapping}
    (h : table.get? t.entryPoint = some m) : t.Selects table m := by
  obtain ⟨hsame, front, back, hsplit, hothers⟩ := MappingTable.exists_sole_source h
  exact ⟨decide_eq_true hsame, fun text => transform_eq hsame text, front, back, hsplit,
    fun n hn => literalOnly_of_not_same (hothers n hn)⟩

/-- The fragments of settings whose entry point is mapped call it by the last name of its
destination. -/
theorem generatedName_of_get? {settings : Settings} {m : Mapping} {context : FragmentContext}
    (hget : settings.mappings.get? settings.entryPoint = some m)
    (hcontext : FragmentContext.ofSettings settings = .ok context) :
    (∃ above, m.destination.components = above ++ [.name context.generatedName.toList]) ∧
      context.generatedName ≠ "" ∧ '/' ∉ context.generatedName.toList := by
  have hfile : m.destination.NamesFile :=
    (Settings.acceptable settings.mappings).files m (List.mem_of_find?_eq_some hget)
  obtain ⟨above, name, hcomponents, hne, hslash⟩ := hfile.exists_last
  have hdestination : settings.entryPointDestination? = some m.destination := by
    rw [Settings.entryPointDestination?, MappingTable.destinationOf?, hget]
    rfl
  unfold FragmentContext.ofSettings at hcontext
  simp only [hdestination, Path.fileName?_of_components hcomponents, Option.getD_some] at hcontext
  obtain rfl := Except.ok.inj hcontext
  simp only [String.toList_ofList]
  refine ⟨⟨above, hcomponents⟩, ?_, hslash⟩
  intro hempty
  exact hne (by simpa using congrArg String.toList hempty)

/-- Settings whose entry point is not mapped have no transformer. -/
theorem ofSettings_of_not_mapped {settings : Settings} (h : ¬ settings.Mapped) :
    ofSettings settings = .error ⟨slashed settings.entryPoint⟩ := by
  have hnone : settings.entryPointDestination? = none := by
    rw [Settings.mapped_iff, Bool.not_eq_true, Option.isSome_eq_false_iff, Option.isNone_iff_eq_none] at h
    rw [Settings.entryPointDestination?, MappingTable.destinationOf?, h]
    rfl
  unfold ofSettings FragmentContext.ofSettings
  rw [hnone]
  rfl

/-- In valid settings one mapping is adapted by the five structural rules and the fragments call it
by its name; in other ones no mapping would be, by any transformer for their entry point. -/
theorem entryPoint_selected (settings : Settings) :
    (settings.validate = .ok () → ∃ context transformer m,
      FragmentContext.ofSettings settings = .ok context ∧ ofSettings settings = .ok transformer ∧
      transformer.literal = settings.substitutions ∧
      transformer.structural = [.entryPoint settings.naming, .helpFunction settings.naming,
        .usageBanner settings.naming, .header context.header, .adapter context.adapter] ∧
      transformer.Selects settings.mappings m ∧
      (∃ above, m.destination.components = above ++ [.name context.generatedName.toList]) ∧
      context.generatedName ≠ "" ∧ '/' ∉ context.generatedName.toList) ∧
    (settings.validate ≠ .ok () →
      ofSettings settings = .error ⟨slashed settings.entryPoint⟩ ∧
      ∀ t : Transformer, t.entryPoint = settings.entryPoint →
        ∀ m ∈ settings.mappings.toList, t.LiteralOnly m.source) := by
  constructor
  · intro hvalid
    obtain ⟨context, transformer, hcontext, htransformer, hliteral, hentry, hstructural⟩ :=
      exists_ofSettings hvalid
    obtain ⟨m, hget⟩ := Option.isSome_iff_exists.1
      (Settings.mapped_iff.1 (Settings.validate_eq_ok_iff.1 hvalid))
    exact ⟨context, transformer, m, hcontext, htransformer, hliteral, hstructural,
      selects_of_get? (hentry ▸ hget), generatedName_of_get? hget hcontext⟩
  · intro hinvalid
    have hmapped : ¬ settings.Mapped := fun h => hinvalid (Settings.validate_eq_ok_iff.2 h)
    refine ⟨ofSettings_of_not_mapped hmapped, ?_⟩
    intro t hentry m hm
    exact literalOnly_of_not_same fun hsame => hmapped ⟨m, hm, hentry ▸ hsame⟩

/-- The settings for a tool with the entry point spelled in another way. -/
def spelledSettings (text : String) : Settings :=
  { besideSettings with entryPoint := ⟨text⟩ }

/-- The entry point is found with a slash and `.` behind it, but not with `.` in front. -/
theorem entryPoint_selected_sample :
    (∃ context transformer m,
      FragmentContext.ofSettings (spelledSettings "main.cpp//.") = .ok context ∧
      ofSettings (spelledSettings "main.cpp//.") = .ok transformer ∧
      transformer.structural = [.entryPoint {}, .helpFunction {}, .usageBanner {},
        .header context.header, .adapter context.adapter] ∧
      transformer.Selects (spelledSettings "main.cpp//.").mappings m ∧
      context.generatedName = "hymo_cli.cpp") ∧
    ∀ t : Transformer, t.entryPoint = ⟨"./main.cpp"⟩ →
      ∀ m ∈ (spelledSettings "./main.cpp").mappings.toList, t.LiteralOnly m.source := by
  constructor
  · have hvalid : (spelledSettings "main.cpp//.").validate = .ok () := by
      rw [Settings.validate_eq_ok_iff, Settings.mapped_iff]
      decide +kernel
    obtain ⟨context, transformer, m, hcontext, htransformer, -, hstructural, hselects, -⟩ :=
      (entryPoint_selected (spelledSettings "main.cpp//.")).1 hvalid
    refine ⟨context, transformer, m, hcontext, htransformer, hstructural, hselects, ?_⟩
    obtain rfl := Except.ok.inj hcontext
    decide +kernel
  · have hinvalid : (spelledSettings "./main.cpp").validate ≠ .ok () := by
      rw [Ne, Settings.validate_eq_ok_iff, Settings.mapped_iff]
      decide +kernel
    exact ((entryPoint_selected (spelledSettings "./main.cpp")).2 hinvalid).2

end Transformer

end Vendoring
