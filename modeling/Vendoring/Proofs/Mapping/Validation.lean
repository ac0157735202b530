import Vendoring.Mapping.Builtin
import Vendoring.Mapping.Exchange

/-!
# Which lists of mappings are tables

`Acceptable` says what is asked of the mappings of a table, in terms of the texts and the components
of their paths, and `Fault` says what is wrong with one mapping behind others, with the order in
which the faults count. A list is accepted exactly if it is acceptable, and then it is the table; a
list that is rejected has a first mapping with a fault behind an acceptable front, and that fault is
the error (`ofList_exact`). So every table comes back from its list of mappings, and from its value
in the exchange format.
-/

namespace Vendoring

/-- The path consists of names and `.` only, with at least one name. -/
def Path.NamesFile (p : Path) : Prop :=
  (∀ c ∈ p.components, c = .current ∨ ∃ name, c = .name name) ∧ ∃ name, .name name ∈ p.components

namespace MappingTable

/-- What is asked of the mappings of a table. -/
structure Acceptable (entries : List Mapping) : Prop where
  nonempty : ∀ m ∈ entries, m.source.text ≠ "" ∧ m.destination.text ≠ ""
  files : ∀ m ∈ entries, m.destination.NamesFile
  sources : entries.Pairwise fun m n => m.source.normalized ≠ n.source.normalized
  destinations : entries.Pairwise fun m n => m.destination.normalized ≠ n.destination.normalized

/-- What is wrong with a mapping behind others. A fault counts only if none of those in front of it
is there. -/
inductive Fault (earlier : List Mapping) (m : Mapping) : MappingError → Prop
  | emptyPath (hempty : m.source.text = "" ∨ m.destination.text = "") :
      Fault earlier m (.emptyPath earlier.length)
  | escapes (hsource : m.source.text ≠ "") (hdestination : m.destination.text ≠ "")
      (hout : .root ∈ m.destination.components ∨ .parent ∈ m.destination.components) :
      Fault earlier m (.escapes m.destination)
  | isRoot (hsource : m.source.text ≠ "") (hdestination : m.destination.text ≠ "")
      (hdots : ∀ c ∈ m.destination.components, c = .current) :
      Fault earlier m (.isRoot m.destination)
  | repeatedSource (hsource : m.source.text ≠ "") (hdestination : m.destination.text ≠ "")
      (hfile : m.destination.NamesFile)
      (hrepeated : ∃ e ∈ earlier, e.source.normalized = m.source.normalized) :
      Fault earlier m (.repeatedSource m.source)
  | repeatedDestination (hsource : m.source.text ≠ "") (hdestination : m.destination.text ≠ "")
      (hfile : m.destination.NamesFile)
      (hfresh : ∀ e ∈ earlier, e.source.normalized ≠ m.source.normalized)
      {front back : List Mapping} {first : Mapping} (hearlier : earlier = front ++ first :: back)
      (hrepeated : first.destination.normalized = m.destination.normalized)
      (hunique : ∀ e ∈ front ++ back, e.destination.normalized ≠ m.destination.normalized) :
      Fault earlier m (.repeatedDestination m.destination first.source m.source)

/-! ## Destinations -/

/-- A path leaves the directory exactly if it has the root or a `..` among its components. -/
theorem staysInside_eq_false_iff {p : Path} :
    p.staysInside = false ↔ .root ∈ p.components ∨ .parent ∈ p.components := by
  rw [Path.staysInside, List.all_eq_false]
  constructor
  · rintro ⟨c, hc, hout⟩
    cases c with
    | root => exact Or.inl hc
    | current => simp at hout
    | parent => exact Or.inr hc
    | name name => simp at hout
  · rintro (hroot | hparent)
    · exact ⟨.root, hroot, by simp⟩
    · exact ⟨.parent, hparent, by simp⟩

/-- A path has no normal form exactly if it has no component but `.`. -/
theorem normalized_eq_nil_iff {p : Path} :
    p.normalized = [] ↔ ∀ c ∈ p.components, c = .current := by
  rw [Path.normalized, List.filter_eq_nil_iff]
  simp

/-- A path names a file exactly if it stays inside and is not made of `.` alone. -/
theorem namesFile_iff {p : Path} : p.NamesFile ↔ p.staysInside = true ∧ p.normalized ≠ [] := by
  have hinside : p.staysInside = true ↔
      ∀ c ∈ p.components, c = .current ∨ ∃ name, c = .name name := by
    rw [Path.staysInside, List.all_eq_true]
    refine forall₂_congr ?_
    intro c _
    cases c <;> simp
  rw [Path.NamesFile, ← hinside]
  refine and_congr_right ?_
  intro hstays
  rw [hinside] at hstays
  rw [Ne, normalized_eq_nil_iff]
  constructor
  · rintro ⟨name, hname⟩ hdots
    cases hdots _ hname
  · intro hdots
    obtain ⟨c, hc, hne⟩ := by simpa using hdots
    obtain ⟨name, rfl⟩ := (hstays c hc).resolve_left hne
    exact ⟨name, hc⟩

/-! ## Acceptable lists -/

/-- A list is acceptable exactly if no mapping of it has a fault. -/
theorem acceptable_iff {entries : List Mapping} :
    Acceptable entries ↔ firstFault? entries = none := by
  rw [firstFault?_eq_none_iff]
  constructor
  · intro h
    refine ⟨?_, h.sources.and h.destinations⟩
    intro m hm
    obtain ⟨hinside, hnormalized⟩ := namesFile_iff.1 (h.files m hm)
    exact ⟨(h.nonempty m hm).1, (h.nonempty m hm).2, hinside, hnormalized⟩
  · rintro ⟨hsound, hapart⟩
    refine ⟨?_, ?_, hapart.imp And.left, hapart.imp And.right⟩
    · intro m hm
      exact ⟨(hsound m hm).1, (hsound m hm).2.1⟩
    · intro m hm
      exact namesFile_iff.2 (hsound m hm).2.2

/-- An entry of a list whose keys differ is the only one with its key. -/
theorem exists_split_of_pairwise {α β : Type} {key : α → β} {l : List α} {x : α}
    (hapart : l.Pairwise fun y z => key y ≠ key z) (hx : x ∈ l) :
    ∃ front back, l = front ++ x :: back ∧ ∀ y ∈ front ++ back, key y ≠ key x := by
  obtain ⟨front, back, rfl⟩ := List.append_of_mem hx
  refine ⟨front, back, rfl, ?_⟩
  obtain ⟨-, hback, hfront⟩ := List.pairwise_append.1 hapart
  intro y hy
  rcases List.mem_append.1 hy with hy | hy
  · exact hfront y hy x (by simp)
  · exact ((List.pairwise_cons.1 hback).1 y hy).symm

/-- A mapping that is found by its destination is the only one with it. -/
theorem exists_of_find?_destination {earlier : List Mapping} {m first : Mapping}
    (hapart : earlier.Pairwise fun m n => m.destination.normalized ≠ n.destination.normalized)
    (hfind : earlier.find? (·.destination.normalized = m.destination.normalized) = some first) :
    ∃ front back, earlier = front ++ first :: back ∧
      first.destination.normalized = m.destination.normalized ∧
      ∀ e ∈ front ++ back, e.destination.normalized ≠ m.destination.normalized := by
  have hsame : first.destination.normalized = m.destination.normalized := by
    simpa using List.find?_some hfind
  obtain ⟨front, back, hearlier, hunique⟩ :=
    exists_split_of_pairwise hapart (List.mem_of_find?_eq_some hfind)
  exact ⟨front, back, hearlier, hsame, fun e he => hsame ▸ hunique e he⟩

/-- The one entry with the destination is the one that is found. -/
theorem find?_destination_of_unique {front back : List Mapping} {m first : Mapping}
    (hsame : first.destination.normalized = m.destination.normalized)
    (hunique : ∀ e ∈ front ++ back, e.destination.normalized ≠ m.destination.normalized) :
    (front ++ first :: back).find? (·.destination.normalized = m.destination.normalized) =
      some first := by
  refine List.find?_eq_some_iff_append.2 ⟨decide_eq_true hsame, front, back, rfl, ?_⟩
  intro e he
  simpa using hunique e (List.mem_append_left _ he)

/-- The fault of a mapping behind acceptable ones. -/
theorem fault?_eq_some_iff {earlier : List Mapping} {m : Mapping} {error : MappingError}
    (hapart : earlier.Pairwise fun m n => m.destination.normalized ≠ n.destination.normalized) :
    fault? earlier earlier.length m = some error ↔ Fault earlier m error := by
  constructor
  · intro h
    unfold fault? at h
    split at h
    · rename_i hempty
      obtain rfl := Option.some.inj h
      exact .emptyPath hempty
    rename_i hempty
    obtain ⟨hsource, hdestination⟩ := not_or.1 hempty
    split at h
    · rename_i hout
      obtain rfl := Option.some.inj h
      exact .escapes hsource hdestination (staysInside_eq_false_iff.1 hout)
    rename_i hinside
    split at h
    · rename_i hroot
      obtain rfl := Option.some.inj h
      exact .isRoot hsource hdestination (normalized_eq_nil_iff.1 hroot)
    rename_i hroot
    have hfile : m.destination.NamesFile := namesFile_iff.2 ⟨by simpa using hinside, hroot⟩
    split at h
    · rename_i hrepeated
      obtain rfl := Option.some.inj h
      exact .repeatedSource hsource hdestination hfile (by simpa using hrepeated)
    rename_i hfresh
    split at h
    · rename_i first hfind
      obtain rfl := Option.some.inj h
      obtain ⟨front, back, hearlier, hsame, hunique⟩ := exists_of_find?_destination hapart hfind
      exact .repeatedDestination hsource hdestination hfile (by simpa using hfresh) hearlier hsame
        hunique
    · cases h
  · intro h
    unfold fault?
    cases h with
    | emptyPath hempty => rw [if_pos hempty]
    | escapes hsource hdestination hout =>
        rw [if_neg (not_or.2 ⟨hsource, hdestination⟩), if_pos (staysInside_eq_false_iff.2 hout)]
    | isRoot hsource hdestination hdots =>
        have hinside : ¬ m.destination.staysInside = false := by
          rw [staysInside_eq_false_iff]
          rintro (hroot | hparent)
          · cases hdots _ hroot
          · cases hdots _ hparent
        rw [if_neg (not_or.2 ⟨hsource, hdestination⟩), if_neg hinside,
          if_pos (normalized_eq_nil_iff.2 hdots)]
    | repeatedSource hsource hdestination hfile hrepeated =>
        obtain ⟨hinside, hroot⟩ := namesFile_iff.1 hfile
        rw [if_neg (not_or.2 ⟨hsource, hdestination⟩), if_neg (by simp [hinside]), if_neg hroot,
          if_pos (by simpa using hrepeated)]
    | repeatedDestination hsource hdestination hfile hfresh hearlier hsame hunique =>
        obtain ⟨hinside, hroot⟩ := namesFile_iff.1 hfile
        rw [if_neg (not_or.2 ⟨hsource, hdestination⟩), if_neg (by simp [hinside]), if_neg hroot,
          if_neg (by simpa using hfresh), hearlier, find?_destination_of_unique hsame hunique]

/-- The first mapping with a fault decides: what is in front of it has none. -/
theorem firstFaultFrom_eq_some_iff {earlier entries : List Mapping} {error : MappingError} :
    firstFaultFrom earlier entries = some error ↔
      ∃ front m back, entries = front ++ m :: back ∧ firstFaultFrom earlier front = none ∧
        fault? (earlier ++ front) (earlier ++ front).length m = some error := by
  induction entries generalizing earlier with
  | nil => simp [firstFaultFrom]
  | cons first entries ih =>
      rw [firstFaultFrom]
      cases hfirst : fault? earlier earlier.length first with
      | some fault =>
          constructor
          · intro h
            exact ⟨[], first, entries, rfl, rfl, by simpa [hfirst] using h⟩
          · rintro ⟨front, m, back, heq, hfront, hm⟩
            cases front with
            | nil =>
                obtain ⟨rfl, -⟩ := List.cons.inj heq
                simpa [hfirst] using hm
            | cons other front =>
                obtain ⟨rfl, -⟩ := List.cons.inj heq
                simp [firstFaultFrom, hfirst] at hfront
      | none =>
          simp only
          rw [ih]
          constructor
          · rintro ⟨front, m, back, rfl, hfront, hm⟩
            refine ⟨first :: front, m, back, rfl, ?_, by simpa using hm⟩
            rw [firstFaultFrom, hfirst]
            exact hfront
          · rintro ⟨front, m, back, heq, hfront, hm⟩
            cases front with
            | nil =>
                obtain ⟨rfl, -⟩ := List.cons.inj heq
                simp [hfirst] at hm
            | cons other front =>
                obtain ⟨rfl, rfl⟩ := List.cons.inj heq
                rw [firstFaultFrom, hfirst] at hfront
                exact ⟨front, m, back, rfl, hfront, by simpa using hm⟩

/-- The first fault is that of an entry behind acceptable ones. -/
theorem firstFault?_eq_some_iff {entries : List Mapping} {error : MappingError} :
    firstFault? entries = some error ↔
      ∃ front m back, entries = front ++ m :: back ∧ Acceptable front ∧ Fault front m error := by
  rw [firstFault?, firstFaultFrom_eq_some_iff]
  refine exists_congr fun front => exists_congr fun m => exists_congr fun back => ?_
  refine and_congr_right fun _ => ?_
  show firstFault? front = none ∧ fault? front front.length m = some error ↔ _
  rw [← acceptable_iff]
  refine and_congr_right ?_
  intro hfront
  exact fault?_eq_some_iff hfront.destinations

/-! ## Tables and their lists -/

/-- A table is made exactly of the list of its entries. -/
theorem ofList_eq_ok_iff {entries : List Mapping} {table : MappingTable} :
    ofList entries = .ok table ↔ table.toList = entries := by
  constructor
  · intro h
    unfold ofList at h
    split at h
    · obtain rfl := Except.ok.inj h
      rfl
    · cases h
  · rintro rfl
    exact ofList_toList table

/-- A list is rejected exactly for its first fault. -/
theorem ofList_eq_error_iff {entries : List Mapping} {error : MappingError} :
    ofList entries = .error error ↔ firstFault? entries = some error := by
  unfold ofList
  split
  · rename_i hnone
    simp [hnone]
  · rename_i fault hfault
    simp [hfault]

/-- A field is found in front of others with different names. -/
theorem onlyField?_cons_self (name : List Char) (value : Json) {fields : List (List Char × Json)}
    (h : ∀ field ∈ fields, field.1 ≠ name) : onlyField? name ((name, value) :: fields) = some value := by
  have hothers : fields.filter (·.1 = name) = [] := by
    rw [List.filter_eq_nil_iff]
    simpa using h
  simp [onlyField?, hothers]

/-- A field in front with another name is passed over. -/
theorem onlyField?_cons_of_ne {name other : List Char} (h : other ≠ name) (value : Json)
    (fields : List (List Char × Json)) :
    onlyField? name ((other, value) :: fields) = onlyField? name fields := by
  simp [onlyField?, h]

/-- A mapping comes back from its value. -/
theorem ofJson?_toJson (m : Mapping) : Mapping.ofJson? m.toJson = some m := by
  have hne : sourceField ≠ destinationField := by decide
  have hsource : ∀ value other, onlyField? sourceField
      [(sourceField, value), (destinationField, other)] = some value := fun value other =>
    onlyField?_cons_self _ _ (by simpa using hne.symm)
  have hdestination : ∀ value other, onlyField? destinationField
      [(sourceField, value), (destinationField, other)] = some other := fun value other =>
    (onlyField?_cons_of_ne hne _ _).trans (onlyField?_cons_self _ _ (by simp))
  simp [Mapping.toJson, Mapping.ofJson?, hsource, hdestination, Path.ofJson?]

/-- Entries that are written are read back. -/
theorem mapM_ofJson?_toJson (entries : List Mapping) :
    (entries.map Mapping.toJson).mapM Mapping.ofJson? = some entries := by
  induction entries with
  | nil => rfl
  | cons m entries ih => simp [ofJson?_toJson, ih]

/-- The check of a list is exact. It accepts the acceptable lists and returns them as they are; the
error of another list is the fault of its first mapping that has one. The mappings of a table, given
out as a list or as values of the exchange format, make the same table again. -/
theorem ofList_exact :
    (∀ entries, (∃ table, ofList entries = .ok table) ↔ Acceptable entries) ∧
      (∀ entries table, ofList entries = .ok table ↔ table.toList = entries) ∧
      (∀ entries error, ofList entries = .error error ↔
        ∃ front m back, entries = front ++ m :: back ∧ Acceptable front ∧ Fault front m error) ∧
      ofList builtinEntries = .ok builtin ∧
      ∀ table, ofList table.toList = .ok table ∧
        ((table.toList.map Mapping.toJson).mapM Mapping.ofJson?).map ofList = some (.ok table) := by
  refine ⟨?_, ?_, ?_, ofList_toList builtin, ?_⟩
  · intro entries
    rw [acceptable_iff]
    constructor
    · rintro ⟨table, htable⟩
      rw [← ofList_eq_ok_iff.1 htable]
      exact table.valid
    · intro hnone
      exact ⟨⟨entries, hnone⟩, ofList_eq_ok_iff.2 rfl⟩
  · intro entries table
    exact ofList_eq_ok_iff
  · intro entries error
    rw [ofList_eq_error_iff, firstFault?_eq_some_iff]
  · intro table
    refine ⟨ofList_toList table, ?_⟩
    rw [mapM_ofJson?_toJson, Option.map_some, ofList_toList]

example : firstFault? [⟨⟨"a"⟩, ⟨"x"⟩⟩, ⟨⟨"./a"⟩, ⟨"x//."⟩⟩] = some (.repeatedSource ⟨"./a"⟩) := by
  decide

end MappingTable

end Vendoring
