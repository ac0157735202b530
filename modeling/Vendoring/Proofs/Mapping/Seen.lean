import Mathlib.Data.Finset.Insert
import Vendoring.Mapping

/-!
# What the check of a table keeps

To find a path that occurs twice, the check need not look at all mappings in front of it again. It
is enough to keep the set of their sources and a map from their destinations to their sources, and
to look a new path up there (`Seen.step`). What is kept always belongs to the mappings in front
(`Seen.Keeps`), so both ways find the same fault (`Seen.scan_eq_error_iff`), and both accept the
same lists (`Seen.ofList_eq_scan`).
-/

namespace Vendoring.MappingTable

/-- The sources of the mappings gone through, and the source that goes to each of their
destinations. -/
structure Seen where
  sources : Finset (List Component)
  origin? : List Component → Option Path

namespace Seen

/-- No mapping has been gone through. -/
def empty : Seen :=
  ⟨∅, fun _ => none⟩

/-- Go through the mapping at an index. -/
def step (seen : Seen) (index : Nat) (m : Mapping) : Except MappingError Seen :=
  if m.source.text = "" ∨ m.destination.text = "" then .error (.emptyPath index)
  else if m.destination.staysInside = false then .error (.escapes m.destination)
  else if m.destination.normalized = [] then .error (.isRoot m.destination)
  else if m.source.normalized ∈ seen.sources then .error (.repeatedSource m.source)
  else match seen.origin? m.destination.normalized with
    | some first => .error (.repeatedDestination m.destination first m.source)
    | none =>
      .ok
        { sources := insert m.source.normalized seen.sources
          origin? := Function.update seen.origin? m.destination.normalized (some m.source) }

/-- Go through mappings, of which the first one is at an index. -/
def scan (seen : Seen) (index : Nat) : List Mapping → Except MappingError Seen
  | [] => .ok seen
  | m :: rest =>
    match seen.step index m with
    | .error fault => .error fault
    | .ok next => next.scan (index + 1) rest

/-- What is kept belongs to the given mappings. -/
structure Keeps (seen : Seen) (earlier : List Mapping) : Prop where
  source : ∀ key, key ∈ seen.sources ↔ ∃ e ∈ earlier, e.source.normalized = key
  origin : ∀ key, seen.origin? key =
    (earlier.find? (·.destination.normalized = key)).map (·.source)

/-- In front of all entries nothing was seen. -/
theorem keeps_empty : empty.Keeps [] :=
  ⟨fun key => by simp [empty], fun _ => rfl⟩

variable {seen : Seen} {earlier : List Mapping}

/-- One step finds a fault just if the mapping has it behind those that were gone through. -/
theorem Keeps.step_eq_error_iff (h : seen.Keeps earlier) (m : Mapping) (fault : MappingError) :
    seen.step earlier.length m = .error fault ↔
      fault? earlier earlier.length m = some fault := by
  have hsource : m.source.normalized ∈ seen.sources ↔
      earlier.any (·.source.normalized = m.source.normalized) = true := by
    simp [h.source]
  unfold step fault?
  simp only [hsource, h.origin]
  split
  · simp
  split
  · simp
  split
  · simp
  split
  · simp
  cases earlier.find? (·.destination.normalized = m.destination.normalized) <;> simp

/-- Behind a step without fault the mapping is kept, too. -/
theorem Keeps.of_step {m : Mapping} {next : Seen} (h : seen.Keeps earlier)
    (hstep : seen.step earlier.length m = .ok next) : next.Keeps (earlier ++ [m]) := by
  unfold step at hstep
  split at hstep
  · cases hstep
  split at hstep
  · cases hstep
  split at hstep
  · cases hstep
  split at hstep
  · cases hstep
  split at hstep
  · cases hstep
  rename_i hnone
  obtain rfl := Except.ok.inj hstep
  refine ⟨fun key => ?_, fun key => ?_⟩
  · simp [h.source, or_comm, eq_comm]
  · simp only [List.find?_append, List.find?_singleton, decide_eq_true_eq]
    by_cases hkey : m.destination.normalized = key
    -- the destination is new, so no mapping in front is found in its place
    · subst hkey
      rw [h.origin, Option.map_eq_none_iff] at hnone
      simp [hnone]
    · rw [Function.update_of_ne (Ne.symm hkey), h.origin]
      simp [hkey]

/-- Going through mappings finds the fault of the first one that has one. -/
theorem Keeps.scan_eq_error_iff (h : seen.Keeps earlier) (entries : List Mapping)
    (fault : MappingError) :
    seen.scan earlier.length entries = .error fault ↔
      firstFaultFrom earlier entries = some fault := by
  induction entries generalizing seen earlier with
  | nil => simp [scan, firstFaultFrom]
  | cons m entries ih =>
      have hstep := h.step_eq_error_iff m
      rw [scan, firstFaultFrom]
      cases hm : fault? earlier earlier.length m with
      | some found =>
          rw [(hstep found).2 hm]
          simp
      | none =>
          cases hnext : seen.step earlier.length m with
          | error found =>
              rw [(hstep found).1 hnext] at hm
              cases hm
          | ok next =>
              have hrest := ih (h.of_step hnext)
              rwa [List.length_append, List.length_singleton] at hrest

/-- The check accepts the mappings that can be gone through, and otherwise gives the fault at which
that ends. -/
theorem ofList_eq_scan (entries : List Mapping) :
    (ofList entries).map toList = (empty.scan 0 entries).map fun _ => entries := by
  have hscan := keeps_empty.scan_eq_error_iff entries
  unfold ofList
  split
  · rename_i hnone
    cases hresult : empty.scan 0 entries with
    | ok final => rfl
    | error fault =>
        rw [firstFault?, (hscan fault).1 hresult] at hnone
        cases hnone
  · rename_i fault hfault
    rw [show empty.scan 0 entries = .error fault from (hscan fault).2 hfault]
    rfl

end Seen

end Vendoring.MappingTable
