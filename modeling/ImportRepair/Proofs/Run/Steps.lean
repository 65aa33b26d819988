import ImportRepair.Proofs.Patch.Trail
import ImportRepair.Proofs.Run.Advisers

/-!
# The steps of a run

A run takes one step for each type: it learns the module, and patches the files that reported the
type. The results of all steps together trace the way from the files before the run to the files
after it, whoever gives the modules, as long as giving them touches no file.

Results:
* `Run.handleTypes_cons_eq_ok`: a run stops at a type, or takes a step and goes on.
* `Run.handled_of_handleTypes`: what a run has done that handled all types.
* `Run.finished_of_inputEnded`: what a run has done that stopped at a type.
* `Run.handleTypes_returns`: a run that is told every module handles all types.
-/

namespace ImportRepair

/-! ## Steps -/

/-- What a run did about one type. -/
structure Step where
  type : Text
  module : Text
  results : List Patch.Result

/-- The results are those for the paths of the type and for its module. -/
structure Step.Covers (index : Index) (s : Step) : Prop where
  paths : s.results.map (·.path) = Text.sort (index.pathsFor s.type)
  module : ∀ r ∈ s.results, r.module = s.module

/-- All results of some steps. -/
def Step.all (steps : List Step) : List Patch.Result := steps.flatMap (·.results)

/-- Every result is for a path that reported the type of its step. -/
theorem Step.path_mem {index : Index} {steps : List Step} (hc : ∀ s ∈ steps, s.Covers index)
    {r : Patch.Result} (hr : r ∈ all steps) : ∃ s ∈ steps, r.path ∈ index.pathsFor s.type := by
  obtain ⟨s, hs, hrs⟩ := List.mem_flatMap.1 hr
  refine ⟨s, hs, ?_⟩
  rw [← Patch.mem_sort, ← (hc s hs).paths]
  exact List.mem_map_of_mem hrs

/-- A report with further steps. -/
def Report.extend (report : Report) (steps : List Step) : Report :=
  { report with
    modules := report.modules ++ steps.map fun s => (s.type, s.module)
    results := report.results ++ steps.map fun s => (s.type, s.results) }

theorem Report.extend_nil (report : Report) : report.extend [] = report := by
  rw [extend, List.map_nil, List.map_nil, List.append_nil, List.append_nil]

theorem Report.extend_add (report : Report) (s : Step) (steps : List Step) :
    (report.add s.type s.module s.results).extend steps = report.extend (s :: steps) := by
  rw [extend, extend, add]
  simp only [List.map_cons, List.append_assoc, List.singleton_append]

/-- What a run did about some types, and what it left. -/
structure Run.Handled (run : Run) (index : Index) (types : List Text) (steps : List Step)
    (w v : World) : Prop where
  order : steps.map (·.type) = types
  covers : ∀ s ∈ steps, s.Covers index
  /-- Every module was given by the adviser. -/
  given : ∀ s ∈ steps, ∃ n u x, (run.resolver s.type n).run u = .ok (some s.module) x
  told : ∀ type ∈ types, ∀ path ∈ index.pathsFor type, Patch.fault? w.mishaps w.tree path = none
  passed : World.Passed w v
  traced : Patch.Traced run.trial w (Step.all steps) v

/-- The modules and paths of results. -/
def Patch.keys (results : List Patch.Result) : List (Text × Text) :=
  results.map fun r => (r.module, r.path)

/-- What steps ask of files depends on the types and the modules alone. -/
theorem Step.keys_all {index : Index} {steps : List Step} (hc : ∀ s ∈ steps, s.Covers index) :
    Patch.keys (Step.all steps) = (steps.map fun s => (s.type, s.module)).flatMap fun e =>
      (Text.sort (index.pathsFor e.1)).map fun path => (e.2, path) := by
  rw [Patch.keys, Step.all, List.map_flatMap, List.flatMap_map]
  refine List.flatMap_congr fun s hs => ?_
  rw [← (hc s hs).paths, List.map_map]
  refine List.map_congr_left fun r hr => ?_
  rw [(hc s hs).module r hr]
  rfl

/-- The paths that a report names for each type. -/
def Report.paths (report : Report) : List (Text × List Text) :=
  report.results.map fun e => (e.1, e.2.map (·.path))

/-- The statuses that a report gives for each type, with their paths. -/
def Report.statuses (report : Report) : List (Text × List (Text × Patch.Status)) :=
  report.results.map fun e => (e.1, e.2.map fun r => (r.path, r.status))

/-- The results of a report in the order in which they came. -/
def Report.inOrder (report : Report) : List Patch.Result := report.results.flatMap (·.2)

theorem Report.inOrder_extend (index : Index) (steps : List Step) :
    ((Report.start index).extend steps).inOrder = Step.all steps := by
  show (([] : List (Text × List Patch.Result)) ++ steps.map fun s : Step =>
    (s.type, s.results)).flatMap (fun e => e.2) = Step.all steps
  rw [List.nil_append, List.flatMap_map, Step.all]

/-- Statuses belong to the types and paths that their steps ask for. -/
theorem Step.statuses_eq {index : Index} {steps others : List Step}
    (hc : ∀ s ∈ steps, s.Covers index) (hc' : ∀ s ∈ others, s.Covers index)
    (ht : others.map (·.type) = steps.map (·.type)) {f : Patch.Status → Patch.Status}
    (hall : (Step.all others).map (·.status) = (Step.all steps).map fun r => f r.status) :
    (others.map fun s => (s.type, s.results.map fun r => (r.path, r.status))) =
      steps.map fun s => (s.type, s.results.map fun r => (r.path, f r.status)) := by
  induction steps generalizing others with
  | nil =>
    rw [List.map_nil, List.map_eq_nil_iff] at ht
    rw [ht]
    rfl
  | cons s steps ih =>
    cases others with
    | nil => cases ht
    | cons o others =>
      rw [List.forall_mem_cons] at hc hc'
      rw [List.map_cons, List.map_cons, List.cons.injEq] at ht
      have hpaths : o.results.map (·.path) = s.results.map (·.path) := by
        rw [hc'.1.paths, hc.1.paths, ht.1]
      have hlen : o.results.length = s.results.length := by
        simpa using congrArg List.length hpaths
      have hsplit : ∀ x xs, Step.all (x :: xs) = x.results ++ Step.all xs :=
        fun _ _ => List.flatMap_cons
      rw [hsplit, hsplit, List.map_append, List.map_append] at hall
      obtain ⟨hfirst, hrest⟩ := List.append_inj hall (by simpa using hlen)
      have hboth : (o.results.map fun r => (r.path, r.status)) =
          s.results.map fun r => (r.path, f r.status) := by
        rw [← List.zip_map', ← List.zip_map', hpaths, hfirst]
      rw [List.map_cons, List.map_cons, ih hc.2 hc'.2 ht.2 hrest, ht.1, hboth]

/-- The report of a run, however it ends. -/
def Outcome.report : Outcome → Report
  | .finished report => report
  | .inputEnded _ report => report

/-! ## Telling outcomes -/

theorem kept_of_tell {results : List Patch.Result} {w v : World}
    (h : (results.forM Run.tell).run w = .ok () v) : World.Kept w v := by
  induction results generalizing w with
  | nil =>
    cases h
    exact .refl _
  | cons r results ih =>
    change (Run.tell r >>= fun _ => results.forM Run.tell).run w = _ at h
    obtain ⟨_, u, hu, h⟩ := run_bind_eq_ok.1 h
    exact (kept_of_display hu).trans (ih h)

theorem World.Obliging.tell {w : World} (h : w.Obliging) (results : List Patch.Result) :
    ∃ v, (results.forM Run.tell).run w = .ok () v ∧ World.Kept w v := by
  induction results generalizing w with
  | nil => exact ⟨w, rfl, .refl w⟩
  | cons r results ih =>
    obtain ⟨u, hu, hk⟩ := h.display (.message (Run.tone r.status) r.message)
    obtain ⟨v, hv, hk'⟩ := ih (h.kept hk)
    refine ⟨v, ?_, hk.trans hk'⟩
    show (Run.tell r >>= fun _ => results.forM Run.tell).run w = _
    exact (run_bind_of_ok hu).trans hv

/-! ## Handling types -/

namespace Run

variable {run : Run} {types : List Text} {w v : World}

/-- Records and requests before do not matter. -/
theorem Handled.of_kept {index : Index} {steps : List Step} {u : World} (hs : w.tree.Sound)
    (hk : World.Kept w u) (h : run.Handled index types steps u v) :
    run.Handled index types steps w v := by
  have hp := hk.passed hs
  refine ⟨h.order, h.covers, h.given, ?_, hp.trans h.passed,
    (Patch.traced_of_kept hk).append hp h.traced⟩
  rw [← hp.mishaps, hp.shape.fault?]
  exact h.told

/-- A step of a run: the module is given, the files are patched, and the results are told. -/
def Takes (run : Run) (index : Index) (s : Step) (w v : World) : Prop :=
  ∃ u x, (run.resolver s.type (index.pathsFor s.type).length).run w = .ok (some s.module) u ∧
    (Patch.files run.trial s.module (index.pathsFor s.type)).run u = .ok s.results x ∧
    (s.results.forM tell).run x = .ok () v

/-- At a type, a run stops because the module is not given, or it takes a step and goes on. -/
theorem handleTypes_cons_eq_ok {type : Text} {report : Report} {outcome : Outcome} :
    (run.handleTypes (type :: types) report).run w = .ok outcome v ↔
      outcome = .inputEnded type report ∧
          (run.resolver type (report.index.pathsFor type).length).run w = .ok none v ∨
        ∃ s u, s.type = type ∧ run.Takes report.index s w u ∧
          (run.handleTypes types (report.add type s.module s.results)).run u = .ok outcome v := by
  rw [handleTypes]
  constructor
  · intro h
    obtain ⟨answer, u, hu, h⟩ := run_bind_eq_ok.1 h
    cases answer with
    | none =>
      cases h
      exact Or.inl ⟨rfl, hu⟩
    | some module =>
      obtain ⟨results, x, hx, h⟩ := run_bind_eq_ok.1 h
      obtain ⟨_, y, hy, h⟩ := run_bind_eq_ok.1 h
      exact Or.inr ⟨⟨type, module, results⟩, y, rfl, ⟨u, x, hu, hx, hy⟩, h⟩
  · rintro (⟨rfl, hu⟩ | ⟨s, y, rfl, ⟨u, x, hu, hx, hy⟩, h⟩)
    · exact (run_bind_of_ok hu).trans rfl
    · exact (run_bind_of_ok hu).trans ((run_bind_of_ok hx).trans ((run_bind_of_ok hy).trans h))

/-- What a step does, and what it leaves. -/
theorem Takes.covers {index : Index} {s : Step} (h : run.Takes index s w v) (hs : w.tree.Sound)
    (hk : run.resolver.Keeps s.type) : s.Covers index ∧ World.Passed w v := by
  obtain ⟨u, x, hu, hx, hv⟩ := h
  have hpu := (hk _ _ _ _ hu).passed hs
  obtain ⟨_, hpaths, hmodule, hpx, _⟩ := Patch.files_eq_ok hpu.sound hx
  exact ⟨⟨hpaths, hmodule⟩, (hpu.trans hpx).trans ((kept_of_tell hv).passed hpx.sound)⟩

/-- What is left after one type was handled. -/
theorem Handled.cons {index : Index} {s : Step} {u : World} {steps : List Step} (hs : w.tree.Sound)
    (hk : run.resolver.Keeps s.type) (hstep : run.Takes index s w u)
    (h : run.Handled index types steps u v) :
    run.Handled index (s.type :: types) (s :: steps) w v := by
  obtain ⟨hcovers, hpass⟩ := hstep.covers hs hk
  obtain ⟨x, y, hx, hy, hu⟩ := hstep
  have hkx := hk _ _ _ _ hx
  have hpx := hkx.passed hs
  obtain ⟨hfaults, _, _, hpy, hfiles⟩ := Patch.files_eq_ok hpx.sound hy
  have hku := kept_of_tell hu
  constructor
  · rw [List.map_cons, h.order]
  · rw [List.forall_mem_cons]
    exact ⟨hcovers, h.covers⟩
  · rw [List.forall_mem_cons]
    exact ⟨⟨_, w, x, hx⟩, h.given⟩
  · rw [List.forall_mem_cons]
    constructor
    · rw [← hkx.mishaps, hpx.shape.fault?]
      exact hfaults
    · rw [← hpass.mishaps, hpass.shape.fault?]
      exact h.told
  · exact hpass.trans h.passed
  · have hrest := (Patch.traced_of_kept hku).append (hku.passed hpy.sound) h.traced
    exact (Patch.traced_of_kept hkx).append hpx (hfiles.append hpy hrest)

/-- What a run has done that handled all types. -/
theorem handled_of_handleTypes {report report' : Report} (hs : w.tree.Sound)
    (hk : ∀ type ∈ types, run.resolver.Keeps type)
    (h : (run.handleTypes types report).run w = .ok (.finished report') v) :
    ∃ steps, report' = report.extend steps ∧ run.Handled report.index types steps w v := by
  induction types generalizing w report with
  | nil =>
    cases h
    exact ⟨[], (Report.extend_nil _).symm, rfl, by simp, by simp, by simp,
      (World.Kept.refl _).passed hs, Patch.traced_of_kept (.refl _)⟩
  | cons type types ih =>
    rw [List.forall_mem_cons] at hk
    obtain ⟨hstop, _⟩ | ⟨s, u, rfl, hstep, h⟩ := handleTypes_cons_eq_ok.1 h
    · cases hstop
    obtain ⟨steps, hreport, hsteps⟩ := ih (hstep.covers hs hk.1).2.sound hk.2 h
    exact ⟨s :: steps, hreport.trans (report.extend_add s steps), .cons hs hk.1 hstep hsteps⟩

/-- Records and requests afterwards do not matter. -/
theorem Handled.kept_after {index : Index} {steps : List Step} {u : World}
    (h : run.Handled index types steps w u) (hk : World.Kept u v) :
    run.Handled index types steps w v := by
  refine ⟨h.order, h.covers, h.given, h.told, h.passed.trans (hk.passed h.passed.sound), ?_⟩
  have htraced := h.traced.append h.passed (Patch.traced_of_kept hk)
  rwa [List.append_nil] at htraced

/-- A run that stopped at a type has handled the types before it like a run on these types alone. -/
theorem finished_of_inputEnded {report report' : Report} {type : Text}
    (h : (run.handleTypes types report).run w = .ok (.inputEnded type report') v) :
    ∃ before rest u, types = before ++ type :: rest ∧
      (run.handleTypes before report).run w = .ok (.finished report') u ∧
      (run.resolver type (report'.index.pathsFor type).length).run u = .ok none v := by
  induction types generalizing w report with
  | nil => cases h
  | cons first types ih =>
    obtain ⟨hstop, hlast⟩ | ⟨s, u, hs, hstep, h⟩ := handleTypes_cons_eq_ok.1 h
    · cases hstop
      exact ⟨[], types, w, rfl, rfl, hlast⟩
    · obtain ⟨before, rest, x, htypes, hx, hlast⟩ := ih h
      exact ⟨first :: before, rest, x, by rw [htypes, List.cons_append],
        handleTypes_cons_eq_ok.2 (Or.inr ⟨s, u, hs, hstep, hx⟩), hlast⟩

/-- However a run ends that does not fail, it has handled the first types and no others. -/
theorem handled_of_outcome {report : Report} {outcome : Outcome} (hs : w.tree.Sound)
    (hk : ∀ type ∈ types, run.resolver.Keeps type)
    (h : (run.handleTypes types report).run w = .ok outcome v) :
    ∃ before rest steps, types = before ++ rest ∧ outcome.report = report.extend steps ∧
      run.Handled report.index before steps w v := by
  cases outcome with
  | finished report' =>
    obtain ⟨steps, hreport, hsteps⟩ := handled_of_handleTypes hs hk h
    exact ⟨types, [], steps, (List.append_nil types).symm, hreport, hsteps⟩
  | inputEnded type report' =>
    obtain ⟨before, rest, u, rfl, hu, hlast⟩ := finished_of_inputEnded h
    obtain ⟨steps, hreport, hsteps⟩ := handled_of_handleTypes hs
      (fun t ht => hk t (List.mem_append_left _ ht)) hu
    have hkeeps := hk type (List.mem_append_right _ (List.mem_cons_self ..))
    exact ⟨before, type :: rest, steps, rfl, hreport, hsteps.kept_after (hkeeps _ _ _ _ hlast)⟩

/-- The modules of a run that is told them beforehand. -/
theorem Handled.module_eq {index : Index} {steps : List Step} {assign : Text → Text}
    (h : run.Handled index types steps w v)
    (ha : ∀ type ∈ types, run.resolver.Answers type (assign type)) :
    ∀ s ∈ steps, s.module = assign s.type := by
  intro s hs
  have htype : s.type ∈ types := by
    rw [← h.order]
    exact List.mem_map_of_mem hs
  obtain ⟨n, u, x, hx⟩ := h.given s hs
  have hm := (ha _ htype).unique hx
  exact Option.some.inj hm

theorem Handled.modules_eq {index : Index} {steps : List Step} {assign : Text → Text}
    (h : run.Handled index types steps w v)
    (ha : ∀ type ∈ types, run.resolver.Answers type (assign type)) :
    (steps.map fun s => (s.type, s.module)) = types.map fun type => (type, assign type) := by
  have hmodule := h.module_eq ha
  rw [← h.order, List.map_map]
  refine List.map_congr_left fun s hs => ?_
  rw [hmodule s hs]
  rfl

/-- The paths of each type are those that the index has. -/
theorem Handled.paths_eq {index : Index} {steps : List Step}
    (h : run.Handled index types steps w v) :
    (steps.map fun s => (s.type, s.results.map (·.path))) =
      types.map fun type => (type, Text.sort (index.pathsFor type)) := by
  rw [← h.order, List.map_map]
  refine List.map_congr_left fun s hs => ?_
  rw [(h.covers s hs).paths]
  rfl

/-- A run that is told every module handles all types, if every path can be told to be writable or
not and the console refuses nothing. -/
theorem handleTypes_returns (report : Report) {assign : Text → Text} (hs : w.tree.Sound)
    (ho : w.Obliging) (ha : ∀ type ∈ types, run.resolver.Answers type (assign type))
    (hf : ∀ type ∈ types, ∀ path ∈ report.index.pathsFor type,
      Patch.fault? w.mishaps w.tree path = none) :
    ∃ report' v, (run.handleTypes types report).run w = .ok (.finished report') v := by
  induction types generalizing w report with
  | nil => exact ⟨report, w, rfl⟩
  | cons type types ih =>
    rw [List.forall_mem_cons] at ha hf
    obtain ⟨u, hu, hku⟩ := ha.1 (report.index.pathsFor type).length w
    have hpu := hku.passed hs
    have hfu : ∀ path ∈ report.index.pathsFor type, Patch.fault? u.mishaps u.tree path = none := by
      rw [hpu.mishaps, ← hpu.shape.fault?]
      exact hf.1
    obtain ⟨results, x, hx⟩ := Patch.files_returns hpu.sound run.trial (assign type) hfu
    obtain ⟨_, _, _, hpx, _⟩ := Patch.files_eq_ok hpu.sound hx
    obtain ⟨y, hy, hky⟩ := (ho.passed (hpu.trans hpx)).tell results
    have hpy := (hpu.trans hpx).trans (hky.passed hpx.sound)
    have hfy : ∀ type ∈ types, ∀ path ∈ report.index.pathsFor type,
        Patch.fault? y.mishaps y.tree path = none := by
      rw [hpy.mishaps, ← hpy.shape.fault?]
      exact hf.2
    obtain ⟨report', v, hv⟩ := ih (report.add type (assign type) results) hpy.sound
      (ho.passed hpy) ha.2 hfy
    exact ⟨report', v, handleTypes_cons_eq_ok.2
      (Or.inr ⟨⟨type, assign type, results⟩, y, rfl, ⟨u, x, hu, hx, hy⟩, hv⟩)⟩

end Run

end ImportRepair
