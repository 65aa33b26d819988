import ImportRepair.Proofs.Run.Agreement
import ImportRepair.Proofs.Run.Course

/-!
# The order of a run

A run handles the types of its index in code-point order, each once, and is done with the files of
one type before it asks for the next. If nobody knows the module of a type, the run stops there, and
it has done what a run would have done that knew of the types before it only.

Results:
* `Run.repair_below`, `Run.repair_of_below`: a run on the first types alone does the same about
  them.
* `Run.execute_in_order`: the order of a run, and where it stops.
-/

namespace ImportRepair.Run

variable {run : Run} {log : Text} {w v : World}

/-- A run on the first types alone does the same about them as a run on all types, if no record goes
to a file that reports them. -/
theorem repair_below {index index' : Index} {report : Report} {u : World} (hs : w.tree.Sound)
    (hold : ∀ c ∈ w.journal.sinks, c < w.tree.contents.length)
    (hw : ∀ type ∈ index'.types, ∀ path ∈ index.pathsFor type, w.SinksApart path)
    (ho : w.Obliging) (hku : World.Kept w u) (hanswers : u.answers = w.answers)
    (ha : ∀ type ∈ index'.types, run.resolver.ActsAlike type)
    (hp : ∀ type ∈ index'.types, index'.pathsFor type = index.pathsFor type)
    (h : (run.handleTypes index'.types (.start index)).run u = .ok (.finished report) v) :
    ∃ report' v', (run.repair index').run w = .ok (.finished report') v' ∧
      FileTree.Logged w.journal.sinks v.tree v'.tree ∧
      report'.modules = report.modules ∧ report'.results = report.results := by
  obtain ⟨u', hu', hku'⟩ := ho.display (announcement index')
  have hrefusals : u'.refusals = u.refusals := by
    rw [(ho.kept hku').refusals, (ho.kept hku).refusals]
  have hold' : ∀ c ∈ w.journal.sinks, c < u.tree.contents.length := by
    rw [hku.tree.length]
    exact hold
  have hapart : ∀ path ∈ index'.types.flatMap index.pathsFor, ∀ c ∈ w.journal.sinks,
      u.tree.contentAt path ≠ .ok c := by
    intro path hpath
    obtain ⟨type, htype, hpath⟩ := List.mem_flatMap.1 hpath
    rw [hku.tree.contentAt]
    exact hw type htype path hpath
  -- the announcements differ, and nothing else that matters does
  have ht :
      World.Twin (u.pairing u' w.journal.sinks (index'.types.flatMap index.pathsFor)) u u' :=
    World.twin_pairing (hku.passed hs).sound (hku.tree.symm.trans hku'.tree) hold' hapart
      (fun _ hc => hku.sinks ▸ hc) (fun _ hc => hku'.sinks ▸ hc)
      (hku'.mishaps.trans hku.mishaps.symm) ((answers_of_display hu').trans hanswers.symm) hrefusals
  have hstart : Report.Alike index index' (.start index) (.start index') := ⟨rfl, rfl, rfl, rfl⟩
  have hend := (agree_handleTypes ha hp
    (fun type htype path hpath => List.mem_flatMap.2 ⟨type, htype, hpath⟩) hstart).sameEnd ht
  have hrepair : (run.repair index').run w =
      (run.handleTypes index'.types (.start index')).run u' := by
    rw [repair_eq, run_bind_of_ok hu']
  rw [h, ← hrepair] at hend
  generalize (run.repair index').run w = ended at hend
  cases hend with
  | returned houtcome hv =>
    cases houtcome with
    | finished hr => exact ⟨_, _, rfl, hv.tree.logged, hr.modules, hr.results⟩

/-- A run on the references of the types below one does the same about them as a run that handles
these types first. -/
theorem repair_of_below {index' : Index} {type : Text} {report : Report} {u : World}
    (hs : w.tree.Sound) (hw : run.reader.SinksApart log w) (ho : w.Obliging)
    (hku : World.Kept w u) (hanswers : u.answers = w.answers)
    (ha : ∀ t ∈ (run.reader.indexOf w.tree log).types, run.resolver.ActsAlike t)
    (hindex' : ∀ r, r ∈ index'.references ↔
      r ∈ (run.reader.indexOf w.tree log).references ∧ r.type < type)
    (h : (run.handleTypes ((run.reader.indexOf w.tree log).types.filter (· < type))
      (.start (run.reader.indexOf w.tree log))).run u = .ok (.finished report) v) :
    ∃ report' v', (run.repair index').run w = .ok (.finished report') v' ∧
      FileTree.Logged w.journal.sinks v.tree v'.tree ∧
      report'.modules = report.modules ∧ report'.results = report.results := by
  have htypes := Index.types_below hindex'
  have hbelow : ∀ t ∈ index'.types, t ∈ (run.reader.indexOf w.tree log).types ∧ t < type := by
    intro t ht
    rw [htypes] at ht
    exact ⟨(List.mem_filter.1 ht).1, of_decide_eq_true (List.mem_filter.1 ht).2⟩
  rw [← htypes] at h
  refine repair_below hs hw.old (fun t _ path hpath => ?_) ho hku hanswers
    (fun t ht => ha t (hbelow t ht).1) (fun t ht => ?_) h
  · exact hw.atReported (Index.mem_pathsFor.1 hpath)
  · exact Index.pathsFor_congr fun path =>
      (hindex' ⟨t, path⟩).trans (and_iff_left (hbelow t ht).2)

/-- The types below the one that a run stops at are those that it has handled. -/
theorem types_of_inputEnded {index : Index} {before rest : List Text} {type : Text}
    (h : index.types = before ++ type :: rest) :
    type ∈ index.types ∧ before = index.types.filter (· < type) := by
  have hsorted := index.sorted_types
  rw [h] at hsorted ⊢
  exact ⟨List.mem_append_right _ (List.mem_cons_self ..), (filter_below hsorted).symm⟩

/-- A run that does not fail stops its indicator before it says or asks anything. Then it takes one
step for each type, in strictly increasing order: it asks for the module, handles all files and
tells all results before it goes on. If it finishes, it has handled all types of its index. If the
module of a type is not known, it stops there with a report on the types below that one, and has
left the files as a run on the references of these types alone leaves them. Records go to files that
the run does not read. -/
theorem execute_in_order (hs : w.tree.Sound) (hw : run.reader.SinksApart log w) {outcome : Outcome}
    (hk : ∀ type ∈ (run.reader.indexOf w.tree log).types, run.resolver.Keeps type)
    (h : (run.execute log).run w = .ok outcome v) :
    let index := run.reader.indexOf w.tree log
    index.types.Pairwise (· < ·) ∧
    ∃ steps, outcome.report = (Report.start index).extend steps ∧ (∀ s ∈ steps, s.Covers index) ∧
      match outcome with
      | .finished _ =>
        steps.map (·.type) = index.types ∧
        run.Course w ((opening index).map .shown ++ steps.flatMap (happenings index)) v
      | .inputEnded type report =>
        type ∈ index.types ∧ steps.map (·.type) = index.types.filter (· < type) ∧
        run.Course w ((opening index).map .shown ++ steps.flatMap (happenings index) ++
          [.advised type (index.pathsFor type).length none]) v ∧
        ∀ index', (∀ r, r ∈ index'.references ↔ r ∈ index.references ∧ r.type < type) →
          w.Obliging → (∀ t ∈ index.types, run.resolver.ActsAlike t) →
          ∃ report' v', (run.repair index').run w = .ok (.finished report') v' ∧
            FileTree.Logged w.journal.sinks v.tree v'.tree ∧
            report'.modules = report.modules ∧ report'.results = report.results := by
  intro index
  obtain ⟨u, hku, hopening, h⟩ := course_of_execute hw.atLog h
  have hsu := (hku.passed hs).sound
  refine ⟨index.sorted_types, ?_⟩
  cases outcome with
  | finished report =>
    obtain ⟨steps, hreport, horder, hcovers, hcourse⟩ := course_of_handleTypes hsu hk h
    exact ⟨steps, hreport, hcovers, horder, hopening.append hcourse⟩
  | inputEnded type report =>
    obtain ⟨before, rest, y, htypes, hy, hlast⟩ := finished_of_inputEnded h
    obtain ⟨hmem, hbefore⟩ := types_of_inputEnded htypes
    have hsub : ∀ t ∈ before, t ∈ index.types := fun t ht => by
      rw [hbefore] at ht
      exact (List.mem_filter.1 ht).1
    obtain ⟨steps, hreport, horder, hcovers, hcourse⟩ :=
      course_of_handleTypes hsu (fun t ht => hk t (hsub t ht)) hy
    have hindex : report.index = index := by rw [hreport]; rfl
    rw [hindex] at hlast
    refine ⟨steps, hreport, hcovers, hmem, horder.trans hbefore,
      (hopening.append hcourse).append (.advised hlast .done), ?_⟩
    intro index' hindex' ho ha
    obtain ⟨_, _, hsteps⟩ := handled_of_handleTypes hsu (fun t ht => hk t (hsub t ht)) hy
    have hkept := (hk type hmem _ _ _ _ hlast).tree
    rw [hsteps.passed.sinks, hku.sinks] at hkept
    rw [hbefore] at hy
    obtain ⟨report', v', hrun, hlogged, hsays⟩ :=
      repair_of_below hs hw ho hku hopening.answers ha hindex' hy
    exact ⟨report', v', hrun, hkept.symm.trans hlogged, hsays⟩

/-- A world with a user who knows one module and leaves. -/
def leftWorld : World :=
  World.new (.sample sampleLog) Journal.defaultThreshold [some "M"] {}

/-- The type that this run knows the module of, as an index of its own. -/
def knownIndex : Index := .ofList [⟨"Bar", "/A.swift"⟩]

/-- Without an answer for the second of two types, the files are left as a run on the first
one alone leaves them. -/
theorem execute_in_order_left :
    ∃ report v, (interactive.execute "log").run leftWorld = .ok (.inputEnded "Foo" report) v ∧
      ∃ report' v', (interactive.repair knownIndex).run leftWorld = .ok (.finished report') v' ∧
        v'.tree = v.tree := by
  have hstops : stopsAt "Foo" ((interactive.execute "log").run leftWorld) = true := by
    decide +kernel
  have hreferences : (interactive.reader.indexOf leftWorld.tree "log").references =
      [⟨"Bar", "/A.swift"⟩, ⟨"Foo", "/A.swift"⟩] := by decide +kernel
  have hfirst : ∀ r, r ∈ knownIndex.references ↔
      r ∈ (interactive.reader.indexOf leftWorld.tree "log").references ∧ r.type < "Foo" := by
    intro r
    rw [knownIndex, Index.mem_ofList, hreferences, List.mem_singleton, List.mem_cons,
      List.mem_singleton]
    constructor
    · rintro rfl
      exact ⟨Or.inl rfl, by decide⟩
    · rintro ⟨rfl | rfl, hlt⟩
      · rfl
      · exact absurd hlt (List.lt_irrefl _)
  obtain ⟨report, v, h⟩ := exists_of_stopsAt hstops
  have hsound : leftWorld.tree.Sound := FileTree.sound_sample sampleLog
  obtain ⟨_, _, _, _, _, _, _, hbelow⟩ := execute_in_order hsound
    (Reader.SinksApart.of_no_sinks rfl) (fun t _ => Resolver.keeps ⟨[], true⟩ t) h
  obtain ⟨report', v', hrun, hlogged, _⟩ := hbelow knownIndex hfirst
    (World.obliging_of_no_console rfl) fun t _ => Resolver.actsAlike ⟨[], true⟩ t
  exact ⟨report, v, h, report', v', hrun, FileTree.Logged.eq hlogged⟩

end ImportRepair.Run
