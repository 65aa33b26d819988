import ImportRepair.Proofs.Command.Codes

/-!
# What the summary tells

After a run that returns, whether it handled all types or stopped at one, the command shows a table
with one row for each type that was handled and each path of it. The rows come in the order in which
the files were handled and their results told, and that is the order of the report.

Results:
* `Run.turns_of_execute`: what a run with a user does, asks and shows, however it returns.
* `Command.recites_finish`: what is shown after a run.
* `Command.fix_summarises`: what a command shows from its panel to its summary.
-/

namespace ImportRepair

/-! ## Jobs that recite -/

/-- A job shows the given things and nothing else. If it fails, it has shown the first ones of
them. -/
structure Recites {α : Type} (events : List Console.Event) (job : Job α) : Prop where
  returns : ∀ (w : World) a v, job.run w = .ok a v → w.Showed events v
  fails : ∀ (w : World) e v, job.run w = .error e v → ∃ part, part <+: events ∧ w.Showed part v

section Recites

variable {α β : Type} {job : Job α} {events more : List Console.Event}

theorem IsSilent.recites (h : IsSilent job) : Recites [] job :=
  ⟨fun _ _ _ hv => (h.of_ok hv).showed,
    fun _ _ _ hv => ⟨[], List.prefix_rfl, (h.of_error hv).showed⟩⟩

theorem recites_pure (a : α) : Recites [] (pure a : Job α) := (isSilent_pure a).recites

theorem recites_display (e : Console.Event) : Recites [e] (display e) := by
  constructor
  · intro w a v hv
    rw [World.eq_present_of_display hv]
    exact World.showed_present w e
  · intro w failure v hv
    obtain ⟨rfl, _⟩ := present_of_display_eq_error hv
    exact ⟨[e], List.prefix_rfl, World.showed_present w e⟩

theorem Recites.bind {next : α → Job β} (h : Recites events job)
    (hnext : ∀ a, Recites more (next a)) :
    Recites (events ++ more) (job >>= next) := by
  constructor
  · intro w b v hv
    obtain ⟨a, u, hu, hv⟩ := run_bind_eq_ok.1 hv
    exact (h.returns w a u hu).trans ((hnext a).returns u b v hv)
  · intro w e v hv
    rw [EStateM.run_bind] at hv
    cases hu : job.run w with
    | ok a u =>
      rw [hu] at hv
      obtain ⟨part, hpart, hshowed⟩ := (hnext a).fails u e v hv
      exact ⟨events ++ part, (List.prefix_append_right_inj events).2 hpart,
        (h.returns w a u hu).trans hshowed⟩
    | error e' u =>
      rw [hu] at hv
      cases hv
      obtain ⟨part, hpart, hshowed⟩ := h.fails w _ _ hu
      exact ⟨part, hpart.trans (List.prefix_append events more), hshowed⟩

theorem recites_forM {step : α → Job Unit} {f : α → Console.Event} (h : ∀ a, Recites [f a] (step a))
    (items : List α) : Recites (items.map f) (items.forM step) := by
  induction items with
  | nil => exact recites_pure ()
  | cons a items ih => exact (h a).bind fun _ => ih

end Recites

/-! ## Runs with a user -/

/-- The types that a run has handled, all of them or those before the one it stopped at. -/
def Outcome.completed (index : Index) : Outcome → List Text
  | .finished _ => index.types
  | .inputEnded type _ => index.types.filter (· < type)

/-- What happens at the end of a run: at the type that it stops at, nobody knows the module. -/
def Outcome.parting (index : Index) : Outcome → List Happening
  | .finished _ => []
  | .inputEnded type _ => [.advised type (index.pathsFor type).length none]

/-- What a run shows last: at the type that it stops at, a dialogue that comes to no module. -/
def Outcome.Leaves (last : List Console.Event) : Outcome → Prop
  | .finished _ => last = []
  | .inputEnded type _ => ∃ d : Dialogue, d.last = none ∧ last = d.shown type

theorem Outcome.pairwise_completed (index : Index) (outcome : Outcome) :
    (outcome.completed index).Pairwise (· < ·) := by
  cases outcome with
  | finished report => exact index.sorted_types
  | inputEnded type report => exact index.sorted_types.filter _

/-- The steps of a report can be told from it. -/
theorem Report.extend_injective {report : Report} {steps steps' : List Step}
    (h : report.extend steps = report.extend steps') : steps = steps' := by
  have hmodules := congrArg Report.modules h
  have hresults := congrArg Report.results h
  rw [extend, extend, List.append_cancel_left_eq] at hmodules hresults
  clear h
  induction steps generalizing steps' with
  | nil => exact (List.map_eq_nil_iff.1 hmodules.symm).symm
  | cons s steps ih =>
    cases steps' with
    | nil => cases hmodules
    | cons s' steps' =>
      simp only [List.map_cons, List.cons.injEq, Prod.mk.injEq] at hmodules hresults
      obtain ⟨⟨htype, hmodule⟩, hmodules⟩ := hmodules
      obtain ⟨⟨_, hfirst⟩, hresults⟩ := hresults
      have hs : s = s' := by
        cases s
        cases s'
        simp only at htype hmodule hfirst
        rw [htype, hmodule, hfirst]
      rw [hs, ih hmodules hresults]

namespace Run

variable {reader : Reader} {mappings : List Mapping} {trial : Bool} {log : Text} {w v : World}

/-- A run with a user handles types in turns. In each the module is asked for, every file is
handled, and every result is told. -/
theorem course_of_turns {types : List Text} {report report' : Report} (hs : w.tree.Sound)
    (h : ((asking reader mappings trial).handleTypes types report).run w =
      .ok (.finished report') v) :
    ∃ turns : List Turn, report' = report.extend (turns.map (·.toStep)) ∧
      turns.map (·.type) = types ∧ (∀ t ∈ turns, t.Fits mappings report.index) ∧
      w.Talked (turns.flatMap Turn.shown) (turns.flatMap Turn.said) v ∧
      (asking reader mappings trial).Course w
        (turns.flatMap fun t => happenings report.index t.toStep) v := by
  obtain ⟨turns, hreport, htypes, hfits, htalk⟩ := turns_of_handleTypes h
  obtain ⟨steps, hreport', _, _, hcourse⟩ :=
    course_of_handleTypes hs (fun type _ => Resolver.keeps ⟨mappings, true⟩ type) h
  have hsteps : steps = turns.map (·.toStep) :=
    Report.extend_injective (hreport'.symm.trans hreport)
  rw [hsteps, List.flatMap_map] at hcourse
  exact ⟨turns, hreport, htypes, hfits, htalk, hcourse⟩

/-- However a run with a user returns, it has taken one turn for each type that it handled, and what
it did and showed is told in full. -/
theorem turns_of_execute {outcome : Outcome} (hs : w.tree.Sound)
    (h : ((asking reader mappings trial).execute log).run w = .ok outcome v) :
    let index := reader.indexOf (atReading log w).tree log
    ∃ (turns : List Turn) (last : List Console.Event),
      outcome.report = (Report.start index).extend (turns.map (·.toStep)) ∧
      turns.map (·.type) = outcome.completed index ∧ (∀ t ∈ turns, t.Fits mappings index) ∧
      (asking reader mappings trial).Course w ((opening index).map .shown ++
        (turns.flatMap fun t => happenings index t.toStep) ++ outcome.parting index) v ∧
      v.screen = w.screen ++ (opening index ++ turns.flatMap Turn.shown ++ last) ∧
      outcome.Leaves last := by
  intro index
  obtain ⟨u, hku, hopening, h⟩ := opened_of_execute h
  have hsu := (hku.passed hs).sound
  cases outcome with
  | finished report =>
    obtain ⟨turns, hreport, htypes, hfits, htalk, hcourse⟩ := course_of_turns hsu h
    refine ⟨turns, [], hreport, htypes, hfits, ?_, ?_, rfl⟩
    · rw [Outcome.parting, List.append_nil]
      exact hopening.append hcourse
    · rw [List.append_nil]
      exact (hopening.talked.trans htalk).screen
  | inputEnded type report =>
    obtain ⟨before, rest, y, htypes, hy, hlast⟩ := finished_of_inputEnded h
    obtain ⟨turns, hreport, hturns, hfits, htalk, hcourse⟩ := course_of_turns hsu hy
    have hindex : report.index = index := by rw [hreport]; rfl
    have hclosing := Resolver.talked_of_resolve hlast
    rw [hindex] at hlast
    cases hknown : Resolver.known? mappings type with
    | some name =>
      rw [hknown] at hclosing
      cases hclosing.1
    | none =>
      rw [hknown] at hclosing
      obtain ⟨d, hmodule, hclosing⟩ := hclosing
      refine ⟨turns, d.shown type, hreport, hturns.trans (types_of_inputEnded htypes).2, hfits,
        (hopening.append hcourse).append (.advised hlast .done), ?_, d,
        Option.map_eq_none_iff.1 hmodule,
        rfl⟩
      exact ((hopening.talked.trans htalk).trans hclosing).screen

end Run

/-! ## The summary -/

namespace Command

open Console Settings

variable {o : Arguments.Options} {settings : Entries} {v w : World}

/-- The row for a result. -/
def rowOf (e : Text × Patch.Result) : List Text := [e.1, e.2.module, e.2.path, e.2.status.name]

/-- What is shown for the results of some steps: a table with a row for each result,
unless there was no step. -/
def summaryOf (steps : List Step) : List Event :=
  if steps = [] then []
  else .table [] summaryColumns "Summary" ::
    ((Step.entries steps).map fun e => .row [] (rowOf e)) ++ [.shown []]

/-- What is shown after the summary. -/
def closing : Outcome → List Event
  | .finished report =>
    if report.hasFailures then [.message .error "Some files could not be updated."] else []
  | .inputEnded type _ => [.message .error (Run.inputEndedMessage type ++ ". Stopping.")]

/-- The rows of a summary are those of the results, in the order in which these came. -/
theorem summaryRows_extend {index : Index} {steps : List Step}
    (h : (steps.map (·.type)).Pairwise (· < ·)) :
    summaryRows ((Report.start index).extend steps) = (Step.entries steps).map rowOf := by
  rw [summaryRows, Report.flatMap_resultsOf_extend h fun type results =>
    results.map fun r => [type, r.module, r.path, r.status.name], Step.entries, List.map_flatMap]
  refine List.flatMap_congr fun s _ => ?_
  rw [List.map_map]
  rfl

theorem recites_summarise {index : Index} {steps : List Step}
    (h : (steps.map (·.type)).Pairwise (· < ·)) :
    Recites (summaryOf steps) (summarise ((Report.start index).extend steps)) := by
  have hempty : ((Report.start index).extend steps).results.isEmpty = true ↔ steps = [] := by
    rw [List.isEmpty_iff]
    show [] ++ steps.map _ = [] ↔ steps = []
    rw [List.nil_append, List.map_eq_nil_iff]
  rw [summarise, summaryOf]
  by_cases hnone : steps = []
  · rw [if_pos hnone, hempty.2 hnone]
    exact recites_pure ()
  · have hsome : (!((Report.start index).extend steps).results.isEmpty) = true := by
      rw [Bool.not_eq_true', ← Bool.not_eq_true, hempty]
      exact hnone
    rw [if_neg hnone, if_pos hsome, summaryRows_extend h]
    have hrows : Recites (((Step.entries steps).map rowOf).map fun cells => Event.row [] cells)
        (((Step.entries steps).map rowOf).forM fun cells => display (.row [] cells)) :=
      recites_forM (fun cells => recites_display _) _
    rw [List.map_map] at hrows
    exact (recites_display _).bind fun _ => hrows.bind fun _ => recites_display _

theorem recites_tell (severity : Severity) (shown recorded : Text) :
    Recites [.message .error shown] (tell severity shown recorded) :=
  (recites_display _).bind fun _ => (isSilent_note ..).recites

/-- What is shown after a run that returned. -/
theorem recites_finish {index : Index} {steps : List Step} {outcome : Outcome}
    (hreport : outcome.report = (Report.start index).extend steps)
    (h : (steps.map (·.type)).Pairwise (· < ·)) :
    Recites (summaryOf steps ++ closing outcome) (finish (.ok outcome)) := by
  cases outcome with
  | finished report =>
    obtain rfl : report = _ := hreport
    refine (recites_summarise h).bind fun _ => ?_
    rw [closing]
    split
    · exact (recites_display _).bind fun _ => recites_pure _
    · exact recites_pure _
  | inputEnded type report =>
    obtain rfl : report = _ := hreport
    exact (recites_summarise h).bind fun _ => (recites_tell ..).bind fun _ => recites_pure _

/-- What a command shows whose run returned: the panel, what the run shows, and what is shown after
it. Where something is refused, nothing more is shown. -/
theorem shown_of_fix {events more : List Event} {outcome : Outcome} {z : World}
    (hrun : (execute o settings).run (atPanel settings w) = .ok outcome z)
    (hscreen : z.screen = (atPanel settings w).screen ++ events)
    (hfinish : Recites more (finish (.ok outcome))) :
    ∃ shown, (worldAfter ((fix o settings).run w)).screen = w.screen ++ shown ∧
      shown <+: panel settings :: (events ++ more) ∧
      ∀ code v, (fix o settings).run w = .ok code v →
      shown = panel settings :: (events ++ more) := by
  have hpanel : (atPanel settings w).screen = w.screen ++ [panel settings] :=
    World.screen_present w _
  rw [fix_eq]
  cases hdisplay : (display (panel settings)).run w with
  | error e u =>
    rw [run_bind_of_error hdisplay]
    obtain ⟨rfl, _⟩ := present_of_display_eq_error hdisplay
    exact ⟨[panel settings], hpanel, List.prefix_append [panel settings] _, fun _ _ h => by cases h⟩
  | ok _ u =>
    obtain rfl : u = atPanel settings w := World.eq_present_of_display hdisplay
    have hattempt := Patch.run_attempt (fun _ => true) (execute o settings) (atPanel settings w)
    rw [hrun] at hattempt
    rw [run_bind_of_ok hdisplay, run_bind_of_ok hattempt]
    have hshown : ∀ {part : List Event} {v : World}, z.Showed part v →
        v.screen = w.screen ++ panel settings :: (events ++ part) := by
      intro part v hv
      rw [hv.screen, hscreen, hpanel]
      simp only [List.append_assoc, List.cons_append, List.nil_append]
    cases hend : (finish (.ok outcome)).run z with
    | ok code v =>
      exact ⟨_, hshown (hfinish.returns z code v hend), List.prefix_rfl, fun _ _ _ => rfl⟩
    | error e v =>
      obtain ⟨part, hpart, hshowed⟩ := hfinish.fails z e v hend
      refine ⟨_, hshown hshowed, ?_, fun _ _ h => by cases h⟩
      rw [List.prefix_cons_inj, List.prefix_append_right_inj]
      exact hpart

/-- A command whose run returns, whether it handled all types or was told the end of input at one,
shows a table exactly if it handled a type. It has one row for each type handled and each path that
the index has for it, in strictly increasing order of type and path. The row tells the module that
was chosen for the type, and the status that handling the file gave. The rows come in the order in
which the files were handled and the results told, and in the order of the report's results. Where
the console refuses to show something, nothing more is shown. -/
theorem fix_summarises (h : IsSectioned settings) (hs : w.tree.Sound) {outcome : Outcome}
    {z : World} (hrun : (execute o settings).run (atPanel settings w) = .ok outcome z) :
    ∃ (plan : Plan) (v : World) (turns : List Turn) (last : List Event),
      (assemble o settings).run (atPanel settings w) = .ok (plan.run (isTrial settings)) v ∧
      let index := plan.index v
      let steps := turns.map (·.toStep)
      outcome.report = (Report.start index).extend steps ∧
      turns.map (·.type) = outcome.completed index ∧
      (∀ t ∈ turns, t.Fits plan.mappings index) ∧
      (plan.run (isTrial settings)).Course v ((Run.opening index).map .shown ++
        (turns.flatMap fun t => Run.happenings index t.toStep) ++ outcome.parting index) z ∧
      (Step.places steps).Pairwise (Prod.Lex (· < ·) (· < ·)) ∧
      (∀ type path, (type, path) ∈ Step.places steps ↔
        type ∈ outcome.completed index ∧ ⟨type, path⟩ ∈ index.references) ∧
      outcome.report.allResults = (Step.entries steps).map (·.2) ∧
      outcome.Leaves last ∧
      ∃ shown, (worldAfter ((fix o settings).run w)).screen = w.screen ++ shown ∧
        shown <+: panel settings :: (Run.opening index ++ turns.flatMap Turn.shown ++ last ++
          (summaryOf steps ++ closing outcome)) ∧
        ∀ code x, (fix o settings).run w = .ok code x →
          shown = panel settings :: (Run.opening index ++ turns.flatMap Turn.shown ++ last ++
            (summaryOf steps ++ closing outcome)) := by
  obtain ⟨plan, v, _, hkept, hquiet, hassemble, hexecute⟩ | ⟨e, v, hexecute, _, _⟩ :=
    run_execute h o (atPanel settings w)
  swap
  · rw [hexecute] at hrun
    cases hrun
  have hsv : v.tree.Sound := (((World.kept_present (panel settings) w).trans hkept).passed hs).sound
  have hreturns := hrun
  rw [hexecute] at hreturns
  obtain ⟨turns, last, hreport, htypes, hfits, hcourse, hscreen, hlast⟩ :=
    Run.turns_of_execute hsv hreturns
  have htypes' : (turns.map (·.toStep)).map (·.type) = outcome.completed (plan.index v) := by
    rw [List.map_map]
    exact htypes
  have hsorted : ((turns.map (·.toStep)).map (·.type)).Pairwise (· < ·) := by
    rw [htypes']
    exact outcome.pairwise_completed _
  have hcovers : ∀ s ∈ turns.map (·.toStep), s.Covers (plan.index v) := by
    intro s hmem
    obtain ⟨t, ht, rfl⟩ := List.mem_map.1 hmem
    exact (hfits t ht).covers
  have hresults : outcome.report.allResults = (Step.entries (turns.map (·.toStep))).map (·.2) := by
    rw [hreport, Report.allResults, Step.map_snd_entries]
    exact Report.flatMap_resultsOf_extend hsorted fun _ results => results
  refine ⟨plan, v, turns, last, hassemble, hreport, htypes, hfits, hcourse,
    Step.pairwise_places hcovers hsorted, fun type path => ?_, hresults, hlast, ?_⟩
  · rw [Step.mem_places hcovers, htypes']
  · refine shown_of_fix hrun ?_ (recites_finish hreport hsorted)
    rw [hscreen, hquiet.screen]
    rfl

/-- The defaults with a build log. -/
def logSettings : Entries := Settings.set Settings.defaults "build_log" "build_file" (.text "log")

theorem isSectioned_logSettings : IsSectioned logSettings :=
  isSectioned_defaults.set "build_log" "build_file" (.text "log")

/-- A user who knows the first of two modules is shown a table with the one file that was
handled. -/
theorem fix_summarises_left :
    ∃ (report : Report) (z : World) (turns : List Turn),
        (execute {} logSettings).run (atPanel logSettings Run.leftWorld) =
        .ok (.inputEnded "Foo" report) z ∧
      report = (Report.start report.index).extend (turns.map Turn.toStep) ∧
      (Step.places (turns.map Turn.toStep)).Pairwise (Prod.Lex (· < ·) (· < ·)) ∧
      report.allResults = (Step.entries (turns.map Turn.toStep)).map (·.2) := by
  have hstops : Run.stopsAt "Foo"
      ((execute {} logSettings).run (atPanel logSettings Run.leftWorld)) = true := by decide +kernel
  obtain ⟨report, z, hrun⟩ := Run.exists_of_stopsAt hstops
  obtain ⟨plan, v, turns, last, _, hreport, _, _, _, hsorted, _, hresults, _⟩ :=
    fix_summarises isSectioned_logSettings (FileTree.sound_sample Run.sampleLog) hrun
  have hindex : report.index = plan.index v := congrArg Report.index hreport
  exact ⟨report, z, turns, hrun, hindex ▸ hreport, hsorted, hresults⟩

end Command

end ImportRepair
