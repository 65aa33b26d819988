import ImportRepair.Proofs.Run.Execution
import ImportRepair.Proofs.Twins

/-!
# The course of a run

A course leads from one world to another through what happens between them, in order: something is
shown, the module of a type is asked for, a file is handled. Records are made in between. Every run
that does not fail has a course, and the course tells in which order it did what.

Results:
* `Course.append`: courses follow each other.
* `course_of_handleTypes`: each type is asked for, then its files are handled,
  then the results are told.
* `course_of_execute`: the indicator stops before anything is said, and then the types are handled.
-/

namespace ImportRepair

/-- What happens in a run. -/
inductive Happening
  /-- Something is shown. -/
  | shown (e : Console.Event)
  /-- The module of a type is asked for, and the answer is given. -/
  | advised (type : Text) (pathCount : Nat) (answer : Option Text)
  /-- A file is handled. -/
  | handled (result : Patch.Result)

namespace Run

/-- What happens on the way from one world to another. -/
inductive Course (run : Run) : World → List Happening → World → Prop
  | done {w} : Course run w [] w
  | noted {w v severity source message rest} :
      Course run (w.note severity source message) rest v → Course run w rest v
  | shown {w u v e rest} : (display e).run w = .ok () u →
      Course run u rest v → Course run w (.shown e :: rest) v
  | advised {w u v type n answer rest} : (run.resolver type n).run w = .ok answer u →
      Course run u rest v → Course run w (.advised type n answer :: rest) v
  | handled {w u v} {r : Patch.Result} {rest} :
      (Patch.file run.trial r.module r.path).run w = .ok r u →
      Course run u rest v → Course run w (.handled r :: rest) v

variable {run : Run} {u v w : World} {first rest : List Happening}

theorem Course.append (h : run.Course w first u) (h' : run.Course u rest v) :
    run.Course w (first ++ rest) v := by
  induction h with
  | done => exact h'
  | noted _ ih => exact .noted (ih h')
  | shown he _ ih => exact .shown he (ih h')
  | advised ha _ ih => exact .advised ha (ih h')
  | handled hr _ ih => exact .handled hr (ih h')

/-- Where things are shown only, no answer is taken. -/
theorem Course.answers {events : List Console.Event} (h : run.Course w (events.map .shown) v) :
    v.answers = w.answers := by
  generalize hrest : events.map Happening.shown = rest at h
  induction h generalizing events with
  | done => rfl
  | noted _ ih => exact (ih hrest).trans (World.unheard_note ..).answers
  | @shown w u v e rest he _ ih =>
    cases events with
    | nil => cases hrest
    | cons e' events =>
      rw [List.map_cons, List.cons.injEq] at hrest
      exact (ih hrest.2).trans (answers_of_display he)
  | advised _ _ _ =>
    cases events with
    | nil => cases hrest
    | cons e' events => cases hrest
  | handled _ _ _ =>
    cases events with
    | nil => cases hrest
    | cons e' events => cases hrest

/-! ## Reading the log -/

theorem course_of_notes {α : Type} {severity : Severity} {source : Source} {message : α → Text}
    {items : List α}
    (h : (items.forM fun item => note severity source (message item)).run w = .ok () v) :
    run.Course w [] v := by
  induction items generalizing w with
  | nil =>
    cases h
    exact .done
  | cons item items ih => exact .noted (ih h)

theorem course_of_read {reader : Reader} {log : Text} {index : Index}
    (h : (reader.read log).run w = .ok index v) : run.Course w [] v := by
  rw [Reader.read] at h
  obtain ⟨lines, u, hu, h⟩ := run_bind_eq_ok.1 h
  obtain ⟨references, x, hx, h⟩ := run_bind_eq_ok.1 h
  rw [Files.run_readLines] at hu
  cases hb : w.tree.readBytes log with
  | error e =>
    rw [hb] at hu
    cases hu
  | ok bytes =>
    rw [hb] at hu
    cases hu
    obtain ⟨_, y, hy, hxy⟩ := run_bind_eq_ok.1 hx
    cases hxy
    cases h
    exact (course_of_notes hy).append (.noted .done)

/-- The indicator is started and stopped, and nothing else is shown while the log is read. -/
theorem course_of_collect {log : Text} {index : Index} (h : (run.collect log).run w = .ok index v) :
    run.Course w [.shown (.started [] "Searching build log for broken references..."),
      .shown (.stopped [])] v := by
  rw [collect_eq] at h
  obtain ⟨_, u, hu, h⟩ := run_bind_eq_ok.1 h
  refine .shown hu ?_
  rw [run_tryFinally] at h
  cases hread : (run.reader.read log).run u with
  | error e x =>
    rw [hread] at h
    simp only at h
    split at h <;> cases h
  | ok index' x =>
    rw [hread] at h
    simp only at h
    split at h
    · next hv =>
      cases h
      exact (course_of_read hread).append (.shown hv .done)
    · cases h

/-! ## Handling a type -/

theorem course_of_mapM_file {module : Text} {paths : List Text} {results : List Patch.Result}
    (hs : w.tree.Sound) (h : (paths.mapM (Patch.file run.trial module)).run w = .ok results v) :
    run.Course w (results.map .handled) v := by
  induction paths generalizing w results with
  | nil =>
    cases h
    exact .done
  | cons path paths ih =>
    rw [List.mapM_cons] at h
    obtain ⟨r, u, hu, h⟩ := run_bind_eq_ok.1 h
    obtain ⟨rest, x, hx, h⟩ := run_bind_eq_ok.1 h
    cases h
    have hfile := Patch.run_file hs run.trial module path
    split at hfile
    · rw [hfile] at hu
      cases hu
    · obtain ⟨message, u', hu', hk⟩ := hfile
      have hpass := World.Passed.of_kept (Patch.sameShape_after hs) (Patch.sound_after hs) hk
      rw [hu] at hu'
      cases hu'
      exact .handled hu (ih hpass.sound hx)

/-- What is shown to tell a result. -/
def told (r : Patch.Result) : Console.Event := .message (tone r.status) r.message

theorem course_of_tell {results : List Patch.Result} (h : (results.forM tell).run w = .ok () v) :
    run.Course w (results.map fun r => .shown (told r)) v := by
  induction results generalizing w with
  | nil =>
    cases h
    exact .done
  | cons r results ih =>
    obtain ⟨_, u, hu, h⟩ := run_bind_eq_ok.1 h
    exact .shown hu (ih h)

/-! ## Handling types -/

/-- What happens in a step: the module is asked for, then all files are handled, then
all results are told. -/
def happenings (index : Index) (s : Step) : List Happening :=
  .advised s.type (index.pathsFor s.type).length (some s.module) ::
    (s.results.map .handled ++ s.results.map fun r => .shown (told r))

theorem course_of_step {index : Index} {s : Step} (hs : w.tree.Sound)
    (hk : run.resolver.Keeps s.type) (h : run.Takes index s w v) :
    run.Course w (happenings index s) v := by
  obtain ⟨u, x, hu, hx, hv⟩ := h
  have hfiles := course_of_mapM_file ((hk _ _ _ _ hu).passed hs).sound hx
  exact .advised hu (hfiles.append (course_of_tell hv))

/-- A run that handles types takes one step for each, in their order. -/
theorem course_of_handleTypes {types : List Text} {report report' : Report} (hs : w.tree.Sound)
    (hk : ∀ type ∈ types, run.resolver.Keeps type)
    (h : (run.handleTypes types report).run w = .ok (.finished report') v) :
    ∃ steps, report' = report.extend steps ∧ steps.map (·.type) = types ∧
      (∀ s ∈ steps, s.Covers report.index) ∧
      run.Course w (steps.flatMap (happenings report.index)) v := by
  induction types generalizing w report with
  | nil =>
    cases h
    exact ⟨[], (Report.extend_nil _).symm, rfl, by simp, .done⟩
  | cons type types ih =>
    rw [List.forall_mem_cons] at hk
    obtain ⟨hstop, _⟩ | ⟨s, u, rfl, hstep, h⟩ := handleTypes_cons_eq_ok.1 h
    · cases hstop
    obtain ⟨hcovers, hpass⟩ := hstep.covers hs hk.1
    obtain ⟨steps, hreport, horder, hall, hcourse⟩ := ih hpass.sound hk.2 h
    refine ⟨s :: steps, hreport.trans (report.extend_add s steps), by rw [List.map_cons, horder],
      List.forall_mem_cons.2 ⟨hcovers, hall⟩, ?_⟩
    rw [List.flatMap_cons]
    exact (course_of_step hs hk.1 hstep).append hcourse

/-! ## Executions -/

/-- What happens before the first type is handled: the indicator runs and stops, and the types are
announced. -/
def opening (index : Index) : List Console.Event :=
  [.started [] "Searching build log for broken references...", .stopped [], announcement index]

/-- A run begins with its opening and touches no file until that is over. -/
theorem course_of_execute {log : Text} {outcome : Outcome} (hw : w.SinksApart log)
    (h : (run.execute log).run w = .ok outcome v) :
    ∃ u, World.Kept w u ∧
      run.Course w ((opening (run.reader.indexOf w.tree log)).map .shown) u ∧
      (run.handleTypes (run.reader.indexOf w.tree log).types
        (.start (run.reader.indexOf w.tree log))).run u = .ok outcome v := by
  obtain ⟨_, index, u, hu, h⟩ := collect_of_execute h
  have hkx := World.kept_note .info .run ("Scanning build log " ++ log) w
  obtain ⟨hku, hindex⟩ := kept_of_collect (hw.kept hkx) hu
  rw [hw.indexOf hkx] at hindex
  rw [repair_eq] at h
  obtain ⟨_, x, hx, h⟩ := run_bind_eq_ok.1 h
  have hread : run.Course w _ u := .noted (course_of_collect hu)
  rw [← hindex]
  exact ⟨x, (hkx.trans hku).trans (kept_of_display hx), hread.append (.shown hx .done), h⟩

end Run

end ImportRepair
