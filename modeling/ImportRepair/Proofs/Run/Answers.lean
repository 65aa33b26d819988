import ImportRepair.Proofs.Patch.Silence
import ImportRepair.Proofs.Run.Dialogue
import ImportRepair.Proofs.Run.Order

/-!
# Which answer is for which type

A run with a user asks for the types that no mapping knows, in their order, each until there is an
answer that is not blank. So the answers that are not blank go to these types one by one, and the
run stops at the first type for which none is left.

Results:
* `Dialogue.namesIn_eq`: a dialogue takes one name from the answers, or the end of input.
* `Run.turns_of_handleTypes`: a run with a user takes one turn for each type.
* `Run.turns_of_finished`, `Run.turns_of_inputEnded`: the turns of a whole run.
* `Run.execute_asks`: which answer is for which type, and where the run stops.
-/

namespace ImportRepair

/-! ## Names -/

/-- The modules that answers name: what is not blank before the end of input, without
the blanks around it. -/
def namesIn (answers : List (Option Text)) : List Text :=
  ((answers.takeWhile (·.isSome)).filterMap (·.map Text.strip)).filter (· ≠ [])

theorem namesIn_end (rest : List (Option Text)) : namesIn (none :: rest) = [] := rfl

theorem namesIn_blank {a : Text} (ha : Text.strip a = []) (rest : List (Option Text)) :
    namesIn (some a :: rest) = namesIn rest := by
  simp [namesIn, ha]

theorem namesIn_name {a : Text} (ha : Text.strip a ≠ []) (rest : List (Option Text)) :
    namesIn (some a :: rest) = Text.strip a :: namesIn rest := by
  simp [namesIn, ha]

/-- A dialogue takes one name from the answers, or the end of input. -/
theorem Dialogue.namesIn_eq (d : Dialogue) {answers : List (Option Text)}
    (h : d.said = heard d.said.length answers) :
    namesIn answers = match d.module? with
      | some name => name :: namesIn (answers.drop d.said.length)
      | none => [] := by
  obtain ⟨blanks, last, hblank, htelling⟩ := d
  simp only [said, module?, List.length_append, List.length_map, List.length_singleton] at h ⊢
  induction blanks generalizing answers with
  | nil =>
    have hfirst : answers.head?.join = last := by simpa [heard] using h.symm
    cases answers with
    | nil =>
      rw [← hfirst]
      rfl
    | cons answer rest =>
      have hanswer : answer = last := by simpa using hfirst
      cases last with
      | none => rw [hanswer, namesIn_end, Option.map_none]
      | some a =>
        rw [hanswer, namesIn_name (htelling a rfl)]
        rfl
  | cons blank blanks ih =>
    rw [List.forall_mem_cons] at hblank
    rw [List.map_cons, List.cons_append, List.length_cons, Nat.add_right_comm, heard,
      List.cons.injEq] at h
    cases answers with
    | nil => exact absurd h.1 (by simp)
    | cons answer rest =>
      have hanswer : answer = some blank := by simpa using h.1.symm
      rw [hanswer, namesIn_blank hblank.1, List.length_cons, Nat.add_right_comm,
        List.drop_succ_cons]
      exact ih hblank.2 h.2

/-! ## Turns -/

/-- A step of a run, and the dialogue about its type if there was one. -/
structure Turn extends Step where
  talk : Option Dialogue

namespace Turn

/-- The answers that a turn takes. -/
def said (t : Turn) : List (Option Text) := t.talk.elim [] Dialogue.said

/-- What a turn shows: its dialogue, and then its results. -/
def shown (t : Turn) : List Console.Event :=
  t.talk.elim [] (Dialogue.shown t.type) ++ t.results.map Run.told

/-- The results are those for the type, and the module comes from the mappings, or if they
have none, from the user. -/
structure Fits (mappings : List Mapping) (index : Index) (t : Turn) : Prop where
  covers : t.toStep.Covers index
  module : match t.talk with
    | none => Resolver.known? mappings t.type = some t.module
    | some d => Resolver.known? mappings t.type = none ∧ d.module? = some t.module

variable {mappings : List Mapping} {index : Index}

/-- The user is asked about the types that the mappings do not know. -/
theorem Fits.isSome_talk {t : Turn} (h : t.Fits mappings index) :
    t.talk.isSome = (Resolver.known? mappings t.type).isNone := by
  have hmodule := h.module
  cases ht : t.talk with
  | none =>
    rw [ht] at hmodule
    rw [hmodule]
    rfl
  | some d =>
    rw [ht] at hmodule
    rw [hmodule.1]
    rfl

/-- The types that the user was asked about. -/
theorem types_asked {turns : List Turn} (h : ∀ t ∈ turns, t.Fits mappings index) :
    (turns.filter (·.talk.isSome)).map (·.type) =
      (turns.map (·.type)).filter fun type => (Resolver.known? mappings type).isNone := by
  rw [List.filter_map]
  congr 1
  refine List.filter_congr fun t ht => ?_
  rw [(h t ht).isSome_talk]
  rfl

/-- The user names the modules of the types that are asked about, in their order. -/
theorem namesIn_eq {turns : List Turn} {w v : World} {shown : List Console.Event}
    (h : ∀ t ∈ turns, t.Fits mappings index) (htalk : w.Talked shown (turns.flatMap said) v) :
    namesIn w.answers = (turns.filter (·.talk.isSome)).map (·.module) ++ namesIn v.answers := by
  have hheard := htalk.heard
  rw [htalk.answers]
  clear htalk
  generalize w.answers = answers at hheard ⊢
  induction turns generalizing answers with
  | nil => simp
  | cons t turns ih =>
    rw [List.forall_mem_cons] at h
    have hmodule := h.1.module
    rw [List.flatMap_cons, List.length_append, heard_add] at hheard
    obtain ⟨hfirst, hrest⟩ := List.append_inj hheard (length_heard ..).symm
    have hturns := ih h.2 _ hrest
    rw [List.flatMap_cons, List.length_append, ← List.drop_drop]
    cases ht : t.talk with
    | none =>
      have hsaid : t.said = [] := by rw [said, ht]; rfl
      rw [hsaid] at hturns ⊢
      rw [List.filter_cons_of_neg (by simp [ht])]
      exact hturns
    | some d =>
      have hsaid : t.said = d.said := by rw [said, ht]; rfl
      rw [hsaid] at hfirst hturns ⊢
      rw [ht] at hmodule
      rw [List.filter_cons_of_pos (by simp [ht]), List.map_cons, List.cons_append, ← hturns,
        d.namesIn_eq hfirst, hmodule.2]

/-- Types and modules go together as far as there are both. -/
theorem zip_asked (turns : List Turn) {types names : List Text} (h : types = [] ∨ names = []) :
    (turns.map (·.type) ++ types).zip (turns.map (·.module) ++ names) =
      turns.map fun t => (t.type, t.module) := by
  have hrest : types.zip names = [] := by
    obtain rfl | rfl := h
    · rfl
    · exact List.zip_nil_right
  rw [List.zip_append (by simp), hrest, List.append_nil, List.zip_map']

end Turn

/-! ## Runs with a user -/

namespace Run

/-- A run that goes by a chain of mappings, and asks the user about the types that they do not
know. -/
def asking (reader : Reader) (mappings : List Mapping) (trial : Bool) : Run :=
  ⟨reader, Resolver.resolve ⟨mappings, true⟩, trial⟩

variable {reader : Reader} {mappings : List Mapping} {trial : Bool} {index : Index} {log : Text}
  {run : Run} {v w : World}

theorem talked_of_tell {results : List Patch.Result} (h : (results.forM tell).run w = .ok () v) :
    w.Talked (results.map told) [] v := by
  induction results generalizing w with
  | nil =>
    cases h
    exact (World.Unheard.refl _).talked
  | cons r results ih =>
    obtain ⟨_, u, hu, h⟩ := run_bind_eq_ok.1 h
    exact (World.talked_of_display hu).trans (ih h)

/-- A step of a run with a user is a turn. -/
theorem turn_of_takes {s : Step} (h : (asking reader mappings trial).Takes index s w v) :
    ∃ t : Turn, t.toStep = s ∧ t.Fits mappings index ∧ w.Talked t.shown t.said v := by
  obtain ⟨u, x, hu, hx, hv⟩ := h
  obtain ⟨hpaths, hmodules⟩ := Patch.files_names hx
  have hcovers : s.Covers index := ⟨hpaths, hmodules⟩
  have hresolve := Resolver.talked_of_resolve hu
  have htold := ((Patch.isSilent_files ..).of_ok hx).talked.trans (talked_of_tell hv)
  cases hknown : Resolver.known? mappings s.type with
  | some name =>
    rw [hknown] at hresolve
    obtain ⟨hname, htalk⟩ := hresolve
    refine ⟨⟨s, none⟩, rfl, ⟨hcovers, ?_⟩, htalk.trans htold⟩
    rw [hname]
    exact hknown
  | none =>
    rw [hknown] at hresolve
    obtain ⟨d, hmodule, htalk⟩ := hresolve
    have hall := htalk.trans htold
    simp only [List.nil_append, List.append_nil] at hall
    exact ⟨⟨s, some d⟩, rfl, ⟨hcovers, hknown, hmodule⟩, hall⟩

/-- A run with a user that handles types takes one turn for each, in their order. -/
theorem turns_of_handleTypes {types : List Text} {report report' : Report}
    (h : ((asking reader mappings trial).handleTypes types report).run w =
      .ok (.finished report') v) :
    ∃ turns : List Turn, report' = report.extend (turns.map (·.toStep)) ∧
      turns.map (·.type) = types ∧ (∀ t ∈ turns, t.Fits mappings report.index) ∧
      w.Talked (turns.flatMap Turn.shown) (turns.flatMap Turn.said) v := by
  induction types generalizing w report with
  | nil =>
    cases h
    exact ⟨[], (Report.extend_nil _).symm, rfl, by simp, (World.Unheard.refl _).talked⟩
  | cons type types ih =>
    obtain ⟨hstop, _⟩ | ⟨s, u, rfl, hstep, h⟩ := handleTypes_cons_eq_ok.1 h
    · cases hstop
    obtain ⟨t, rfl, hfits, htalk⟩ := turn_of_takes hstep
    obtain ⟨turns, hreport, htypes, hall, hrest⟩ := ih h
    refine ⟨t :: turns, hreport.trans (report.extend_add t.toStep _), by rw [List.map_cons, htypes],
      List.forall_mem_cons.2 ⟨hfits, hall⟩, ?_⟩
    rw [List.flatMap_cons, List.flatMap_cons]
    exact htalk.trans hrest

/-! ## Executions -/

/-- Where things are shown only, no answer is taken. -/
theorem Course.talked {events : List Console.Event} (h : run.Course w (events.map .shown) v) :
    w.Talked events [] v := by
  generalize hrest : events.map Happening.shown = rest at h
  induction h generalizing events with
  | done =>
    rw [List.map_eq_nil_iff.1 hrest]
    exact (World.Unheard.refl _).talked
  | noted _ ih => exact (World.unheard_note ..).talked.trans (ih hrest)
  | shown he _ ih =>
    cases events with
    | nil => cases hrest
    | cons e events =>
      rw [List.map_cons, List.cons.injEq, Happening.shown.injEq] at hrest
      obtain ⟨rfl, hrest⟩ := hrest
      exact (World.talked_of_display he).trans (ih hrest)
  | advised _ _ _ =>
    cases events with
    | nil => cases hrest
    | cons e events => cases hrest
  | handled _ _ _ =>
    cases events with
    | nil => cases hrest
    | cons e events => cases hrest

/-- The world in which a log is read: the indicator is running. -/
def searching (w : World) : World :=
  (w.present (.started [] "Searching build log for broken references...")).2

/-- The world in which a run reads its log: a record was made, and the indicator is running. -/
def atReading (log : Text) (w : World) : World :=
  searching (w.note .info .run ("Scanning build log " ++ log))

theorem kept_searching (w : World) : World.Kept w (searching w) := World.kept_present ..

theorem kept_atReading (log : Text) (w : World) : World.Kept w (atReading log w) :=
  (World.kept_note ..).trans (kept_searching _)

/-- The index of a run is that of the log as it is when it is read, and reading it touches no
file. -/
theorem eq_indexOf_of_collect (h : (run.collect log).run w = .ok index v) :
    index = run.reader.indexOf (searching w).tree log ∧ World.Kept w v := by
  rw [collect_eq] at h
  obtain ⟨_, y, hy, h⟩ := run_bind_eq_ok.1 h
  have hkept := kept_searching w
  rw [World.eq_present_of_display hy, run_tryFinally] at h
  have hread := run_read run.reader log (searching w)
  unfold searching at hread hkept ⊢
  split at hread
  · obtain ⟨x, hx, hkx⟩ := hread
    rw [hx] at h
    simp only at h
    split at h
    · next hlast =>
      cases h
      exact ⟨rfl, (hkept.trans hkx).trans (kept_of_display hlast)⟩
    · cases h
  · rw [hread] at h
    simp only at h
    split at h <;> cases h

/-- A run begins with its opening, which touches no file, and then handles the types of its
index. -/
theorem opened_of_execute {outcome : Outcome} (h : (run.execute log).run w = .ok outcome v) :
    let index := run.reader.indexOf (atReading log w).tree log
    ∃ u, World.Kept w u ∧ run.Course w ((opening index).map .shown) u ∧
      (run.handleTypes index.types (.start index)).run u = .ok outcome v := by
  obtain ⟨_, index, u, hu, h⟩ := collect_of_execute h
  rw [repair_eq] at h
  obtain ⟨_, x, hx, h⟩ := run_bind_eq_ok.1 h
  have hread : run.Course w _ u := .noted (course_of_collect hu)
  obtain ⟨hindex, hku⟩ := eq_indexOf_of_collect hu
  have hindex : index = run.reader.indexOf (atReading log w).tree log := hindex
  rw [← hindex]
  exact ⟨x, ((World.kept_note ..).trans hku).trans (kept_of_display hx),
    hread.append (.shown hx .done), h⟩

/-- The opening takes no answer. -/
theorem opening_of_execute {outcome : Outcome} (h : (run.execute log).run w = .ok outcome v) :
    let index := run.reader.indexOf (atReading log w).tree log
    ∃ u, w.Talked (opening index) [] u ∧
      (run.handleTypes index.types (.start index)).run u = .ok outcome v := by
  obtain ⟨u, _, hcourse, h⟩ := opened_of_execute h
  exact ⟨u, hcourse.talked, h⟩

/-- The types of an index that no mapping knows. -/
def unknownTypes (mappings : List Mapping) (index : Index) : List Text :=
  index.types.filter fun type => (Resolver.known? mappings type).isNone

/-- A run with a user that finished has taken one turn for each type. There was a name for each type
that it had to ask for. -/
theorem turns_of_finished {report : Report}
    (h : ((asking reader mappings trial).execute log).run w = .ok (.finished report) v) :
    let index := reader.indexOf (atReading log w).tree log
    ∃ turns : List Turn, report = (Report.start index).extend (turns.map (·.toStep)) ∧
      turns.map (·.type) = index.types ∧ (∀ t ∈ turns, t.Fits mappings index) ∧
      w.Talked (opening index ++ turns.flatMap Turn.shown) (turns.flatMap Turn.said) v ∧
      unknownTypes mappings index = (turns.filter (·.talk.isSome)).map (·.type) ∧
      namesIn w.answers = (turns.filter (·.talk.isSome)).map (·.module) ++ namesIn v.answers := by
  intro index
  obtain ⟨u, hopening, h⟩ := opening_of_execute h
  obtain ⟨turns, hreport, htypes, hfits, htalk⟩ := turns_of_handleTypes h
  have htalk : w.Talked (opening index ++ turns.flatMap Turn.shown) (turns.flatMap Turn.said) v :=
    hopening.trans htalk
  have hunknown : unknownTypes mappings index = (turns.filter (·.talk.isSome)).map (·.type) := by
    rw [Turn.types_asked hfits, htypes]
    rfl
  exact ⟨turns, hreport, htypes, hfits, htalk, hunknown, Turn.namesIn_eq hfits htalk⟩

/-- A run with a user that stopped at a type has taken one turn for each type before it, and then
was told the end of input. There was no name left. -/
theorem turns_of_inputEnded {type : Text} {report : Report}
    (h : ((asking reader mappings trial).execute log).run w = .ok (.inputEnded type report) v) :
    let index := reader.indexOf (atReading log w).tree log
    ∃ (turns : List Turn) (rest : List Text) (last : Dialogue),
      report = (Report.start index).extend (turns.map (·.toStep)) ∧
      index.types = turns.map (·.type) ++ type :: rest ∧ (∀ t ∈ turns, t.Fits mappings index) ∧
      last.last = none ∧
      w.Talked (opening index ++ turns.flatMap Turn.shown ++ last.shown type)
        (turns.flatMap Turn.said ++ last.said) v ∧
      unknownTypes mappings index = (turns.filter (·.talk.isSome)).map (·.type) ++
        type :: rest.filter (fun type => (Resolver.known? mappings type).isNone) ∧
      namesIn w.answers = (turns.filter (·.talk.isSome)).map (·.module) := by
  intro index
  obtain ⟨u, hopening, h⟩ := opening_of_execute h
  obtain ⟨before, rest, y, htypes, hy, hlast⟩ := finished_of_inputEnded h
  obtain ⟨turns, hreport, hturns, hfits, htalk⟩ := turns_of_handleTypes hy
  have htypes : index.types = turns.map (·.type) ++ type :: rest := by
    rw [hturns]
    exact htypes
  have htalk : w.Talked (opening index ++ turns.flatMap Turn.shown) (turns.flatMap Turn.said) y :=
    hopening.trans htalk
  have hresolve := Resolver.talked_of_resolve hlast
  cases hknown : Resolver.known? mappings type with
  | some name =>
    rw [hknown] at hresolve
    cases hresolve.1
  | none =>
    rw [hknown] at hresolve
    obtain ⟨last, hmodule, hclosing⟩ := hresolve
    refine ⟨turns, rest, last, hreport, htypes, hfits, Option.map_eq_none_iff.1 hmodule,
      htalk.trans hclosing, ?_, ?_⟩
    · rw [Turn.types_asked hfits, unknownTypes, htypes, List.filter_append,
        List.filter_cons_of_pos (by rw [hknown]; rfl)]
    · rw [Turn.namesIn_eq hfits htalk, last.namesIn_eq hclosing.heard, hmodule]
      exact List.append_nil _

/-- In a run with a user on any chain of mappings, every type that the mappings know gets the module
of the first one that has one, and nobody is asked. The others get the answers that are not blank,
in their order; each blank answer is followed by one warning and by the same question again. The run
stops exactly if there are fewer names before the end of input than types to ask for, at the first
one that is left without. What it shows and which answers it takes is told in full. -/
theorem execute_asks {outcome : Outcome}
    (h : ((asking reader mappings trial).execute log).run w = .ok outcome v) :
    let index := outcome.report.index
    let unknown := index.types.filter fun type => (Resolver.known? mappings type).isNone
    let names := namesIn w.answers
    (∃ y, World.Kept w y ∧ index = reader.indexOf y.tree log) ∧
    ((∃ type report, outcome = .inputEnded type report) ↔ names.length < unknown.length) ∧
    ∃ turns : List Turn,
      outcome.report = (Report.start index).extend (turns.map (·.toStep)) ∧
      (∀ t ∈ turns, t.Fits mappings index) ∧
      ((turns.filter (·.talk.isSome)).map fun t => (t.type, t.module)) = unknown.zip names ∧
      match outcome with
      | .finished _ =>
        turns.map (·.type) = index.types ∧
        w.Talked (opening index ++ turns.flatMap Turn.shown) (turns.flatMap Turn.said) v
      | .inputEnded type _ =>
        turns.map (·.type) = index.types.filter (· < type) ∧ unknown[names.length]? = some type ∧
        ∃ last : Dialogue, last.last = none ∧
          w.Talked (opening index ++ turns.flatMap Turn.shown ++ last.shown type)
            (turns.flatMap Turn.said ++ last.said) v := by
  intro index unknown names
  have hkept := kept_atReading log w
  cases outcome with
  | finished report =>
    obtain ⟨turns, hreport, htypes, hfits, htalk, hunknown, hnames⟩ := turns_of_finished h
    have hindex : index = reader.indexOf (atReading log w).tree log := by
      rw [show index = report.index from rfl, hreport]
      rfl
    rw [← hindex] at hreport htypes hfits htalk hunknown
    have hunknown : unknown = _ ++ [] := hunknown.trans (List.append_nil _).symm
    have hnames : names = _ := hnames
    refine ⟨⟨_, hkept, hindex⟩, ?_, turns, hreport, hfits, ?_, htypes, htalk⟩
    · rw [hnames, hunknown]
      simp
    · rw [hnames, hunknown, Turn.zip_asked _ (Or.inl rfl)]
  | inputEnded type report =>
    obtain ⟨turns, rest, last, hreport, htypes, hfits, hlast, htalk, hunknown, hnames⟩ :=
      turns_of_inputEnded h
    have hindex : index = reader.indexOf (atReading log w).tree log := by
      rw [show index = report.index from rfl, hreport]
      rfl
    rw [← hindex] at hreport htypes hfits htalk hunknown
    have hunknown : unknown = _ := hunknown
    have hnames : names = _ ++ [] := hnames.trans (List.append_nil _).symm
    refine ⟨⟨_, hkept, hindex⟩, ?_, turns, hreport, hfits, ?_,
      (types_of_inputEnded htypes).2, ?_, last, hlast, htalk⟩
    · rw [hnames, hunknown]
      simp
    · rw [hnames, hunknown, Turn.zip_asked _ (Or.inr rfl)]
    · rw [hnames, hunknown]
      simp

/-- A mapping that knows one of two types. -/
def halfMapping : Mapping := [("Bar", "N")]

/-- A world with a user who gives a blank answer first. -/
def hesitantWorld : World :=
  World.new (.sample sampleLog) Journal.defaultThreshold [some " ", some " M "] {}

/-- The user names the module of the type that the mapping does not know, and no other. -/
theorem execute_asks_hesitant :
    ∃ report v, ∃ turns : List Turn,
      ((asking ⟨Reader.defaultExtension⟩ [halfMapping] false).execute "log").run hesitantWorld =
        .ok (.finished report) v ∧
      report = (Report.start report.index).extend (turns.map (·.toStep)) ∧
      ((turns.filter (·.talk.isSome)).map fun t => (t.type, t.module)) =
        [(("Foo" : Text), ("M" : Text))] := by
  have hfinishes : finishes
      (((asking ⟨Reader.defaultExtension⟩ [halfMapping] false).execute "log").run hesitantWorld)
      (fun report _ => (report.index.types.filter fun type =>
        (Resolver.known? [halfMapping] type).isNone) = [("Foo" : Text)]) = true := by
    decide +kernel
  obtain ⟨report, v, h, hunknown⟩ := exists_of_finishes hfinishes
  have hnames : namesIn hesitantWorld.answers = [("M" : Text)] := by decide +kernel
  obtain ⟨_, _, turns, hreport, _, hasked, _⟩ := execute_asks h
  refine ⟨report, v, turns, h, hreport, hasked.trans ?_⟩
  rw [hnames]
  exact congrArg (List.zip · _) (of_decide_eq_true hunknown)

end Run

end ImportRepair
