import ImportRepair.Proofs.Patch.Ledger
import ImportRepair.Proofs.Run.Execution

/-!
# What a trial run foretells

A trial run always looks at the files as they were at first, a real run at the files as its
own results have left them. If nothing keeps the files from being replaced, the real run
patches what the trial run would patch, but for lines that have come into the file in the
meantime: these it finds.

Results:
* `Patch.outcome_foretold`: the outcome along a real trail, by the outcome at its start.
* `Run.trial_foretells`: the report of a real run, by the report of a trial run.
-/

namespace ImportRepair

namespace Patch

variable {mishaps : Mishaps} {tree mid last : FileTree} {rs ds : List Result} {module path : Text}

/-- The text of the file that a path opens after some results. -/
def textAfter (mishaps : Mishaps) (tree : FileTree) (results : List Result) (path : Text) : Text :=
  match target? mishaps tree path with
  | none => []
  | some p =>
    match tree.textAt? p with
    | none => []
    | some t =>
      match firstIndex? Insertion.anchor t with
      | none => t
      | some k => splice k (brought mishaps tree results p).flatten t

/-- What a real run makes of an outcome of a trial run, where the file has a text in the
meantime. -/
def made (module text : Text) (trialOutcome : Status) : Status :=
  if trialOutcome = .wouldPatch then
    if occursIn (Insertion.line module) text then .alreadyPresent else .patched
  else trialOutcome

/-- Without an anchor there is no line either. -/
theorem statusOf_of_no_anchor {trial blocked : Bool} {t : Text}
    (h : occursIn Insertion.anchor t = false) :
    statusOf trial blocked (Insertion.line module) (some t) = .noAnchor := by
  have hline : occursIn (Insertion.line module) t = false := by
    rw [← Bool.not_eq_true]
    intro hocc
    rw [occursIn_anchor_of_line hocc] at h
    cases h
  rw [statusOf, hline, h]
  rfl

/-- Lines before the first anchor of a text matter only to what would be patched. -/
theorem statusOf_foretold {blocked : Bool} {t lines : Text} {k : Nat}
    (hk : firstIndex? Insertion.anchor t = some k)
    (hscalar : Text.isScalar (splice k lines t) = true)
    (hanchor : occursIn Insertion.anchor (splice k lines t) = true)
    (hfree : statusOf true blocked (Insertion.line module) (some t) = .wouldPatch →
      blocked = false) :
    statusOf false blocked (Insertion.line module) (some (splice k lines t)) =
      made module (splice k lines t)
        (statusOf true blocked (Insertion.line module) (some t)) := by
  have hanchor' : occursIn Insertion.anchor t = true := by rw [occursIn, hk]; rfl
  rw [statusOf_of_anchor hanchor'] at hfree
  rw [statusOf_of_anchor hanchor', statusOf_of_anchor hanchor]
  cases hocc : occursIn (Insertion.line module) t with
  | true =>
    rw [occursIn_splice hk _ hocc]
    rfl
  | false =>
    cases hline : (Insertion.line module).isScalar with
    | false =>
      rw [occursIn_of_not_isScalar hscalar hline]
      rfl
    | true =>
      rw [hocc, hline] at hfree
      rw [hfree rfl]
      rfl

/-- The outcome along a real trail, by the outcome of a trial at its start. -/
theorem outcome_foretold (h : Trail false mishaps tree rs mid) (hs : tree.Sound)
    (hfree : outcome true mishaps tree module path = .wouldPatch →
      ∀ p, target? mishaps tree path = some p → tree.obstacle? mishaps path p = none) :
    outcome false mishaps mid module path =
      made module (textAfter mishaps tree rs path) (outcome true mishaps tree module path) := by
  have hshape := h.sameShape hs
  cases hp : target? mishaps tree path with
  | none =>
    rw [outcome, outcome, ← hshape.target?, hp]
    rfl
  | some p =>
    have hp' : target? mishaps mid path = some p := by rw [← hshape.target?, hp]
    have hgrown := h.grown hs p
    rw [outcome_of_target? hp'] at *
    rw [outcome_of_target? hp, ← hshape.obstacle?]
    rw [outcome_of_target? hp, hp] at hfree
    rw [textAfter, hp]
    simp only
    unfold Mishaps.textAt? at *
    cases hu : (mishaps.unreadable.lookup path).isSome with
    | true => rfl
    | false =>
      rw [hu] at hfree
      simp only [Bool.false_eq_true, if_false] at hfree ⊢
      cases ht : tree.textAt? p with
      | none =>
        have hnil := hgrown.eq_nil fun t ht' => by
          rw [ht] at ht'
          cases ht'
        rw [FileTree.textAt?_congr (hgrown.bytes hnil), ht]
        rfl
      | some t =>
        cases hk : firstIndex? Insertion.anchor t with
        | none =>
          have hanchor : occursIn Insertion.anchor t = false := by rw [occursIn, hk]; rfl
          have hnil := hgrown.eq_nil fun t' ht' => by
            rw [ht] at ht'
            cases ht'
            exact hk
          rw [FileTree.textAt?_congr (hgrown.bytes hnil), ht, statusOf_of_no_anchor hanchor,
            statusOf_of_no_anchor hanchor]
          rfl
        | some k =>
          have htext := hgrown.textAt? ht hk
          simp only
          rw [ht] at hfree
          rw [htext, hk]
          refine statusOf_foretold hk (FileTree.isScalar_of_textAt? htext)
            (hgrown.occursIn_anchor hk) fun hwould => ?_
          rw [hfree hwould p rfl]
          rfl

/-- A trial run writes nothing, and looks at the files as they were at first. -/
theorem Trail.trial (h : Trail true mishaps tree ds last) :
    last = tree ∧ ∀ d ∈ ds, d.status = outcome true mishaps tree d.module d.path := by
  induction h with
  | nil => exact ⟨rfl, by simp⟩
  | @cons tree d rest last hd _ ih =>
    have hafter : after true mishaps tree d.module d.path = tree := by
      refine after_of_ne_patched fun hpatched => ?_
      cases (of_patched hpatched).1
    rw [hafter] at ih
    obtain ⟨hlast, hrest⟩ := ih
    exact ⟨hlast, List.forall_mem_cons.2 ⟨hd, hrest⟩⟩

/-- The results of a real run, by those of a trial run. -/
theorem Trail.foretold (hd : Trail true mishaps tree ds last) (hr : Trail false mishaps tree rs mid)
    (hs : tree.Sound) (hkeys : keys rs = keys ds)
    (hfree : ∀ d ∈ ds, d.status = .wouldPatch →
      ∀ p, target? mishaps tree d.path = some p → tree.obstacle? mishaps d.path p = none)
    {i : Nat} {r d : Result} (hri : rs[i]? = some r) (hdi : ds[i]? = some d) :
    r.module = d.module ∧ r.path = d.path ∧
      r.status = made d.module (textAfter mishaps tree (rs.take i) d.path) d.status := by
  have hkey : (r.module, r.path) = (d.module, d.path) := by
    have h := congrArg (fun ks => ks[i]?) hkeys
    simp only [keys, List.getElem?_map, hri, hdi, Option.map_some, Option.some.injEq] at h
    exact h
  obtain ⟨hmodule, hpath⟩ := Prod.mk.inj hkey
  refine ⟨hmodule, hpath, ?_⟩
  have hmem := List.mem_of_getElem? hdi
  have hdstatus := hd.trial.2 d hmem
  obtain ⟨hi, hget⟩ := List.getElem?_eq_some_iff.1 hri
  have hsplit : rs = rs.take i ++ r :: rs.drop (i + 1) := by
    rw [← hget, ← List.drop_eq_getElem_cons hi, List.take_append_drop]
  rw [hsplit] at hr
  obtain ⟨before, hbefore, hrest⟩ := hr.split
  cases hrest with
  | cons hstatus _ =>
    rw [hstatus, hmodule, hpath, hdstatus]
    refine outcome_foretold hbefore hs ?_
    rw [← hdstatus]
    exact hfree d hmem

end Patch

/-- A file that could be replaced has no obstacle. -/
theorem Files.obstacle?_of_replace {w u : World} (hs : w.tree.Sound) {path : Text} {p : Place}
    (hp : w.tree.opened? path = some p) {data : List UInt8}
    (h : (replace path data).run w = .ok () u) : w.tree.obstacle? w.mishaps path p = none := by
  have hrun := run_replace hs hp data
  cases ho : w.tree.obstacle? w.mishaps path p with
  | none => rfl
  | some e =>
    rw [ho] at hrun
    obtain ⟨v, hv, _⟩ := hrun
    rw [h] at hv
    cases hv

namespace Run

variable {run : Run} {log : Text} {w : World}

/-- Whether a run finishes does not depend on whether it is a trial. -/
theorem finishes_of_finishes (hs : w.tree.Sound) (hw : w.SinksApart log) (ho : w.Obliging)
    {assign : Text → Text}
    (ha : ∀ type ∈ (run.reader.indexOf w.tree log).types, run.resolver.Answers type (assign type))
    {trial : Bool} {report : Report} {v : World}
    (h : (({ run with trial } : Run).execute log).run w = .ok (.finished report) v) (other : Bool) :
    ∃ report v, (({ run with trial := other } : Run).execute log).run w =
      .ok (.finished report) v := by
  obtain ⟨hopen, _, _, hsteps⟩ := handled_of_execute hs hw h fun type ht => (ha type ht).keeps
  exact execute_returns hs hw ho hopen ha hsteps.told

/-- Where no record goes to a file that is read, a trial run finishes if and only if the real run
does. If no file that would be patched fails to be replaced, the real run reports the index, the
modules and the paths that the trial run reports. What would be patched is patched, unless the line
has come into the file in the meantime: then it is found. All other statuses are the same. -/
theorem trial_foretells (run : Run) (log : Text) (hs : w.tree.Sound)
    (hw : run.reader.SinksApart log w) (ho : w.Obliging) {assign : Text → Text}
    (ha : ∀ type ∈ (run.reader.indexOf w.tree log).types, run.resolver.Answers type (assign type)) :
    ((∃ dry u, (({ run with trial := true } : Run).execute log).run w = .ok (.finished dry) u) ↔
      ∃ real v, (({ run with trial := false } : Run).execute log).run w = .ok (.finished real) v) ∧
    ∀ dry u real v,
      (({ run with trial := true } : Run).execute log).run w = .ok (.finished dry) u →
      (({ run with trial := false } : Run).execute log).run w = .ok (.finished real) v →
      (∀ d ∈ dry.inOrder, d.status = .wouldPatch → ∀ data, ∃ x,
        (Files.replace d.path data).run w = .ok () x) →
      real.index = dry.index ∧ real.modules = dry.modules ∧ real.paths = dry.paths ∧
        real.inOrder.length = dry.inOrder.length ∧
        ∀ i r d, real.inOrder[i]? = some r → dry.inOrder[i]? = some d →
          r.module = d.module ∧ r.path = d.path ∧ r.status =
            Patch.made d.module (Patch.textAfter w.mishaps w.tree (real.inOrder.take i) d.path)
              d.status := by
  constructor
  · constructor
    · rintro ⟨dry, u, hdry⟩
      exact finishes_of_finishes hs hw.atLog ho ha hdry false
    · rintro ⟨real, v, hreal⟩
      exact finishes_of_finishes hs hw.atLog ho ha hreal true
  intro dry u real v hdry hreal hwrite
  have hkeeps := fun type ht => (ha type ht).keeps
  obtain ⟨_, steps, rfl, hsteps⟩ := handled_of_execute hs hw.atLog hdry hkeeps
  obtain ⟨_, steps', rfl, hsteps'⟩ := handled_of_execute hs hw.atLog hreal hkeeps
  obtain ⟨_, htrail, _, _⟩ := hsteps.trail hw hs
  obtain ⟨_, htrail', _, _⟩ := hsteps'.trail hw hs
  have hsame : (steps'.map fun s => (s.type, s.module)) = steps.map fun s =>
      (s.type, s.module) := by
    rw [hsteps'.modules_eq ha, hsteps.modules_eq ha]
  have hkeys : Patch.keys (Step.all steps') = Patch.keys (Step.all steps) := by
    rw [Step.keys_all hsteps'.covers, Step.keys_all hsteps.covers, hsame]
  have hpaths : (steps'.map fun s => (s.type, s.results.map (·.path))) =
      steps.map fun s => (s.type, s.results.map (·.path)) := by
    rw [hsteps'.paths_eq, hsteps.paths_eq]
  simp only [Report.inOrder_extend] at hwrite ⊢
  refine ⟨rfl, ?_, ?_, ?_, ?_⟩
  · show [] ++ _ = [] ++ _
    rw [hsame]
  · rw [Report.paths, Report.paths]
    simp only [Report.extend, Report.start, List.nil_append, List.map_map]
    exact hpaths
  · simpa [Patch.keys] using congrArg List.length hkeys
  · intro i r d hri hdi
    refine htrail.foretold htrail' hs hkeys ?_ hri hdi
    intro d hd hstatus p hp
    obtain ⟨x, hx⟩ := hwrite d hd hstatus []
    exact Files.obstacle?_of_replace hs (Patch.target?_eq_some hp).2 hx

/-! ## One module for two types -/

theorem exists_mem_statuses {report : Report} {r : Patch.Result} (h : r ∈ report.inOrder) :
    ∃ e ∈ report.statuses, (r.path, r.status) ∈ e.2 := by
  obtain ⟨e, he, hr⟩ := List.mem_flatMap.1 h
  exact ⟨_, List.mem_map_of_mem he, List.mem_map_of_mem hr⟩

/-- Both types would bring the line. -/
theorem trial_sample :
    ∃ dry u, ((Run.sample (fun _ => "M") true).execute "log").run (.sample sampleLog) =
        .ok (.finished dry) u ∧
      dry.statuses = sampleStatuses .wouldPatch .wouldPatch := by
  obtain ⟨dry, u, h, hstatuses⟩ := exists_of_finishes
    (by decide +kernel : finishes (((Run.sample (fun _ => "M") true).execute "log").run
      (.sample sampleLog)) (fun dry _ => dry.statuses =
        sampleStatuses .wouldPatch .wouldPatch) = true)
  exact ⟨dry, u, h, of_decide_eq_true hstatuses⟩

/-- One type brings it, and the other one finds it. -/
theorem real_sample :
    ∃ real v, ((Run.sample (fun _ => "M") false).execute "log").run (.sample sampleLog) =
        .ok (.finished real) v ∧
      real.statuses = sampleStatuses .patched .alreadyPresent := by
  obtain ⟨real, v, h, hstatuses⟩ := exists_of_finishes
    (by decide +kernel : finishes (((Run.sample (fun _ => "M") false).execute "log").run
      (.sample sampleLog)) (fun real _ => real.statuses =
        sampleStatuses .patched .alreadyPresent) = true)
  exact ⟨real, v, h, of_decide_eq_true hstatuses⟩

theorem replaces_sample (data : List UInt8) :
    ∃ x, (Files.replace "/A.swift" data).run (.sample sampleLog) = .ok () x := by
  obtain ⟨p, hopen, hfree⟩ : ∃ p, (World.sample sampleLog).tree.opened? "/A.swift" = some p ∧
      (World.sample sampleLog).tree.obstacle? (World.sample sampleLog).mishaps
        "/A.swift" p = none :=
    ⟨["A.swift"], by decide +kernel⟩
  have hrun := Files.run_replace (FileTree.sound_sample sampleLog) hopen data
  rw [hfree] at hrun
  obtain ⟨x, hx, _⟩ := hrun
  exact ⟨x, hx⟩

theorem path_sample {dry : Report} {d : Patch.Result} {s t : Patch.Status}
    (h : dry.statuses = sampleStatuses s t)
    (hd : d ∈ dry.inOrder) : d.path = "/A.swift" := by
  obtain ⟨e, he, hmem⟩ := exists_mem_statuses hd
  rw [h, sampleStatuses, List.mem_cons, List.mem_singleton] at he
  obtain rfl | rfl := he <;> exact (Prod.mk.inj (List.mem_singleton.1 hmem)).1

/-- The second type finds the line of the first. -/
theorem trial_foretells_sample :
    ∃ dry u real v,
      ((Run.sample (fun _ => "M") true).execute "log").run (.sample sampleLog) =
        .ok (.finished dry) u ∧
      ((Run.sample (fun _ => "M") false).execute "log").run (.sample sampleLog) =
        .ok (.finished real) v ∧
      real.modules = dry.modules ∧ real.paths = dry.paths ∧
      ∀ r d, real.inOrder[1]? = some r → dry.inOrder[1]? = some d → r.status =
        Patch.made d.module (Patch.textAfter {} (.sample sampleLog) (real.inOrder.take 1) d.path)
          d.status := by
  obtain ⟨dry, u, hdry, hstatuses⟩ := trial_sample
  obtain ⟨real, v, hreal, _⟩ := real_sample
  have hforetold := (trial_foretells (Run.sample (fun _ => "M") false) "log"
    (FileTree.sound_sample sampleLog) (Reader.SinksApart.of_no_sinks rfl)
    (World.obliging_sample sampleLog) (fun type _ => Adviser.answers_fixed (fun _ => "M") type)).2
  obtain ⟨_, hmodules, hpaths, _, hall⟩ := hforetold dry u real v hdry hreal (by
    intro d hd _ data
    rw [path_sample hstatuses hd]
    exact replaces_sample data)
  exact ⟨dry, u, real, v, hdry, hreal, hmodules, hpaths, fun r d hr hd => (hall 1 r d hr hd).2.2⟩

/-- It is not so that everything is patched that would be patched. -/
theorem not_trial_foretells_patched :
    ¬∀ (run : Run) (log : Text) (w : World) (assign : Text → Text) (dry real : Report)
      (u v : World), w.tree.Sound → w.journal.sinks = [] → w.Obliging →
      (∀ type ∈ (run.reader.indexOf w.tree log).types, run.resolver.Answers type (assign type)) →
      (({ run with trial := true } : Run).execute log).run w = .ok (.finished dry) u →
      (({ run with trial := false } : Run).execute log).run w = .ok (.finished real) v →
      (∀ d ∈ dry.inOrder, d.status = .wouldPatch → ∀ data, ∃ x,
        (Files.replace d.path data).run w = .ok () x) →
      real.statuses = dry.statuses.map fun e =>
        (e.1, e.2.map fun s => (s.1, if s.2 = .wouldPatch then .patched else s.2)) := by
  intro h
  obtain ⟨dry, u, hdry, hstatuses⟩ := trial_sample
  obtain ⟨real, v, hreal, hfound⟩ := real_sample
  have heq :=
    h (Run.sample (fun _ => "M") false) "log" (.sample sampleLog) (fun _ => "M") dry real u v
      (FileTree.sound_sample sampleLog) rfl (World.obliging_sample sampleLog)
    (fun type _ => Adviser.answers_fixed (fun _ => "M") type) hdry hreal (by
      intro d hd _ data
      rw [path_sample hstatuses hd]
      exact replaces_sample data)
  rw [hstatuses, hfound] at heq
  revert heq
  decide

end Run

end ImportRepair
