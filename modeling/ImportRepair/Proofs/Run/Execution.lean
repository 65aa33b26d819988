import ImportRepair.Proofs.Files.Bytes
import ImportRepair.Proofs.Reference.Listings
import ImportRepair.Proofs.Run.Steps

/-!
# From the build log to the steps

A run reads the references of the build log before it touches any file, and then takes
one step for each missing type. So the index of a run is a function of the bytes of the
log as they were at first, unless records are appended to it meanwhile. If no record goes to a file
that a run reads, the results are a trail from the files before the run to the files after it, but
for the files that records go to.

Results:
* `Run.execute_eq`: a run reads the log and then goes by the index of it.
* `Run.handled_of_execute`, `Run.handled_of_execute_outcome`: what a run has done that finished, or
  that ended in any way but a failure.
* `Run.Handled.trail`: the trail of what it has done.
* `Run.execute_returns`: a run that is told every module finishes.
-/

namespace ImportRepair

/-- The index of the references in a build log. -/
def Reader.indexOf (reader : Reader) (tree : FileTree) (log : Text) : Index :=
  match tree.readBytes log with
  | .ok bytes => .ofList ((Files.linesOf bytes).filterMap reader.readLine)
  | .error _ => .empty

/-! ## Files that records go to -/

namespace World

variable {v w : World} {path : Text}

/-- No record goes to the file that a path names. -/
def SinksApart (w : World) (path : Text) : Prop :=
  ∀ c ∈ w.journal.sinks, w.tree.contentAt path ≠ .ok c

theorem SinksApart.kept (h : w.SinksApart path) (hk : Kept w v) : v.SinksApart path := by
  intro c hc
  rw [hk.sinks] at hc
  rw [hk.tree.contentAt]
  exact h c hc

/-- Records do not change what is read by the path. -/
theorem SinksApart.readBytes (h : w.SinksApart path) (hk : Kept w v) :
    v.tree.readBytes path = w.tree.readBytes path :=
  hk.tree.readBytes h

theorem SinksApart.indexOf (h : w.SinksApart path) (hk : Kept w v) (reader : Reader) :
    reader.indexOf v.tree path = reader.indexOf w.tree path := by
  rw [Reader.indexOf, Reader.indexOf, h.readBytes hk]

/-- No record goes to the file at a place. -/
def SinksApartAt (w : World) (q : Place) : Prop :=
  ∀ c ∈ w.journal.sinks, w.tree.node? q ≠ some (.file c)

theorem SinksApartAt.of_no_sinks {q : Place} (h : w.journal.sinks = []) : w.SinksApartAt q := by
  rw [SinksApartAt, h]
  exact List.forall_mem_nil _

end World

namespace Reader

variable {reader : Reader} {log : Text} {w : World}

/-- The paths of the files that a run reads: the build log, and what is reported in it. -/
def sources (reader : Reader) (log : Text) (tree : FileTree) : List Text :=
  log :: (reader.indexOf tree log).references.map (·.path)

/-- The files that records go to are there, and a run reads none of them. -/
structure SinksApart (reader : Reader) (log : Text) (w : World) : Prop where
  old : ∀ c ∈ w.journal.sinks, c < w.tree.contents.length
  apart : ∀ path ∈ reader.sources log w.tree, w.SinksApart path

theorem SinksApart.of_no_sinks (h : w.journal.sinks = []) : reader.SinksApart log w := by
  refine ⟨?_, fun path _ => ?_⟩
  · rw [h]
    exact List.forall_mem_nil _
  · rw [World.SinksApart, h]
    exact List.forall_mem_nil _

theorem SinksApart.atLog (h : reader.SinksApart log w) : w.SinksApart log :=
  h.apart log (List.mem_cons_self ..)

theorem SinksApart.atReported (h : reader.SinksApart log w) {r : Reference}
    (hr : r ∈ (reader.indexOf w.tree log).references) : w.SinksApart r.path :=
  h.apart r.path (List.mem_cons_of_mem _ (List.mem_map_of_mem hr))

/-- The paths that a run reads lead to none of the files that records go to. -/
theorem SinksApart.twin (h : reader.SinksApart log w) (hs : w.tree.Sound) :
    FileTree.Twin w.journal.sinks (reader.sources log w.tree) w.tree w.tree :=
  ⟨.refl .., hs, h.old, fun path hpath _ c ho hn hc =>
    h.apart path hpath c hc (FileTree.contentAt_of_opened? hs ho hn)⟩

theorem mem_sources {tree : FileTree} {steps : List Step}
    (hc : ∀ s ∈ steps, s.Covers (reader.indexOf tree log)) :
    ∀ r ∈ Step.all steps, r.path ∈ reader.sources log tree := by
  intro r hr
  obtain ⟨s, _, hpath⟩ := Step.path_mem hc hr
  exact List.mem_cons_of_mem _ (List.mem_map.2 ⟨_, Index.mem_pathsFor.1 hpath, rfl⟩)

end Reader

/-- The results of a run are a trail, to a tree that is the one that the run has left but for the
files that records go to. -/
theorem Run.Handled.trail {run : Run} {log : Text} {types : List Text} {steps : List Step}
    {v w : World} (h : run.Handled (run.reader.indexOf w.tree log) types steps w v)
    (hw : run.reader.SinksApart log w) (hs : w.tree.Sound) :
    ∃ last, Patch.Trail run.trial w.mishaps w.tree (Step.all steps) last ∧
      FileTree.Twin w.journal.sinks (run.reader.sources log w.tree) last v.tree ∧
      FileTree.Descends w.journal.sinks w.tree last := by
  obtain ⟨last, htrail, htwin⟩ := h.traced _ _ (Reader.mem_sources h.covers) (hw.twin hs)
  exact ⟨last, htrail, htwin, htrail.descends hs hw.old⟩

/-! ## Reading the log -/

theorem run_tryFinally {α : Type} (job : Job α) (last : Job Unit) (w : World) :
    (tryFinally job last).run w =
      match job.run w with
      | .ok a u =>
        match last.run u with
        | .ok _ v => .ok a v
        | .error e v => .error e v
      | .error e u =>
        match last.run u with
        | .ok _ v => .error e v
        | .error e' v => .error e' v := by
  unfold tryFinally
  show EStateM.map _ (EStateM.instMonadFinally.tryFinally' job _) w = _
  unfold EStateM.map EStateM.run
  simp only [tryFinally']
  cases job w with
  | ok a u =>
    simp only
    cases last u <;> rfl
  | error e u =>
    simp only
    cases last u <;> rfl

theorem run_notes {α : Type} (severity : Severity) (source : Source) (message : α → Text)
    (items : List α) (w : World) :
    ∃ v, (items.forM fun item => note severity source (message item)).run w = .ok () v ∧
      World.Kept w v := by
  induction items generalizing w with
  | nil => exact ⟨w, rfl, .refl w⟩
  | cons item items ih =>
    obtain ⟨v, hv, hk⟩ := ih (w.note severity source (message item))
    exact ⟨v, hv, (World.kept_note ..).trans hk⟩

theorem run_scan (reader : Reader) (lines : List Text) (w : World) :
    ∃ v, (reader.scan lines).run w = .ok (lines.filterMap reader.readLine) v ∧ World.Kept w v := by
  obtain ⟨v, hv, hk⟩ := run_notes .info .errorLines
    (fun r : Reference => ("Broken reference of " ++ r.type ++ " found in: " ++ r.path : Text))
    (lines.filterMap reader.readLine) w
  exact ⟨v, (run_bind_of_ok hv).trans rfl, hk⟩

/-- The part of reading a log that an indicator runs along with. -/
def Reader.read (reader : Reader) (log : Text) : Job Index := do
  Index.gather (← reader.scan (← Files.readLines log))

theorem run_read (reader : Reader) (log : Text) (w : World) :
    match w.tree.readBytes log with
    | .ok _ => ∃ v, (reader.read log).run w = .ok (reader.indexOf w.tree log) v ∧ World.Kept w v
    | .error e => (reader.read log).run w = .error (.file e) w := by
  have hlines := Files.run_readLines log w
  rw [Reader.read, Reader.indexOf]
  cases hb : w.tree.readBytes log with
  | error e =>
    rw [hb] at hlines
    exact run_bind_of_error hlines
  | ok bytes =>
    rw [hb] at hlines
    obtain ⟨u, hu, hk⟩ := run_scan reader (Files.linesOf bytes) w
    exact ⟨_, (run_bind_of_ok hlines).trans ((run_bind_of_ok hu).trans rfl),
      hk.trans (World.kept_note ..)⟩

namespace Run

variable {run : Run} {log : Text} {w v : World}

theorem collect_eq (run : Run) (log : Text) :
    run.collect log = (do
      display (.started [] "Searching build log for broken references...")
      tryFinally (run.reader.read log) (display (.stopped []))) := rfl

/-- A log that no record goes to was read as it is. -/
theorem kept_of_collect (hw : w.SinksApart log) {index : Index}
    (h : (run.collect log).run w = .ok index v) :
    World.Kept w v ∧ index = run.reader.indexOf w.tree log := by
  rw [collect_eq] at h
  obtain ⟨_, u, hu, h⟩ := run_bind_eq_ok.1 h
  have hku := kept_of_display hu
  rw [run_tryFinally] at h
  have hread := run_read run.reader log u
  rw [← hw.indexOf hku]
  cases hb : u.tree.readBytes log with
  | error e =>
    rw [hb] at hread
    rw [hread] at h
    simp only at h
    split at h <;> cases h
  | ok bytes =>
    rw [hb] at hread
    obtain ⟨x, hx, hkx⟩ := hread
    rw [hx] at h
    simp only at h
    split at h
    · next hv =>
      cases h
      exact ⟨(hku.trans hkx).trans (kept_of_display hv), rfl⟩
    · cases h

theorem collect_returns (run : Run) (hw : w.SinksApart log) (ho : w.Obliging)
    {bytes : List UInt8} (hb : w.tree.readBytes log = .ok bytes) :
    ∃ index v, (run.collect log).run w = .ok index v := by
  obtain ⟨u, hu, hku⟩ := ho.display (.started [] "Searching build log for broken references...")
  have hread := run_read run.reader log u
  rw [← hw.readBytes hku] at hb
  rw [hb] at hread
  obtain ⟨x, hx, hkx⟩ := hread
  obtain ⟨v, hv, _⟩ := ((ho.kept hku).kept hkx).display (.stopped [])
  refine ⟨run.reader.indexOf u.tree log, v, ?_⟩
  rw [collect_eq, run_bind_of_ok hu, run_tryFinally, hx]
  simp only
  rw [hv]

/-! ## Executions -/

/-- What a run does after it has read the log. -/
def repair (run : Run) (index : Index) : Job Outcome :=
  if index.isEmpty then do
    display (.message .success "No 'cannot find in scope' errors found in the build log.")
    return .finished (.start index)
  else do
    display (.message .info ("Found " ++ Text.ofNat index.size ++ " types that are not found: " ++
      Text.join ", " index.types))
    run.handleTypes index.types (.start index)

theorem execute_eq (run : Run) (log : Text) :
    run.execute log = (do
      if !(← Files.isReadable log) then throw (.logMissing log)
      note .info .run ("Scanning build log " ++ log)
      let index ← run.collect log
      run.repair index) := rfl

/-- A run that returns has read the log. -/
theorem collect_of_execute {outcome : Outcome} (h : (run.execute log).run w = .ok outcome v) :
    w.tree.isOpenableFile log = .ok true ∧
      ∃ index u, (run.collect log).run (w.note .info .run ("Scanning build log " ++ log)) =
        .ok index u ∧ (run.repair index).run u = .ok outcome v := by
  rw [execute_eq] at h
  obtain ⟨readable, u, hu, h⟩ := run_bind_eq_ok.1 h
  rw [Files.isReadable, Files.run_isOpenable] at hu
  split at hu
  swap
  · cases hu
  next b hb =>
  cases hu
  cases readable with
  | false => cases h
  | true =>
    obtain ⟨_, x, hx, h⟩ := run_bind_eq_ok.1 h
    cases hx
    obtain ⟨index, y, hy, h⟩ := run_bind_eq_ok.1 h
    exact ⟨hb, index, y, hy, h⟩

/-- Until the log was read, a run has touched no file. -/
theorem repair_of_execute (hw : w.SinksApart log) {outcome : Outcome}
    (h : (run.execute log).run w = .ok outcome v) :
    w.tree.isOpenableFile log = .ok true ∧
      ∃ u, World.Kept w u ∧ (run.repair (run.reader.indexOf w.tree log)).run u = .ok outcome v := by
  obtain ⟨hb, index, u, hu, h⟩ := collect_of_execute h
  have hkx := World.kept_note .info .run ("Scanning build log " ++ log) w
  obtain ⟨hku, hindex⟩ := kept_of_collect (hw.kept hkx) hu
  rw [hw.indexOf hkx] at hindex
  rw [← hindex]
  exact ⟨hb, u, hkx.trans hku, h⟩

/-- What a run says about the index before it handles the types. -/
def announcement (index : Index) : Console.Event :=
  if index.isEmpty then
    .message .success "No 'cannot find in scope' errors found in the build log."
  else
    .message .info ("Found " ++ Text.ofNat index.size ++ " types that are not found: " ++
      Text.join ", " index.types)

/-- After the log was read, a run handles all types of its index, of which there may be none. -/
theorem repair_eq (run : Run) (index : Index) :
    run.repair index = (do
      display (announcement index)
      run.handleTypes index.types (.start index)) := by
  rw [repair, announcement]
  split
  · next hempty =>
    rw [Index.isEmpty_iff_types.1 hempty]
    rfl
  · rfl

theorem handleTypes_of_repair {index : Index} {outcome : Outcome}
    (h : (run.repair index).run w = .ok outcome v) :
    ∃ u, World.Kept w u ∧ (run.handleTypes index.types (.start index)).run u = .ok outcome v := by
  rw [repair_eq] at h
  obtain ⟨_, u, hu, h⟩ := run_bind_eq_ok.1 h
  exact ⟨u, kept_of_display hu, h⟩

/-- What a run has done that finished. -/
theorem handled_of_execute (hs : w.tree.Sound) (hw : w.SinksApart log) {report : Report}
    (h : (run.execute log).run w = .ok (.finished report) v)
    (hk : ∀ type ∈ (run.reader.indexOf w.tree log).types, run.resolver.Keeps type) :
    w.tree.isOpenableFile log = .ok true ∧
      ∃ steps, report = (Report.start (run.reader.indexOf w.tree log)).extend steps ∧
        run.Handled (run.reader.indexOf w.tree log) (run.reader.indexOf w.tree log).types
          steps w v := by
  obtain ⟨hlog, u, hku, h⟩ := repair_of_execute hw h
  obtain ⟨x, hkx, h⟩ := handleTypes_of_repair h
  have hkx := hku.trans hkx
  obtain ⟨steps, hreport, hsteps⟩ := handled_of_handleTypes (hkx.passed hs).sound hk h
  exact ⟨hlog, steps, hreport, hsteps.of_kept hs hkx⟩

/-- However a run ends that does not fail, it has handled the first types of its index. -/
theorem handled_of_execute_outcome (hs : w.tree.Sound) (hw : w.SinksApart log)
    {outcome : Outcome} (h : (run.execute log).run w = .ok outcome v)
    (hk : ∀ type ∈ (run.reader.indexOf w.tree log).types, run.resolver.Keeps type) :
    ∃ before rest steps, (run.reader.indexOf w.tree log).types = before ++ rest ∧
      outcome.report = (Report.start (run.reader.indexOf w.tree log)).extend steps ∧
      run.Handled (run.reader.indexOf w.tree log) before steps w v := by
  obtain ⟨_, u, hku, h⟩ := repair_of_execute hw h
  obtain ⟨x, hkx, h⟩ := handleTypes_of_repair h
  have hkx := hku.trans hkx
  obtain ⟨before, rest, steps, htypes, hreport, hsteps⟩ :=
    handled_of_outcome (hkx.passed hs).sound hk h
  exact ⟨before, rest, steps, htypes, hreport, hsteps.of_kept hs hkx⟩

/-- A run that is told every module finishes, if the log can be read, every path can be told to be
writable or not, and the console refuses nothing. -/
theorem execute_returns (hs : w.tree.Sound) (hw : w.SinksApart log) (ho : w.Obliging)
    {assign : Text → Text} (hlog : w.tree.isOpenableFile log = .ok true)
    (ha : ∀ type ∈ (run.reader.indexOf w.tree log).types, run.resolver.Answers type (assign type))
    (hf : ∀ type ∈ (run.reader.indexOf w.tree log).types,
      ∀ path ∈ (run.reader.indexOf w.tree log).pathsFor type,
        Patch.fault? w.mishaps w.tree path = none) :
    ∃ report v, (run.execute log).run w = .ok (.finished report) v := by
  obtain ⟨q, hq⟩ := FileTree.opened?_of_isOpenableFile hlog
  obtain ⟨bytes, _, hb⟩ := FileTree.readBytes_of_opened? hs hq
  have hreadable : (Files.isReadable log).run w = .ok true w := by
    rw [Files.isReadable, Files.run_isOpenable, hlog]
  have hkx := World.kept_note .info .run ("Scanning build log " ++ log) w
  have hbx := hb
  rw [← hw.readBytes hkx] at hbx
  obtain ⟨index, y, hy⟩ := collect_returns run (hw.kept hkx) (ho.kept hkx) hbx
  obtain ⟨hky, hindex⟩ := kept_of_collect (hw.kept hkx) hy
  rw [hw.indexOf hkx] at hindex
  rw [← hindex] at ha hf
  have hstart : (run.execute log).run w = EStateM.run (if index.isEmpty then do
        display (.message .success "No 'cannot find in scope' errors found in the build log.")
        return .finished (.start index)
      else do
        display (.message .info
          ("Found " ++ Text.ofNat index.size ++ " types that are not found: " ++
            Text.join ", " index.types))
        run.handleTypes index.types (.start index)) y := by
    rw [execute]
    exact (run_bind_of_ok hreadable).trans (run_bind_of_ok hy)
  have hk := hkx.trans hky
  rw [hstart]
  split
  · obtain ⟨v, hv, _⟩ := (ho.kept hk).display
      (.message .success "No 'cannot find in scope' errors found in the build log.")
    exact ⟨.start index, v, (run_bind_of_ok hv).trans rfl⟩
  · obtain ⟨z, hz, hkz⟩ :=
      (ho.kept hk).display
        (.message .info ("Found " ++ Text.ofNat index.size ++ " types that are not found: " ++
          Text.join ", " index.types))
    have hkz := hk.trans hkz
    have hpz := hkz.passed hs
    rw [← hpz.mishaps, hpz.shape.fault?] at hf
    obtain ⟨report, v, hv⟩ := handleTypes_returns (.start index) hpz.sound (ho.kept hkz) ha hf
    exact ⟨report, v, (run_bind_of_ok hz).trans hv⟩

end Run

/-! ## Runs on the small world -/

/-- A run that reads the usual extension and is told the modules. -/
def Run.sample (assign : Text → Text) (trial : Bool) : Run :=
  ⟨⟨Reader.defaultExtension⟩, Adviser.fixed assign, trial⟩

/-- A run that reads the usual extension and asks the user for every module. -/
def Run.interactive : Run := ⟨⟨Reader.defaultExtension⟩, Resolver.resolve ⟨[], true⟩, false⟩

/-- A build log in which one file reports two types. -/
def Run.sampleLog : Text :=
  "/A.swift:1:1: error: cannot find 'Bar' in scope\n/A.swift:2:1: error: cannot find 'Foo' in scope\n"

/-- The statuses of these two types. -/
def Run.sampleStatuses (bar foo : Patch.Status) : List (Text × List (Text × Patch.Status)) :=
  let path : Text := "/A.swift"
  [("Bar", [(path, bar)]), ("Foo", [(path, foo)])]

/-- Whether a run has finished, with a report and a world that pass a test. -/
def Run.finishes (result : EStateM.Result Failure World Outcome) (test : Report → World → Bool) :
    Bool :=
  match result with
  | .ok (.finished report) w => test report w
  | _ => false

theorem Run.exists_of_finishes {result : EStateM.Result Failure World Outcome}
    {test : Report → World → Bool} (h : finishes result test = true) :
    ∃ report w, result = .ok (.finished report) w ∧ test report w = true := by
  unfold finishes at h
  split at h
  · next report w => exact ⟨report, w, rfl, h⟩
  · cases h

/-- Whether a run has stopped at a type. -/
def Run.stopsAt (type : Text) (result : EStateM.Result Failure World Outcome) : Bool :=
  match result with
  | .ok (.inputEnded type' _) _ => type' = type
  | _ => false

theorem Run.exists_of_stopsAt {type : Text} {result : EStateM.Result Failure World Outcome}
    (h : stopsAt type result = true) : ∃ report w, result = .ok (.inputEnded type report) w := by
  unfold stopsAt at h
  split at h
  · next type' report w =>
    rw [of_decide_eq_true h]
    exact ⟨report, w, rfl⟩
  · cases h

end ImportRepair
