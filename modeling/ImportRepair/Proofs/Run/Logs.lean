import ImportRepair.Proofs.Run.Agreement

/-!
# Runs on different logs

A run depends on its log only through the references that are read from it. Two logs with the same
references, in whatever order and however often, give the same questions and messages, the same end
with the same report, and the same files, as long as neither log is a file that is reported in it,
and no record goes to a file that is read.

Results:
* `Run.sameEnd_collect`: two logs are read alike.
* `Run.sameEnd_execute`: runs in twin worlds end alike if the logs hold the same references.
* `Run.execute_congr_references`: the same for worlds that differ in the logs and in the journal at
  most.
-/

namespace ImportRepair

/-! ## Equal reports -/

/-- Two reports are equal if they name the same references, modules and results. -/
structure Report.Equal (report report' : Report) : Prop where
  index : report.index.same report'.index = true
  modules : report'.modules = report.modules
  results : report'.results = report.results

/-- Two runs have come to the same end with equal reports. -/
inductive Outcome.Equal : Outcome → Outcome → Prop
  | finished {report report'} : Report.Equal report report' →
      Equal (.finished report) (.finished report')
  | inputEnded {type report report'} : Report.Equal report report' →
      Equal (.inputEnded type report) (.inputEnded type report')

theorem Outcome.Alike.equal {index index' : Index} {outcome outcome' : Outcome}
    (h : Alike index index' outcome outcome')
    (hsame : ∀ r, r ∈ index'.references ↔ r ∈ index.references) : outcome.Equal outcome' := by
  have hreport : ∀ {report report' : Report}, Report.Alike index index' report report' →
      Report.Equal report report' := by
    intro report report' hr
    refine ⟨Index.same_eq_true_iff.2 ?_, hr.modules, hr.results⟩
    rw [hr.index, hr.index']
    exact fun r => (hsame r).symm
  cases h with
  | finished hr => exact .finished (hreport hr)
  | inputEnded hr => exact .inputEnded (hreport hr)

/-! ## Reading two logs -/

namespace Run

variable {run : Run} {log log' : Text} {d : Pairing} {w w' : World}

/-- Two logs are read alike. -/
theorem sameEnd_collect (ht : World.Twin d w w') (hl : w.SinksApart log)
    (hl' : w'.SinksApart log') {bytes bytes' : List UInt8}
    (hb : w.tree.readBytes log = .ok bytes) (hb' : w'.tree.readBytes log' = .ok bytes') :
    SameEnd d (fun index index' => index = run.reader.indexOf w.tree log ∧
        index' = run.reader.indexOf w'.tree log')
      ((run.collect log).run w) ((run.collect log').run w') := by
  rw [collect_eq, collect_eq, EStateM.run_bind, EStateM.run_bind]
  have hstart :=
    (agree_display (.started [] "Searching build log for broken references...")).sameEnd ht
  generalize hu : (display _).run w = r at hstart
  generalize hu' : (display _).run w' = r' at hstart
  cases hstart with
  | failed hv => exact .failed hv
  | @returned _ _ u u' _ htu =>
    have hku := kept_of_display hu
    have hku' := kept_of_display hu'
    have hread := run_read run.reader log u
    have hread' := run_read run.reader log' u'
    rw [hl.readBytes hku, hb, hl.indexOf hku] at hread
    rw [hl'.readBytes hku', hb', hl'.indexOf hku'] at hread'
    obtain ⟨x, hx, hkx⟩ := hread
    obtain ⟨x', hx', hkx'⟩ := hread'
    have htx : World.Twin d x x' := htu.of_unheard htu.tree htu.base hkx
      ((Reader.isSilent_read run.reader log).of_ok hx) hkx'
      ((Reader.isSilent_read run.reader log').of_ok hx')
    have hstop := (agree_display (d := d) (.stopped [])).sameEnd htx
    simp only
    rw [run_tryFinally, run_tryFinally, hx, hx']
    simp only
    generalize (display _).run x = s at hstop
    generalize (display _).run x' = s' at hstop
    cases hstop with
    | returned _ hv => exact .returned ⟨rfl, rfl⟩ hv
    | failed hv => exact .failed hv

/-- Runs in twin worlds end alike if the logs hold the same references. -/
theorem sameEnd_execute (ht : World.Twin d w w') (hl : w.SinksApart log)
    (hl' : w'.SinksApart log') {bytes bytes' : List UInt8}
    (hlog : w.tree.isOpenableFile log = .ok true) (hlog' : w'.tree.isOpenableFile log' = .ok true)
    (hb : w.tree.readBytes log = .ok bytes) (hb' : w'.tree.readBytes log' = .ok bytes')
    (hsame : ∀ r, r ∈ (run.reader.indexOf w'.tree log').references ↔
      r ∈ (run.reader.indexOf w.tree log).references)
    (ha : ∀ type ∈ (run.reader.indexOf w.tree log).types, run.resolver.ActsAlike type)
    (hm : ∀ r ∈ (run.reader.indexOf w.tree log).references, r.path ∈ d.paths) :
    SameEnd d
      (Outcome.Alike (run.reader.indexOf w.tree log) (run.reader.indexOf w'.tree log'))
      ((run.execute log).run w) ((run.execute log').run w') := by
  have hreadable : (Files.isReadable log).run w = .ok true w := by
    rw [Files.isReadable, Files.run_isOpenable, hlog]
  have hreadable' : (Files.isReadable log').run w' = .ok true w' := by
    rw [Files.isReadable, Files.run_isOpenable, hlog']
  have hk := World.kept_note .info .run ("Scanning build log " ++ log) w
  have hk' := World.kept_note .info .run ("Scanning build log " ++ log') w'
  have htn := ht.of_unheard ht.tree ht.base hk (World.unheard_note ..) hk' (World.unheard_note ..)
  rw [execute_eq, execute_eq, run_bind_of_ok hreadable, run_bind_of_ok hreadable']
  have hcollect : SameEnd d _ ((run.collect log).run _) ((run.collect log').run _) :=
    sameEnd_collect htn (hl.kept hk) (hl'.kept hk') ((hl.readBytes hk).trans hb)
      ((hl'.readBytes hk').trans hb')
  rw [hl.indexOf hk, hl'.indexOf hk'] at hcollect
  show SameEnd d _ ((run.collect log >>= run.repair).run (w.note ..))
    ((run.collect log' >>= run.repair).run (w'.note ..))
  refine hcollect.bind ?_
  rintro _ _ ⟨rfl, rfl⟩
  exact agree_repair hsame ha hm

/-- What two runs on different logs need not have in common: the contents of the logs, and those
that records go to. -/
def loose (c c' : Nat) (w w' : World) : List Nat := [c, c'] ++ (w.journal.sinks ++ w'.journal.sinks)

theorem forall_mem_loose {c c' : Nat} {p : Nat → Prop} :
    (∀ n ∈ loose c c' w w', p n) ↔
      (p c ∧ p c') ∧ (∀ n ∈ w.journal.sinks, p n) ∧ ∀ n ∈ w'.journal.sinks, p n := by
  rw [loose, List.forall_mem_append, List.forall_mem_append, List.forall_mem_cons,
    List.forall_mem_singleton]

section Loose

variable {c c' : Nat} (htree : FileTree.Logged [c, c'] w.tree w'.tree)

include htree

/-- The files that are reported in the logs have none of these contents. -/
theorem reported_apart (hw : run.reader.SinksApart log w) (hw' : run.reader.SinksApart log' w')
    (hsame : ∀ r, r ∈ (run.reader.indexOf w'.tree log').references ↔
      r ∈ (run.reader.indexOf w.tree log).references)
    (hapart : ∀ r ∈ (run.reader.indexOf w.tree log).references,
      w.tree.contentAt r.path ≠ .ok c ∧ w.tree.contentAt r.path ≠ .ok c') :
    ∀ path ∈ (run.reader.indexOf w.tree log).references.map (·.path),
      ∀ n ∈ loose c c' w w', w.tree.contentAt path ≠ .ok n := by
  intro path hpath
  obtain ⟨r, hr, rfl⟩ := List.mem_map.1 hpath
  have hother := hw'.atReported ((hsame r).2 hr)
  rw [World.SinksApart, htree.contentAt] at hother
  exact forall_mem_loose.2 ⟨hapart r hr, hw.atReported hr, hother⟩

/-- A file that is no log, and that no record goes to, has none of these contents. -/
theorem place_apart {q : Place} (hq : w.tree.node? q ≠ some (.file c))
    (hq' : w.tree.node? q ≠ some (.file c')) (hsinks : w.SinksApartAt q)
    (hsinks' : w'.SinksApartAt q) : ∀ n ∈ loose c c' w w', w.tree.node? q ≠ some (.file n) := by
  rw [World.SinksApartAt, htree.node?] at hsinks'
  exact forall_mem_loose.2 ⟨⟨hq, hq'⟩, hsinks, hsinks'⟩

end Loose

/-- A run depends on its log only through the references that are read from it: two runs that differ
in the logs, neither of which is a file reported in them, show and ask the same in the same order,
end the same way with an equal report, and leave the same in every other file, but for those that
records go to. -/
theorem execute_congr_references {c c' : Nat} (hs : w.tree.Sound)
    (hw : run.reader.SinksApart log w) (hw' : run.reader.SinksApart log' w')
    (hlog : w.tree.isOpenableFile log = .ok true) (hlog' : w.tree.isOpenableFile log' = .ok true)
    (hc : w.tree.contentAt log = .ok c) (hc' : w.tree.contentAt log' = .ok c')
    (htree : FileTree.Logged [c, c'] w.tree w'.tree)
    (hmishaps : w'.mishaps = w.mishaps) (hanswers : w'.answers = w.answers)
    (hconsole : w'.console = w.console)
    (hsame : ∀ r, r ∈ (run.reader.indexOf w'.tree log').references ↔
      r ∈ (run.reader.indexOf w.tree log).references)
    (hapart : ∀ r ∈ (run.reader.indexOf w.tree log).references,
      w.tree.contentAt r.path ≠ .ok c ∧ w.tree.contentAt r.path ≠ .ok c')
    (ha : ∀ type ∈ (run.reader.indexOf w.tree log).types, run.resolver.ActsAlike type) :
    let ended := (run.execute log).run w
    let ended' := (run.execute log').run w'
    (match ended, ended' with
      | .ok outcome _, .ok outcome' _ => outcome.Equal outcome'
      | .error e _, .error e' _ => e' = e
      | _, _ => False) ∧
    (∃ events, (worldAfter ended).screen = w.screen ++ events ∧
      (worldAfter ended').screen = w'.screen ++ events) ∧
    (worldAfter ended').tree.nodes = (worldAfter ended).tree.nodes ∧
    ∀ q, w.tree.node? q ≠ some (.file c) → w.tree.node? q ≠ some (.file c') →
      w.SinksApartAt q → w'.SinksApartAt q →
      (worldAfter ended').tree.bytesAt? q = (worldAfter ended).tree.bytesAt? q := by
  have hshape := htree.sameShape
  obtain ⟨p, hp⟩ := FileTree.opened?_of_isOpenableFile hlog
  obtain ⟨p', hp'⟩ := FileTree.opened?_of_isOpenableFile hlog'
  obtain ⟨bytes, _, hb⟩ := FileTree.readBytes_of_opened? hs hp
  obtain ⟨bytes', _, hb'⟩ := FileTree.readBytes_of_opened? (htree.sound hs)
    ((hshape.opened? log').symm.trans hp')
  have hopen' := (hshape.isOpenableFile log').symm.trans hlog'
  have hold : ∀ n ∈ loose c c' w w', n < w.tree.contents.length := by
    have hold' := hw'.old
    rw [htree.length] at hold'
    exact forall_mem_loose.2 ⟨⟨FileTree.contentAt_lt hs hlog hc,
      FileTree.contentAt_lt hs hlog' hc'⟩, hw.old, hold'⟩
  have hdiffer : FileTree.Logged (loose c c' w w') w.tree w'.tree :=
    htree.mono (List.subset_append_left ..)
  have ht := World.twin_pairing hs hdiffer hold (reported_apart htree hw hw' hsame hapart)
    (List.subset_append_of_subset_right _ (List.subset_append_left ..))
    (List.subset_append_of_subset_right _ (List.subset_append_right ..)) hmishaps hanswers
    (World.refusals_congr hconsole)
  have hend := sameEnd_execute ht hw.atLog hw'.atLog hlog hopen' hb hb' hsame ha
    fun r hr => List.mem_map_of_mem hr
  generalize (run.execute log).run w = ended at hend
  generalize (run.execute log').run w' = ended' at hend
  cases hend with
  | returned houtcome hv =>
    exact ⟨houtcome.equal hsame, hv.screens, hv.tree.logged.nodes, fun q hq hq' hsinks hsinks' =>
      hv.bytesAt? (place_apart htree hq hq' hsinks hsinks')⟩
  | failed hv =>
    exact ⟨rfl, hv.screens, hv.tree.logged.nodes, fun q hq hq' hsinks hsinks' =>
      hv.bytesAt? (place_apart htree hq hq' hsinks hsinks')⟩

/-- The sample log in another order, with a repetition and with a line that reports nothing. -/
def shuffledLog : Text :=
  "/A.swift:2:1: error: cannot find 'Foo' in scope\nnote: 2 errors\n" ++ sampleLog

/-- A world with both logs, and a user who knows both modules. -/
def shuffledWorld : World :=
  World.new ⟨[], [(["A.swift"], .file 0), (["log"], .file 1), (["shuffled"], .file 2)],
    [⟨Utf8.encodeAll "import X\n", 0o644⟩, ⟨Utf8.encodeAll sampleLog, 0o644⟩,
      ⟨Utf8.encodeAll shuffledLog, 0o644⟩]⟩ Journal.defaultThreshold [some "M", some "N"] {}

theorem sound_shuffledWorld : shuffledWorld.tree.Sound := by
  have hroot : shuffledWorld.tree.Solid shuffledWorld.tree.working := trivial
  refine FileTree.sound_of_fits hroot ?_
  intro entry he
  rw [shuffledWorld, World.new, List.mem_cons, List.mem_cons, List.mem_singleton] at he
  obtain rfl | rfl | rfl := he
  · exact Nat.zero_lt_succ 2
  · exact Nat.one_lt_succ_succ 1
  · exact Nat.lt_succ_self 2

/-- The user is asked for the modules in the same order, whichever of the two logs is read. -/
theorem execute_congr_references_shuffled :
    (worldAfter ((interactive.execute "shuffled").run shuffledWorld)).screen =
      (worldAfter ((interactive.execute "log").run shuffledWorld)).screen := by
  have hc : shuffledWorld.tree.contentAt "log" = .ok 1 := by decide +kernel
  have hc' : shuffledWorld.tree.contentAt "shuffled" = .ok 2 := by decide +kernel
  have hsame : ((interactive.reader.indexOf shuffledWorld.tree "shuffled").same
      (interactive.reader.indexOf shuffledWorld.tree "log")) = true := by decide +kernel
  obtain ⟨_, ⟨events, hscreen, hscreen'⟩, _⟩ := execute_congr_references sound_shuffledWorld
    (Reader.SinksApart.of_no_sinks rfl) (Reader.SinksApart.of_no_sinks rfl) (by decide +kernel)
    (by decide +kernel) hc hc' (.refl _ _) rfl rfl rfl
    (Index.same_eq_true_iff.1 hsame) (by decide +kernel)
    (fun type _ => Resolver.actsAlike ⟨[], true⟩ type)
  exact hscreen'.trans hscreen.symm

end Run

end ImportRepair
