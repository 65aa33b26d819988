import ImportRepair.Proofs.Patch.Ledger
import ImportRepair.Proofs.Run.Execution

/-!
# Running again

A second run with the same log and the same modules finds every line that the first run put in or
found, since lines never disappear, and whatever kept the first run from putting a line in keeps the
second one from it too. So the second run writes nothing but records.

Results:
* `Patch.Trail.again`: a second trail for the same modules and paths changes nothing.
* `Run.execute_again`: a second run changes nothing, but for the files that records go to.
-/

namespace ImportRepair

namespace Patch

/-- The status that a second run gives in place of a first one. -/
def Status.again : Status → Status
  | .patched => .alreadyPresent
  | status => status

variable {tree last : FileTree} {rs : List Result} {p : Place}

/-- Files that cannot be replaced are not written. -/
theorem Trail.brought_eq_nil (h : Trail false {} tree rs last) (hs : tree.Sound) {path : Text}
    (hp : (tree.obstacle? {} path p).isSome) : brought {} tree rs p = [] := by
  induction h with
  | nil => rfl
  | @cons tree r rest last hr _ ih =>
    have hshape : FileTree.SameShape tree (after false {} tree r.module r.path) :=
      sameShape_after hs
    have hrest := ih (sound_after hs) (by rw [← hshape.obstacle?]; exact hp)
    rw [brought, writes_after hs, ← brought] at hrest
    have hw : writes {} tree p r = false := by
      rw [← Bool.not_eq_true]
      intro hw
      rw [writes, Bool.and_eq_true, decide_eq_true_eq, hr] at hw
      obtain ⟨hpatched, hshare⟩ := hw
      obtain ⟨_, _, x, _, _, hx, hfree, _⟩ := of_patched hpatched
      rw [hx] at hshare
      have hpx : p = x := of_decide_eq_true hshare
      have hsame : tree.obstacle? {} path p = tree.obstacle? {} r.path x := by
        rw [hpx]
        rfl
      rw [hsame, hfree] at hp
      cases hp
    rw [brought_cons, hrest, hw]
    rfl

/-- A line that was put in is there at the end of a trail. -/
theorem outcome_again_of_patched (hs : tree.Sound) {r : Result}
    (hr : r.status = outcome false {} tree r.module r.path) (hpatched : r.status = .patched)
    (h : Trail false {} (after false {} tree r.module r.path) rs last) :
    outcome false {} last r.module r.path = .alreadyPresent := by
  obtain ⟨p, t, hp, ht, hline⟩ := Trail.line_of_patched hs hr hpatched h
  have hlast : target? {} last r.path = some p := by
    rw [← ((Trail.cons hr h).sameShape hs).target?, hp]
  rw [outcome_empty hlast, ht, statusOf_of_anchor (occursIn_anchor_of_line hline),
    hline, if_pos rfl]

/-- Each result of a trail is found again at its end, but for what was patched. -/
theorem outcome_again (hs : tree.Sound) {r : Result}
    (hr : r.status = outcome false {} tree r.module r.path)
    (h : Trail false {} (after false {} tree r.module r.path) rs last) :
    outcome false {} last r.module r.path = r.status.again := by
  by_cases hpatched : r.status = .patched
  · rw [outcome_again_of_patched hs hr hpatched h, hpatched]
    rfl
  have hsame : r.status.again = r.status := by
    cases hstatus : r.status <;> first | rfl | exact absurd hstatus hpatched
  rw [hsame, hr]
  have hall : Trail false {} tree (r :: rs) last := .cons hr h
  have hshape := hall.sameShape hs
  cases hp : target? {} tree r.path with
  | none => rw [outcome, outcome, ← hshape.target?, hp]
  | some p =>
    have hlast : target? {} last r.path = some p := by rw [← hshape.target?, hp]
    have hgrown := hall.grown hs p
    rw [outcome_empty hp, outcome_empty hlast, ← hshape.obstacle?]
    by_cases hnil : brought {} tree (r :: rs) p = []
    · rw [FileTree.textAt?_congr (hgrown.bytes hnil)]
    · -- lines were put in, so there is an anchor and no obstacle
      obtain ⟨t, k, ht, hk, htext⟩ := hgrown.text hnil
      have hfree : (tree.obstacle? {} r.path p).isSome = false := by
        rw [← Bool.not_eq_true]
        exact fun hblocked => hnil (hall.brought_eq_nil hs hblocked)
      have hanchor : occursIn Insertion.anchor t = true := by rw [occursIn, hk]; rfl
      rw [outcome_empty hp, ht, hfree, statusOf_of_anchor hanchor] at hr
      rw [ht, htext, hfree, statusOf_of_anchor hanchor,
        statusOf_of_anchor (hgrown.occursIn_anchor hk)]
      cases hocc : occursIn (Insertion.line r.module) t with
      | true => rw [occursIn_splice hk _ hocc]
      | false =>
        cases hsc : (Insertion.line r.module).isScalar with
        | false => rw [occursIn_of_not_isScalar (FileTree.isScalar_of_textAt? htext) hsc]
        | true =>
          rw [hocc, hsc] at hr
          exact absurd hr hpatched

/-- A second trail for the same modules and paths changes nothing. -/
theorem Trail.again (h : Trail false {} tree rs last) (hs : tree.Sound) {ss : List Result}
    {u : FileTree} (h' : Trail false {} last ss u) (hkeys : keys ss = keys rs) :
    u = last ∧ ss.map (·.status) = rs.map (·.status.again) := by
  induction h generalizing ss with
  | nil =>
    rw [keys, keys, List.map_nil, List.map_eq_nil_iff] at hkeys
    subst hkeys
    cases h'
    exact ⟨rfl, rfl⟩
  | @cons tree r rest last hr hrest ih =>
    cases h' with
    | nil => cases hkeys
    | @cons _ s ss _ hs' h' =>
      rw [keys, keys, List.map_cons, List.map_cons, List.cons.injEq, Prod.mk.injEq] at hkeys
      obtain ⟨⟨hmodule, hpath⟩, hkeys⟩ := hkeys
      have hagain := outcome_again hs hr hrest
      rw [← hmodule, ← hpath] at hagain
      have hne : outcome false {} last s.module s.path ≠ .patched := by
        rw [hagain]
        cases r.status <;> decide
      rw [after_of_ne_patched hne] at h'
      obtain ⟨hu, hstatuses⟩ := ih (sound_after hs) h' hkeys
      refine ⟨hu, ?_⟩
      rw [List.map_cons, List.map_cons, hstatuses, hs', hagain]

end Patch

namespace Run

variable {run : Run} {log : Text} {w v : World} {report : Report}

/-- No file that the steps ask for is the log. -/
theorem readBytes_log_eq (hs : w.tree.Sound) {steps : List Step} {last : FileTree} {index : Index}
    (hc : ∀ s ∈ steps, s.Covers index)
    (hlog : ∀ r ∈ index.references, w.tree.realPath r.path ≠ w.tree.realPath log)
    (hopen : w.tree.isOpenableFile log = .ok true)
    (h : Patch.Trail false {} w.tree (Step.all steps) last) :
    last.readBytes log = w.tree.readBytes log := by
  obtain ⟨q, hq⟩ := FileTree.opened?_of_isOpenableFile hopen
  have hshape := h.sameShape hs
  have hq' : last.opened? log = some q := by rw [← hshape.opened?, hq]
  obtain ⟨bytes, hb, hread⟩ := FileTree.readBytes_of_opened? hs hq
  obtain ⟨bytes', hb', hread'⟩ := FileTree.readBytes_of_opened? (h.sound hs) hq'
  have hnil : Patch.brought {} w.tree (Step.all steps) q = [] := by
    rw [Patch.brought, List.filter_eq_nil_iff.2, List.map_nil, List.reverse_nil]
    intro r hr hw
    obtain ⟨s, _, hpath⟩ := Step.path_mem hc hr
    rw [Patch.writes, Bool.and_eq_true, Patch.target?_empty] at hw
    cases hp : w.tree.opened? r.path with
    | none =>
      rw [hp] at hw
      cases hw.2
    | some p =>
      rw [hp] at hw
      have hqp : q = p := of_decide_eq_true hw.2
      apply hlog _ (Index.mem_pathsFor.1 hpath)
      rw [FileTree.realPath_of_opened? hs hp, FileTree.realPath_of_opened? hs hq, hqp]
  rw [(h.grown hs q).bytes hnil, hb] at hb'
  cases hb'
  rw [hread, hread']

/-- A second run with the same log and the same modules changes nothing but the files that records
go to, where the run reads none of these and no path of the index goes to the log. It finds
everything in place that the first run patched, and gives every other file the status that the first
run gave it. -/
theorem execute_again (hs : w.tree.Sound) (hw : run.reader.SinksApart log w) (hm : w.mishaps = {})
    (ho : w.Obliging) (hr : run.trial = false) {assign : Text → Text}
    (ha : ∀ type ∈ (run.reader.indexOf w.tree log).types, run.resolver.Answers type (assign type))
    (hlog : ∀ r ∈ (run.reader.indexOf w.tree log).references,
      w.tree.realPath r.path ≠ w.tree.realPath log)
    (h : (run.execute log).run w = .ok (.finished report) v) :
    ∃ second u, (run.execute log).run v = .ok (.finished second) u ∧
      FileTree.Logged w.journal.sinks v.tree u.tree ∧
      second.index = report.index ∧ second.modules = report.modules ∧
      second.statuses = report.statuses.map fun e =>
        (e.1, e.2.map fun pathStatus => (pathStatus.1, pathStatus.2.again)) := by
  obtain ⟨hopen, steps, rfl, hsteps⟩ :=
    handled_of_execute hs hw.atLog h fun type ht => (ha type ht).keeps
  have hpass := hsteps.passed
  obtain ⟨last, htrail, htwin, _⟩ := hsteps.trail hw hs
  rw [hm, hr] at htrail
  obtain ⟨q, hq⟩ := FileTree.opened?_of_isOpenableFile hopen
  have hq' : last.opened? log = some q := by rw [← (htrail.sameShape hs).opened?, hq]
  have hmem : log ∈ run.reader.sources log w.tree := List.mem_cons_self ..
  -- the second run starts from the same index
  have hindex : run.reader.indexOf v.tree log = run.reader.indexOf w.tree log := by
    rw [Reader.indexOf, Reader.indexOf, htwin.readBytes hmem hq',
      readBytes_log_eq hs hsteps.covers hlog hopen htrail]
  have hopen' : v.tree.isOpenableFile log = .ok true := by rw [← hpass.shape.isOpenableFile, hopen]
  rw [← hpass.sinks] at htwin
  have hw' : v.SinksApart log := htwin.contentAt_ne hmem hq'
  rw [← hindex] at ha
  have htold : ∀ type ∈ (run.reader.indexOf v.tree log).types,
      ∀ path ∈ (run.reader.indexOf v.tree log).pathsFor type,
        Patch.fault? v.mishaps v.tree path = none := by
    rw [hindex, hpass.mishaps, ← hpass.shape.fault?]
    exact hsteps.told
  obtain ⟨second, u, hu⟩ := execute_returns hpass.sound hw' (ho.passed hpass) hopen' ha htold
  obtain ⟨_, steps', rfl, hsteps'⟩ := handled_of_execute hpass.sound hw' hu
    fun type ht => (ha type ht).keeps
  -- it asks for the same modules and paths
  have hmodules' := hsteps'.modules_eq ha
  rw [hindex] at hsteps' hmodules' ha
  have hsame : (steps'.map fun s => (s.type, s.module)) = steps.map fun s =>
      (s.type, s.module) := by
    rw [hmodules', hsteps.modules_eq ha]
  have hkeys : Patch.keys (Step.all steps') = Patch.keys (Step.all steps) := by
    rw [Step.keys_all hsteps'.covers, Step.keys_all hsteps.covers, hsame]
  -- its trail goes on where the first one has ended, and does not lead on
  obtain ⟨last', htrail', htwin'⟩ := hsteps'.traced _ last (Reader.mem_sources hsteps'.covers) htwin
  rw [hpass.mishaps, hm, hr] at htrail'
  obtain ⟨rfl, hstatuses⟩ := htrail.again hs htrail' hkeys
  have hlogged := htwin.logged.symm.trans htwin'.logged
  rw [hpass.sinks] at hlogged
  refine ⟨_, u, hu, hlogged, hindex, ?_, ?_⟩
  · show [] ++ _ = [] ++ _
    rw [hsame]
  · have heq := Step.statuses_eq hsteps.covers hsteps'.covers
      (hsteps'.order.trans hsteps.order.symm) hstatuses
    simp only [Report.statuses, Report.extend, Report.start, List.nil_append, List.map_map]
    refine Eq.trans ?_ (heq.trans ?_)
    · rfl
    · refine List.map_congr_left fun s _ => ?_
      simp only [Function.comp_apply, List.map_map]
      rfl

/-- Two types that were reported by one file find their lines. -/
theorem execute_again_sample :
    ∃ report v second u,
      ((Run.sample id false).execute "log").run (.sample sampleLog) = .ok (.finished report) v ∧
      report.statuses = sampleStatuses .patched .patched ∧
      ((Run.sample id false).execute "log").run v = .ok (.finished second) u ∧
      u.tree = v.tree ∧ second.statuses = sampleStatuses .alreadyPresent .alreadyPresent := by
  have hfinishes : finishes (((Run.sample id false).execute "log").run (.sample sampleLog))
      (fun report _ => report.statuses = sampleStatuses .patched .patched) = true := by
    decide +kernel
  obtain ⟨report, v, h, hstatuses⟩ := exists_of_finishes hfinishes
  have hstatuses : report.statuses = sampleStatuses .patched .patched := of_decide_eq_true hstatuses
  obtain ⟨second, u, hu, hlogged, _, _, hagain⟩ :=
    execute_again (FileTree.sound_sample sampleLog) (Reader.SinksApart.of_no_sinks rfl) rfl
    (World.obliging_sample sampleLog) rfl (fun type _ => Adviser.answers_fixed id type)
    (by decide +kernel) h
  rw [hstatuses] at hagain
  exact ⟨report, v, second, u, h, hstatuses, hu, FileTree.Logged.eq hlogged, hagain⟩

end Run

end ImportRepair
