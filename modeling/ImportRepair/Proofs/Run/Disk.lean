import ImportRepair.Proofs.Patch.Ledger
import ImportRepair.Proofs.Run.Execution

/-!
# What a report says about the files

A run writes to a file only to patch it, and then the report says so, by a path that leads
to the file or, where files are overwritten in place, to another name of it. A line that was
put in stays. Nothing else about the tree changes: every name, every link and all permission
bits are what they were. Of the files that records go to, only the names are spoken of.

Results:
* `Patch.Trail.modeAt?`: the permission bits stay the same along a trail.
* `Patch.Trail.patched_of_ne`: whatever was written was patched.
* `Run.execute_discloses`: what the report of a run says about the files.
-/

namespace ImportRepair

/-! ## Permission bits -/

/-- A file that was not hidden at first keeps its permission bits while hidden contents change. -/
theorem FileTree.Descends.modeAt? {hidden : List Nat} {a b c : FileTree} {q : Place}
    (h : Descends hidden a b) (hl : Logged hidden b c)
    (hq : ∀ m ∈ hidden, a.node? q ≠ some (.file m)) : c.modeAt? q = b.modeAt? q := by
  rw [FileTree.modeAt?, FileTree.modeAt?, hl.node?]
  split
  · next n hn => rw [hl.contents n fun hm => hq n hm (h.places q n hm hn)]
  · rfl

namespace Patch

variable {trial : Bool} {mishaps : Mishaps} {tree last : FileTree} {rs : List Result}

theorem modeAt?_after (hs : tree.Sound) (module path : Text) (q : Place) :
    (after trial mishaps tree module path).modeAt? q = tree.modeAt? q := by
  obtain h | ⟨p, c, data, _, hn, h⟩ := after_cases hs
  · rw [h]
  · rw [h, FileTree.modeAt?_rewritten hs _ _ hn]

/-- The permission bits stay the same along a trail. -/
theorem Trail.modeAt? (h : Trail trial mishaps tree rs last) (hs : tree.Sound) (q : Place) :
    last.modeAt? q = tree.modeAt? q := by
  induction h with
  | nil => rfl
  | cons _ _ ih => rw [ih (sound_after hs), modeAt?_after hs]

/-! ## What was written was patched -/

theorem of_writes {q : Place} {r : Result} (h : writes mishaps tree q r = true) :
    r.status = .patched ∧ ∃ p, target? mishaps tree r.path = some p ∧
      (q = p ∨ mishaps.noTemporary = true ∧ tree.node? q = tree.node? p) := by
  rw [writes, Bool.and_eq_true, decide_eq_true_eq] at h
  obtain ⟨hpatched, h⟩ := h
  split at h
  · next p hp =>
    refine ⟨hpatched, p, hp, ?_⟩
    rw [FileTree.sharesFile] at h
    split at h
    · next hin => exact Or.inr ⟨hin, of_decide_eq_true h⟩
    · exact Or.inl (of_decide_eq_true h)
  · cases h

/-- Whatever was written was patched. -/
theorem Trail.patched_of_ne (h : Trail trial mishaps tree rs last) (hs : tree.Sound) {q : Place}
    (hq : last.bytesAt? q ≠ tree.bytesAt? q) :
    ∃ r ∈ rs, r.status = .patched ∧ ∃ p, target? mishaps tree r.path = some p ∧
      (q = p ∨ mishaps.noTemporary = true ∧ tree.node? q = tree.node? p) := by
  by_contra hnone
  refine hq ((h.grown hs q).bytes ?_)
  rw [brought, List.filter_eq_nil_iff.2, List.map_nil, List.reverse_nil]
  intro r hr hw
  exact hnone ⟨r, hr, of_writes hw⟩

/-- A line that was put in is read at the end of a trail. -/
theorem Trail.read_of_patched (h : Trail trial mishaps tree rs last) (hs : tree.Sound) {r : Result}
    (hr : r ∈ rs) (hpatched : r.status = .patched) :
    ∃ p t, last.opened? r.path = some p ∧ last.readBytes r.path >>= Files.textOf = .ok t ∧
      occursIn (Insertion.line r.module) t = true := by
  obtain ⟨before, rest, rfl⟩ := List.append_of_mem hr
  obtain ⟨mid, hbefore, hrest⟩ := h.split
  have hsm := hbefore.sound hs
  cases hrest with
  | cons hstatus hrest =>
    obtain ⟨p, t, hp, ht, hline⟩ := Trail.line_of_patched hsm hstatus hpatched hrest
    have hall := Trail.cons hstatus hrest
    have hopened : last.opened? r.path = some p := by
      rw [← (hall.sameShape hsm).opened?]
      exact (target?_eq_some hp).2
    obtain ⟨bytes, hbytes, hread⟩ := FileTree.readBytes_of_opened? (hall.sound hsm) hopened
    refine ⟨p, t, hopened, ?_, hline⟩
    rw [FileTree.textAt?, hbytes, Option.bind_some] at ht
    rw [hread]
    show Files.textOf bytes = .ok t
    cases hd : Utf8.decode bytes with
    | error e =>
      rw [hd] at ht
      cases ht
    | ok u =>
      rw [hd] at ht
      cases ht
      rw [Files.textOf, hd]
      rfl

end Patch

/-! ## Executions -/

namespace Run

variable {run : Run} {log : Text} {w v : World} {outcome : Outcome}

/-- The report of a run that does not fail tells the truth about the files: it has a result
for whatever was written, and what was put in is there in the end. The tree stays as it was,
and so do all permission bits. Files that records go to are left aside: these are written, too,
and the run must read none of them. -/
theorem execute_discloses (hs : w.tree.Sound) (hw : run.reader.SinksApart log w)
    (hk : ∀ type ∈ (run.reader.indexOf w.tree log).types, run.resolver.Keeps type)
    (h : (run.execute log).run w = .ok outcome v) :
    (∀ q, w.SinksApartAt q → v.tree.bytesAt? q ≠ w.tree.bytesAt? q →
      ∃ r ∈ outcome.report.inOrder, r.status = .patched ∧
        ∃ p, w.tree.realPath r.path = .ok (.ofPlace p) ∧
          (q = p ∨ w.mishaps.noTemporary = true ∧ w.tree.node? q = w.tree.node? p)) ∧
      (∀ r ∈ outcome.report.inOrder, r.status = .patched →
        ∃ t, v.tree.readBytes r.path >>= Files.textOf = .ok t ∧
          occursIn (Insertion.line r.module) t = true) ∧
      FileTree.SameShape w.tree v.tree ∧
      ∀ q, w.SinksApartAt q → v.tree.modeAt? q = w.tree.modeAt? q := by
  obtain ⟨_, _, steps, _, hreport, hsteps⟩ := handled_of_execute_outcome hs hw.atLog h hk
  obtain ⟨last, htrail, htwin, hdescends⟩ := hsteps.trail hw hs
  rw [hreport, Report.inOrder_extend]
  refine ⟨?_, ?_, hsteps.passed.shape, ?_⟩
  · intro q hapart hq
    rw [hdescends.bytesAt? htwin.logged hapart] at hq
    obtain ⟨r, hr, hpatched, p, hp, hqp⟩ := htrail.patched_of_ne hs hq
    exact ⟨r, hr, hpatched, p, FileTree.realPath_of_opened? hs (Patch.target?_eq_some hp).2, hqp⟩
  · intro r hr hpatched
    obtain ⟨p, t, ho, ht, hline⟩ := htrail.read_of_patched hs hr hpatched
    refine ⟨t, ?_, hline⟩
    rw [htwin.readBytes (Reader.mem_sources hsteps.covers r hr) ho, ht]
  · intro q hapart
    rw [hdescends.modeAt? htwin.logged hapart, htrail.modeAt? hs]

/-- The sample run writes to a file, and the report has a patched result for it. -/
theorem execute_discloses_sample :
    ∃ report v, ((Run.sample id false).execute "log").run (.sample sampleLog) =
        .ok (.finished report) v ∧
      ∃ r ∈ report.inOrder, r.status = .patched ∧
        ∃ p, (World.sample sampleLog).tree.realPath r.path = .ok (.ofPlace p) ∧
        p = ["A.swift"] := by
  have hfinishes : finishes (((Run.sample id false).execute "log").run (.sample sampleLog))
      (fun _ v =>
        v.tree.bytesAt? ["A.swift"] ≠ (World.sample sampleLog).tree.bytesAt? ["A.swift"]) =
        true := by decide +kernel
  obtain ⟨report, v, h, hne⟩ := exists_of_finishes hfinishes
  obtain ⟨hwritten, _⟩ := execute_discloses (FileTree.sound_sample sampleLog)
    (Reader.SinksApart.of_no_sinks rfl) (fun type _ => (Adviser.answers_fixed id type).keeps) h
  obtain ⟨r, hr, hpatched, p, hp, hqp⟩ :=
    hwritten ["A.swift"] (World.SinksApartAt.of_no_sinks rfl) (of_decide_eq_true hne)
  exact ⟨report, v, h, r, hr, hpatched, p, hp, (hqp.resolve_right fun hin => by cases hin.1).symm⟩

end Run

end ImportRepair
