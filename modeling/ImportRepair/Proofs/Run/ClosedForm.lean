import ImportRepair.Proofs.Patch.Ledger
import ImportRepair.Proofs.Run.Execution

/-!
# The text of a file after a run

A run puts a line into a file for each type that was reported by a path of the file that can be
opened, unless the line is there already or cannot be written. The first anchor of the file never
moves, so all lines go in before it, the later ones before the earlier ones.

Results:
* `Patch.Trail.textAt?_accepted`: the text of a file after a trail.
* `Run.execute_text`: the text of a file after a run.
-/

namespace ImportRepair

namespace FileTree

variable {tree : FileTree} {f : Place}

/-- A temporary file can stand beside the file at a place. -/
structure HasRoom (tree : FileTree) (f : Place) : Prop where
  name : Path.byteLength (Temporary.shownName (PlainPath.ofPlace f).name) ≤ Path.maxName
  path : Path.byteLength (shownTemporary (.ofPlace f)) < Path.maxPath
  free : (Temporary.freeName? tree f.tail (PlainPath.ofPlace f).name).isSome

instance (tree : FileTree) (f : Place) : Decidable (tree.HasRoom f) :=
  decidable_of_iff
    (Path.byteLength (Temporary.shownName (PlainPath.ofPlace f).name) ≤ Path.maxName ∧
      Path.byteLength (shownTemporary (.ofPlace f)) < Path.maxPath ∧
      (Temporary.freeName? tree f.tail (PlainPath.ofPlace f).name).isSome)
    ⟨fun h => ⟨h.1, h.2.1, h.2.2⟩, fun h => ⟨h.1, h.2, h.3⟩⟩

theorem SameShape.hasRoom {a b : FileTree} (h : SameShape a b) (hf : a.HasRoom f) : b.HasRoom f :=
  ⟨hf.name, hf.path, by rw [← h.freeName?]; exact hf.free⟩

theorem HasRoom.obstacle? (h : tree.HasRoom f) (path : Text) : tree.obstacle? {} path f = none := by
  have hlen : ¬(Path.maxName < Path.byteLength (Temporary.shownName (PlainPath.ofPlace f).name) ∨
      Path.maxPath ≤ Path.byteLength (shownTemporary (.ofPlace f))) := by
    have hname := h.name
    have hpath := h.path
    omega
  have hfree : (Temporary.freeName? tree f.tail (PlainPath.ofPlace f).name).isNone = false := by
    rw [Option.isNone_eq_false_iff]
    exact h.free
  rw [FileTree.obstacle?]
  simp only [List.lookup_nil, Bool.false_eq_true, if_false]
  rw [if_neg hlen, hfree]
  rfl

end FileTree

/-! ## Trails -/

namespace Patch

variable {tree last : FileTree} {rs : List Result} {f : Place} {t : Text} {k : Nat}

/-- The lines that results offer to the file at a place. -/
def offers (tree : FileTree) (f : Place) (results : List Result) : List Text :=
  (results.filter fun r => tree.opened? r.path = some f).map fun r => Insertion.line r.module

theorem offers_append (tree : FileTree) (f : Place) (rs ss : List Result) :
    offers tree f (rs ++ ss) = offers tree f rs ++ offers tree f ss := by
  rw [offers, List.filter_append, List.map_append, offers, offers]

/-- A result for another file changes nothing. -/
theorem textAt?_after_other (hs : tree.Sound) {r : Result}
    (hr : r.status = outcome false {} tree r.module r.path) (hf : tree.opened? r.path ≠ some f) :
    (after false {} tree r.module r.path).textAt? f = tree.textAt? f := by
  have hgrown := grown_after hs hr f
  have hw : writes {} tree f r = false := by
    rw [writes, target?_empty, Bool.and_eq_false_iff]
    right
    cases hp : tree.opened? r.path with
    | none => rfl
    | some p =>
      have hne : f ≠ p := fun h => hf (by rw [hp, h])
      exact decide_eq_false hne
  rw [hw] at hgrown
  exact FileTree.textAt?_congr (hgrown.bytes rfl)

/-- A result for the file brings its line, if the line is accepted. -/
theorem textAt?_after_offer (hs : tree.Sound) {r : Result}
    (hr : r.status = outcome false {} tree r.module r.path) (hf : tree.opened? r.path = some f)
    (hroom : tree.HasRoom f) (hk : firstIndex? Insertion.anchor t = some k) {lines : List Text}
    (hlines : ∀ l ∈ lines, Insertion.anchor <+: l)
    (ht : tree.textAt? f = some (splice k lines.flatten t)) :
    (after false {} tree r.module r.path).textAt? f =
      some (splice k (Insertion.accept k t lines (Insertion.line r.module)).flatten t) := by
  have hstay := firstIndex?_splice hk (Insertion.flatten_lines_eq_nil_or hlines)
  have hanchor : occursIn Insertion.anchor (splice k lines.flatten t) = true := by
    rw [occursIn, hstay]
    rfl
  have hout : outcome false {} tree r.module r.path =
      if occursIn (Insertion.line r.module) (splice k lines.flatten t) then .alreadyPresent
      else if !(Insertion.line r.module).isScalar then .encodeFailed else .patched := by
    rw [outcome_empty hf, hroom.obstacle?, ht, statusOf_of_anchor hanchor]
    rfl
  cases hocc : occursIn (Insertion.line r.module) (splice k lines.flatten t) with
  | true =>
    have hne : outcome false {} tree r.module r.path ≠ .patched := by
      rw [hout, hocc, if_pos rfl]
      decide
    rw [after_of_ne_patched hne, Insertion.accept_of_occursIn hocc, ht]
  | false =>
    cases hsc : (Insertion.line r.module).isScalar with
    | false =>
      have hne : outcome false {} tree r.module r.path ≠ .patched := by
        rw [hout, hocc, hsc]
        decide
      rw [after_of_ne_patched hne, Insertion.accept_of_not_isScalar hsc, ht]
    | true =>
      have hpatched : outcome false {} tree r.module r.path = .patched := by
        rw [hout, hocc, hsc]
        rfl
      have hw : writes {} tree f r = true := by
        rw [writes, hr, hpatched, target?_empty, hf]
        exact FileTree.sharesFile_self _ f
      have hgrown := grown_after hs hr f
      rw [hw, if_pos rfl] at hgrown
      have hle := (firstIndex?_eq_some_iff.1 hk).1
      rw [hgrown.textAt? ht hstay, splice_splice hle, Insertion.accept, hocc, hsc]
      simp

/-- The text of a file after a trail: the accepted ones of the offered lines have gone in. -/
theorem Trail.textAt?_accepted (h : Trail false {} tree rs last) (hs : tree.Sound)
    (hroom : tree.HasRoom f) (hk : firstIndex? Insertion.anchor t = some k) {lines : List Text}
    (hlines : ∀ l ∈ lines, Insertion.anchor <+: l)
    (ht : tree.textAt? f = some (splice k lines.flatten t)) :
    last.textAt? f =
      some (splice k ((offers tree f rs).foldl (Insertion.accept k t) lines).flatten t) := by
  induction h generalizing lines with
  | nil => exact ht
  | @cons tree r rest last hr _ ih =>
    have hshape : FileTree.SameShape tree (after false {} tree r.module r.path) :=
      sameShape_after hs
    have hrest : offers (after false {} tree r.module r.path) f rest = offers tree f rest := by
      rw [offers, offers]
      congr 2
      funext x
      rw [hshape.opened?]
    rw [hrest] at ih
    by_cases hf : tree.opened? r.path = some f
    · have hcons : offers tree f (r :: rest) = Insertion.line r.module :: offers tree f rest := by
        rw [offers, List.filter_cons_of_pos (by simpa using hf), List.map_cons, offers]
      rw [hcons, List.foldl_cons]
      refine ih (sound_after hs) (hshape.hasRoom hroom) ?_
        (textAt?_after_offer hs hr hf hroom hk hlines ht)
      intro l hl
      rw [Insertion.accept] at hl
      split at hl
      · obtain rfl | hl := List.mem_cons.1 hl
        · exact Insertion.anchor_prefix_line _
        · exact hlines l hl
      · exact hlines l hl
    · have hcons : offers tree f (r :: rest) = offers tree f rest := by
        rw [offers, List.filter_cons_of_neg (by simpa using hf), offers]
      rw [hcons]
      refine ih (sound_after hs) (hshape.hasRoom hroom) hlines ?_
      rw [textAt?_after_other hs hr hf, ht]

end Patch

/-! ## Steps -/

section Steps

variable {tree : FileTree} {index : Index} {f : Place} {t : Text} {k : Nat} {lines : List Text}

/-- Whether a path stands for the file at a place: it can be opened, and its real path is
the path of the place. -/
def FileTree.leadsTo (tree : FileTree) (f : Place) (path : Text) : Bool :=
  tree.isOpenableFile path = .ok true && tree.realPath path = .ok (.ofPlace f)

theorem FileTree.leadsTo_iff (hs : tree.Sound) {path : Text} :
    tree.leadsTo f path = true ↔ tree.opened? path = some f := by
  rw [leadsTo, Bool.and_eq_true, decide_eq_true_eq, decide_eq_true_eq]
  constructor
  · rintro ⟨hopen, hreal⟩
    obtain ⟨p, hp⟩ := opened?_of_isOpenableFile hopen
    rw [realPath_of_opened? hs hp] at hreal
    rw [hp, ofPlace_injective (Except.ok.inj hreal)]
  · intro h
    exact ⟨(opened?_eq_some h).1, realPath_of_opened? hs h⟩

/-- The lines that are offered to the file at a place, one for each module of a type that was
reported by a path of the file. -/
def Report.linesFor (report : Report) (tree : FileTree) (f : Place) : List Text :=
  (report.modules.filter fun e => (report.index.pathsFor e.1).any (tree.leadsTo f)).map
    fun e => Insertion.line e.2

/-- A line that is offered several times in a row is accepted once. -/
theorem foldl_accept_replicate (n : Nat) (l : Text) (lines : List Text) :
    (List.replicate (n + 1) l).foldl (Insertion.accept k t) lines =
      Insertion.accept k t lines l := by
  induction n generalizing lines with
  | zero => rfl
  | succ n ih => rw [List.replicate_succ, List.foldl_cons, ih, Insertion.accept_accept]

/-- One step offers the line of its module, however many paths of the file reported the type. -/
theorem foldl_accept_step (hs : tree.Sound) {s : Step} (hc : s.Covers index) (lines : List Text) :
    (Patch.offers tree f s.results).foldl (Insertion.accept k t) lines =
      if (index.pathsFor s.type).any (tree.leadsTo f) then
        Insertion.accept k t lines (Insertion.line s.module)
      else lines := by
  have hreplicate : Patch.offers tree f s.results =
      List.replicate (s.results.filter fun r => tree.opened? r.path = some f).length
        (Insertion.line s.module) := by
    rw [Patch.offers, ← List.map_const']
    refine List.map_congr_left fun r hr => ?_
    rw [hc.module r (List.mem_of_mem_filter hr)]
  have hany : (index.pathsFor s.type).any (tree.leadsTo f) = true ↔
      ∃ r ∈ s.results, tree.opened? r.path = some f := by
    rw [List.any_eq_true]
    constructor
    · rintro ⟨path, hp, hlead⟩
      rw [← Patch.mem_sort, ← hc.paths, List.mem_map] at hp
      obtain ⟨r, hr, rfl⟩ := hp
      exact ⟨r, hr, (FileTree.leadsTo_iff hs).1 hlead⟩
    · rintro ⟨r, hr, hopen⟩
      refine ⟨r.path, ?_, (FileTree.leadsTo_iff hs).2 hopen⟩
      rw [← Patch.mem_sort, ← hc.paths]
      exact List.mem_map_of_mem hr
  rw [hreplicate]
  cases hn : (s.results.filter fun r => tree.opened? r.path = some f).length with
  | zero =>
    rw [if_neg]
    · rfl
    · rw [hany]
      rintro ⟨r, hr, hopen⟩
      rw [List.length_eq_zero_iff, List.filter_eq_nil_iff] at hn
      exact hn r hr (decide_eq_true hopen)
  | succ n =>
    rw [foldl_accept_replicate, if_pos]
    rw [hany]
    obtain ⟨r, hr⟩ := List.exists_mem_of_length_pos (Nat.lt_of_lt_of_eq n.succ_pos hn.symm)
    exact ⟨r, List.mem_of_mem_filter hr, of_decide_eq_true (List.mem_filter.1 hr).2⟩

theorem foldl_accept_steps (hs : tree.Sound) {steps : List Step} (hc : ∀ s ∈ steps, s.Covers index)
    (lines : List Text) :
    (Patch.offers tree f (Step.all steps)).foldl (Insertion.accept k t) lines =
      (((steps.filter fun s => (index.pathsFor s.type).any (tree.leadsTo f)).map
        fun s => Insertion.line s.module)).foldl (Insertion.accept k t) lines := by
  induction steps generalizing lines with
  | nil => rfl
  | cons s steps ih =>
    rw [List.forall_mem_cons] at hc
    have hall : Step.all (s :: steps) = s.results ++ Step.all steps := List.flatMap_cons
    rw [hall, Patch.offers_append, List.foldl_append, foldl_accept_step hs hc.1, ih hc.2,
      List.filter_cons]
    split <;> rfl

end Steps

/-! ## Runs -/

namespace Run

variable {run : Run} {log : Text} {w v : World} {report : Report} {f : Place} {t : Text} {a : Nat}

/-- The text of a file after a run in which nothing goes wrong: before its first anchor stand the
lines of the types that were reported by a path of the file, in the order of the types from the last
to the first, without those that cannot be written or that were there when it was their turn. No
record goes to the file, nor to a file that the run reads. -/
theorem execute_text (hs : w.tree.Sound) (hw : run.reader.SinksApart log w) (hf : w.SinksApartAt f)
    (hm : w.mishaps = {}) (hr : run.trial = false)
    (hk : ∀ type ∈ (run.reader.indexOf w.tree log).types, run.resolver.Keeps type)
    (h : (run.execute log).run w = .ok (.finished report) v)
    (ht : w.tree.textAt? f = some t) (ha : firstIndex? Insertion.anchor t = some a)
    (hroom : w.tree.HasRoom f) :
    report.index = run.reader.indexOf w.tree log ∧
      report.modules.map (·.1) = report.index.types ∧
      v.tree.textAt? f = some (t.take a ++
        (Insertion.accepted a t (report.linesFor w.tree f)).flatten ++ t.drop a) := by
  obtain ⟨_, steps, rfl, hsteps⟩ := handled_of_execute hs hw.atLog h hk
  obtain ⟨last, htrail, htwin, hdescends⟩ := hsteps.trail hw hs
  rw [hm, hr] at htrail
  have hlast : v.tree.textAt? f = last.textAt? f :=
    FileTree.textAt?_congr (hdescends.bytesAt? htwin.logged hf)
  have hmodules : ((Report.start (run.reader.indexOf w.tree log)).extend steps).modules =
      steps.map fun s => (s.type, s.module) := rfl
  refine ⟨rfl, ?_, ?_⟩
  · rw [hmodules, List.map_map]
    exact hsteps.order
  · have hstart : w.tree.textAt? f = some (splice a ([] : List Text).flatten t) := by
      rw [List.flatten_nil, splice_nil, ht]
    rw [hlast, htrail.textAt?_accepted hs hroom ha (by simp) hstart,
      foldl_accept_steps hs hsteps.covers, Insertion.accepted, Report.linesFor, hmodules,
      List.filter_map, List.map_map, splice]
    rfl

/-- Two types that were reported by one file bring one line each. -/
theorem execute_text_sample :
    ∃ report v, ((Run.sample id false).execute "log").run (.sample sampleLog) =
        .ok (.finished report) v ∧
      v.tree.textAt? ["A.swift"] = some "import Foo\nimport Bar\nimport X\n" := by
  have hfinishes : finishes (((Run.sample id false).execute "log").run (.sample sampleLog))
      (fun report _ => report.linesFor (.sample sampleLog) ["A.swift"] =
        [Insertion.line "Bar", Insertion.line "Foo"]) = true := by decide +kernel
  obtain ⟨report, v, h, hlines⟩ := exists_of_finishes hfinishes
  have ht : (FileTree.sample sampleLog).textAt? ["A.swift"] = some "import X\n" := by decide +kernel
  obtain ⟨_, _, htext⟩ := execute_text (FileTree.sound_sample sampleLog)
    (Reader.SinksApart.of_no_sinks rfl) (World.SinksApartAt.of_no_sinks rfl) rfl rfl
    (fun type _ => (Adviser.answers_fixed id type).keeps) h ht (by decide +kernel : _ = some 0)
    (by decide +kernel)
  have hlines : report.linesFor (World.sample sampleLog).tree ["A.swift"] =
      [Insertion.line "Bar", Insertion.line "Foo"] := of_decide_eq_true hlines
  refine ⟨report, v, h, ?_⟩
  rw [htext, hlines]
  decide +kernel

/-- The lines that would be offered to the file at a place if it did not matter whether
a path can be opened. -/
def linesResolving (report : Report) (tree : FileTree) (f : Place) : List Text :=
  (report.modules.filter fun e => (report.index.pathsFor e.1).any fun path =>
    tree.realPath path = .ok (.ofPlace f)).map fun e => Insertion.line e.2

/-- A build log with a path through a directory that does not exist. -/
def crookedLog : Text := "/none/../A.swift:1:1: error: cannot find 'Foo' in scope\n"

/-- A real path is not enough: a path through a directory that does not exist has one, and cannot be
opened. -/
theorem not_execute_text_of_realPath :
    ¬∀ (run : Run) (log : Text) (w v : World) (report : Report) (f : Place) (t : Text) (a : Nat),
      w.tree.Sound → w.journal.sinks = [] → w.mishaps = {} → run.trial = false →
      (∀ type ∈ (run.reader.indexOf w.tree log).types, run.resolver.Keeps type) →
      (run.execute log).run w = .ok (.finished report) v →
      (∃ r ∈ (run.reader.indexOf w.tree log).references,
        w.tree.realPath r.path = .ok (.ofPlace f)) →
      w.tree.isOpenableFile (PlainPath.ofPlace f).display = .ok true →
      w.tree.textAt? f = some t → firstIndex? Insertion.anchor t = some a → w.tree.HasRoom f →
      v.tree.textAt? f = some (t.take a ++
        (Insertion.accepted a t (linesResolving report w.tree f)).flatten ++ t.drop a) := by
  intro hall
  have hfinishes : finishes (((Run.sample id false).execute "log").run (.sample crookedLog))
      (fun report v => linesResolving report (World.sample crookedLog).tree ["A.swift"] =
          [Insertion.line "Foo"] &&
        v.tree.textAt? ["A.swift"] = some "import X\n") = true := by decide +kernel
  obtain ⟨report, v, h, htest⟩ := exists_of_finishes hfinishes
  rw [Bool.and_eq_true] at htest
  have hlines : linesResolving report (World.sample crookedLog).tree ["A.swift"] =
      [Insertion.line "Foo"] := of_decide_eq_true htest.1
  have hkept : v.tree.textAt? ["A.swift"] = some "import X\n" := of_decide_eq_true htest.2
  have htext := hall _ _ _ _ _ ["A.swift"] "import X\n" 0 (FileTree.sound_sample _) rfl rfl rfl
    (fun type _ => (Adviser.answers_fixed id type).keeps) h (by decide +kernel) (by decide +kernel)
    (by decide +kernel) (by decide +kernel) (by decide +kernel)
  rw [hlines, hkept] at htext
  exact absurd htext (by decide +kernel)

end Run

end ImportRepair
