import ImportRepair.Proofs.Files.Replacing
import ImportRepair.Proofs.Files.Twins
import ImportRepair.Proofs.Patch.Ledger
import ImportRepair.Proofs.Patch.Telling

/-!
# Files that do not influence each other

Patching one file changes the bytes of this file, and nothing that matters for another one. So if
the paths of a list lead to different files, every result is the one that the path has alone, in
whatever order the paths are given, and every file ends up as it would alone.

Results:
* `run_mapM_apart`: what each of several paths comes to, after others were handled.
* `files_apart`: patching several files is patching each of them alone.
-/

namespace ImportRepair

/-! ## Order -/

namespace Text

theorem sort_pairwise (ts : List Text) : (sort ts).Pairwise fun t u => t ≤ u := by
  have hsorted : (sort ts).Pairwise fun t u => (!decide (u < t)) = true := List.pairwise_mergeSort
    (fun a b c hab hbc => by
      simp only [Bool.not_eq_true', decide_eq_false_iff_not, not_lt] at hab hbc ⊢
      exact hab.trans hbc)
    (fun a b => by
      simp only [Bool.or_eq_true, Bool.not_eq_true', decide_eq_false_iff_not, not_lt]
      exact le_total a b) ts
  refine hsorted.imp fun h => ?_
  simpa only [Bool.not_eq_true', decide_eq_false_iff_not, not_lt] using h

theorem sort_of_pairwise {ts : List Text} (h : ts.Pairwise fun t u => t ≤ u) : sort ts = ts :=
  (List.mergeSort_perm ts _).eq_of_pairwise (fun _ _ _ _ => le_antisymm) (sort_pairwise ts) h

/-- The order in which texts are given does not matter. -/
theorem sort_congr {ts us : List Text} (h : ts.Perm us) : sort ts = sort us :=
  ((List.mergeSort_perm ts _).trans (h.trans (List.mergeSort_perm us _).symm)).eq_of_pairwise
    (fun _ _ _ _ => le_antisymm) (sort_pairwise ts) (sort_pairwise us)

end Text

/-! ## Files in turn -/

/-- The second world is the first one after some files were patched. -/
structure World.Amid (w u : World) : Prop where
  passed : World.Passed w u
  places : ∀ q, ∀ c ∈ w.journal.sinks, u.tree.node? q = some (.file c) →
    w.tree.node? q = some (.file c)
  shares : ∀ p q,
    u.tree.sharesFile w.mishaps.noTemporary p q = w.tree.sharesFile w.mishaps.noTemporary p q
  length : w.tree.contents.length ≤ u.tree.contents.length

namespace Patch

variable {w u v : World} {trial : Bool} {module path : Text}

/-- The real paths of two paths lead to different files, and to different contents where files are
overwritten in place. -/
def AreApart (mishaps : Mishaps) (tree : FileTree) (x y : Text) : Prop :=
  ∀ p q, tree.IsRealFile x p → tree.IsRealFile y q →
    p ≠ q ∧ (mishaps.noTemporary = true → tree.node? p ≠ tree.node? q)

/-- No log is written to the file at the real path of a path. -/
def IsUnlogged (w : World) (path : Text) : Prop :=
  ∀ p, w.tree.IsRealFile path p → ∀ c ∈ w.journal.sinks, w.tree.node? p ≠ some (.file c)

/-- Patching the paths together, given in some order, is patching each of them alone: every
path has the result that it has alone, in the order of the paths, and its file ends up with the
bytes that it gets alone. -/
def AreIndependent (w : World) (trial : Bool) (module : Text) (paths order : List Text) : Prop :=
  ∃ results v, (files trial module order).run w = .ok results v ∧
    List.Forall₂ (fun path r => ∃ u, (file trial module path).run w = .ok r u ∧
      ∀ p, w.tree.IsRealFile path p → v.tree.bytesAt? p = u.tree.bytesAt? p)
        (Text.sort paths) results

theorem AreApart.symm {mishaps : Mishaps} {tree : FileTree} {x y : Text}
    (h : AreApart mishaps tree x y) :
    AreApart mishaps tree y x := by
  intro p q hp hq
  obtain ⟨hne, hnodes⟩ := h q p hq hp
  exact ⟨hne.symm, fun hin => (hnodes hin).symm⟩

theorem AreApart.sharesFile {mishaps : Mishaps} {tree : FileTree} {x y : Text} {p q : Place}
    (h : AreApart mishaps tree x y) (hp : tree.IsRealFile x p) (hq : tree.IsRealFile y q) :
    tree.sharesFile mishaps.noTemporary p q = false := by
  obtain ⟨hne, hnodes⟩ := h p q hp hq
  unfold FileTree.sharesFile
  split
  · next hin => exact decide_eq_false (hnodes hin).symm
  · exact decide_eq_false hne.symm

theorem amid_refl (hs : w.tree.Sound) : World.Amid w w :=
  ⟨(World.Kept.refl w).passed hs, fun _ _ _ h => h, fun _ _ => rfl, Nat.le_refl _⟩

/-- Patching one more file. Where nothing is logged, it leaves the bytes that the result speaks
of. -/
theorem amid_file (hold : ∀ c ∈ w.journal.sinks, c < w.tree.contents.length) (h : World.Amid w u)
    (hf : fault? w.mishaps w.tree path = none) :
    ∃ v, (file trial module path).run u = .ok (result trial w.mishaps u.tree module path) v ∧
      World.Amid w v ∧ ∀ q, (∀ c ∈ w.journal.sinks, w.tree.node? q ≠ some (.file c)) →
        v.tree.bytesAt? q = (after trial w.mishaps u.tree module path).bytesAt? q := by
  have hsound := h.passed.sound
  have hfu : fault? u.mishaps u.tree path = none := by
    rw [h.passed.mishaps, ← h.passed.shape.fault?, hf]
  obtain ⟨v, hv, hk⟩ := @file_returns_result trial module path u hsound hfu
  rw [h.passed.mishaps] at hv hk
  have hpass := World.Passed.of_kept (sameShape_after hsound) (sound_after hsound) hk
  have hsinks : u.journal.sinks = w.journal.sinks := h.passed.sinks
  have hdescends :
      FileTree.Descends w.journal.sinks u.tree (after trial w.mishaps u.tree module path) :=
    descends_after hsound fun c hc => (hold c hc).trans_le h.length
  have hlogged :
      FileTree.Logged w.journal.sinks (after trial w.mishaps u.tree module path) v.tree :=
    hsinks ▸ hk.tree
  refine ⟨v, hv, ⟨h.passed.trans hpass, ?_, ?_, ?_⟩, ?_⟩
  · intro q c hc hq
    rw [hlogged.node?] at hq
    exact h.places q c hc (hdescends.places q c hc hq)
  · intro p q
    have hshares : (after trial w.mishaps u.tree module path).sharesFile w.mishaps.noTemporary p q =
        u.tree.sharesFile w.mishaps.noTemporary p q := sharesFile_after hsound p q
    rw [← h.shares, ← hshares]
    unfold FileTree.sharesFile
    rw [hlogged.node?, hlogged.node?]
  · rw [hlogged.length]
    exact h.length.trans length_contents_le_after
  · intro q hq
    exact hlogged.bytesAt? fun c hc hn => hq c hc (h.places q c hc (hdescends.places q c hc hn))

theorem isRealFile_of_target? {mishaps : Mishaps} {tree : FileTree} {p : Place} (hs : tree.Sound)
    (h : target? mishaps tree path = some p) : tree.IsRealFile path p :=
  FileTree.isRealFile_of_opened? hs (target?_eq_some h).2

/-- A file that is apart from the one of a path keeps its bytes when the path is handled,
also after others were. -/
theorem bytesAt?_after_amid (hs : w.tree.Sound) (h : World.Amid w u) {q : Place}
    (hq : ∀ p, w.tree.IsRealFile path p → w.tree.sharesFile w.mishaps.noTemporary p q = false) :
    (after trial w.mishaps u.tree module path).bytesAt? q = u.tree.bytesAt? q := by
  refine bytesAt?_after_of_apart h.passed.sound fun p hp => ?_
  rw [← h.passed.shape.target?] at hp
  rw [h.shares]
  exact hq p (isRealFile_of_target? hs hp)

/-- What each of several paths comes to, after others were handled: the result that it has alone,
and the bytes that it leaves alone. All other files keep their bytes. -/
theorem run_mapM_apart (hs : w.tree.Sound)
    (hold : ∀ c ∈ w.journal.sinks, c < w.tree.contents.length) {paths : List Text}
    (h : World.Amid w u) (hf : ∀ path ∈ paths, fault? w.mishaps w.tree path = none)
    (hunlogged : ∀ path ∈ paths, IsUnlogged w path)
    (hapart : paths.Pairwise (AreApart w.mishaps w.tree))
    (hbytes : ∀ path ∈ paths, ∀ p, w.tree.IsRealFile path p →
      u.tree.bytesAt? p = w.tree.bytesAt? p) :
    ∃ results v, (paths.mapM (file trial module)).run u = .ok results v ∧
      List.Forall₂ (fun path r => r = result trial w.mishaps w.tree module path ∧
        ∀ p, w.tree.IsRealFile path p →
          v.tree.bytesAt? p = (after trial w.mishaps w.tree module path).bytesAt? p) paths results ∧
      ∀ q, (∀ c ∈ w.journal.sinks, w.tree.node? q ≠ some (.file c)) →
        (∀ path ∈ paths, ∀ p, w.tree.IsRealFile path p →
          w.tree.sharesFile w.mishaps.noTemporary p q = false) →
        v.tree.bytesAt? q = u.tree.bytesAt? q := by
  induction paths generalizing u with
  | nil => exact ⟨[], u, rfl, .nil, fun _ _ _ => rfl⟩
  | cons path paths ih =>
    obtain ⟨hfpath, hfpaths⟩ := List.forall_mem_cons.1 hf
    obtain ⟨hupath, hupaths⟩ := List.forall_mem_cons.1 hunlogged
    obtain ⟨hbpath, hbpaths⟩ := List.forall_mem_cons.1 hbytes
    obtain ⟨hhead, htail⟩ := List.pairwise_cons.1 hapart
    obtain ⟨x, hx, hamid, hxbytes⟩ := @amid_file w u trial module path hold h hfpath
    -- the files of the other paths are what they were
    have hothers : ∀ y ∈ paths, ∀ p, w.tree.IsRealFile y p →
        x.tree.bytesAt? p = w.tree.bytesAt? p := by
      intro y hy p hp
      rw [hxbytes p (hupaths y hy p hp),
        bytesAt?_after_amid hs h fun q hq => (hhead y hy).sharesFile hq hp, hbpaths y hy p hp]
    obtain ⟨results, v, hv, htold, hframe⟩ := ih hamid hfpaths hupaths htail hothers
    refine ⟨result trial w.mishaps u.tree module path :: results, v, ?_, .cons ⟨?_, ?_⟩ htold, ?_⟩
    · rw [List.mapM_cons]
      exact (run_bind_of_ok hx).trans ((run_bind_of_ok hv).trans rfl)
    · exact result_congr h.passed.shape fun p hp => hbpath p (isRealFile_of_target? hs hp)
    · intro p hp
      rw [hframe p (hupath p hp) fun y hy q hq => (hhead y hy).symm.sharesFile hq hp,
        hxbytes p (hupath p hp)]
      exact bytesAt?_after_congr hs h.passed.sound h.passed.shape
        (fun q hq => (isRealFile_of_target? hs hq).unique hp) (hbpath p hp)
    · intro q hq hshares
      obtain ⟨hspath, hspaths⟩ := List.forall_mem_cons.1 hshares
      rw [hframe q hq hspaths, hxbytes q hq, bytesAt?_after_amid hs h hspath]

/-- Patching several files is patching each of them alone, in whatever order the paths are given.
Their real paths have to lead to different files, which no log is written to. -/
theorem files_apart (hs : w.tree.Sound) (hold : ∀ c ∈ w.journal.sinks, c < w.tree.contents.length)
    {paths order : List Text} (hunlogged : ∀ path ∈ paths, IsUnlogged w path)
    (hapart : paths.Pairwise (AreApart w.mishaps w.tree))
    (halone : ∀ path ∈ paths, ∃ r u, (file trial module path).run w = .ok r u)
    (horder : order.Perm paths) : AreIndependent w trial module paths order := by
  have hf : ∀ path ∈ Text.sort paths, fault? w.mishaps w.tree path = none ∧ IsUnlogged w path := by
    intro path hpath
    refine ⟨?_, hunlogged path (mem_sort.1 hpath)⟩
    cases hfault : fault? w.mishaps w.tree path with
    | none => rfl
    | some e =>
      obtain ⟨r, u, hu⟩ := halone path (mem_sort.1 hpath)
      have hrun := run_file hs trial module path
      rw [hfault, hu] at hrun
      cases hrun
  have hsorted : (Text.sort paths).Pairwise (AreApart w.mishaps w.tree) :=
    ((List.mergeSort_perm paths _).pairwise_iff AreApart.symm).2 hapart
  obtain ⟨results, v, hv, htold, -⟩ :=
    @run_mapM_apart w w trial module hs hold (Text.sort paths) (amid_refl hs)
    (fun path hpath => (hf path hpath).1) (fun path hpath => (hf path hpath).2) hsorted
    fun _ _ _ _ => rfl
  refine ⟨results, v, by rw [files, Text.sort_congr horder, hv], ?_⟩
  refine ((List.forall₂_and_left ..).2 ⟨hf, htold⟩).imp ?_
  rintro path r ⟨⟨hfault, hquiet⟩, rfl, hbytes⟩
  obtain ⟨u, hu, -, hubytes⟩ := @amid_file w w trial module path hold (amid_refl hs) hfault
  exact ⟨u, hu, fun p hp => (hbytes p hp).trans (hubytes p (hquiet p hp)).symm⟩

theorem exists_run_file (hs : w.tree.Sound) {paths : List Text}
    (hf : ∀ path ∈ paths, fault? w.mishaps w.tree path = none) :
    ∀ path ∈ paths, ∃ r u, (file trial module path).run w = .ok r u := by
  intro path hpath
  obtain ⟨u, hu, -⟩ := file_returns_result hs (hf path hpath)
  exact ⟨_, u, hu⟩

/-- Two files of the sample tree, in either order. -/
theorem files_apart_sample :
    AreIndependent (.sample "import Y\n") false "M" ["/A.swift", "/log"] ["/log", "/A.swift"] := by
  have hs : (World.sample "import Y\n").tree.Sound := FileTree.sound_sample "import Y\n"
  have hA : (World.sample "import Y\n").tree.IsRealFile "/A.swift" ["A.swift"] :=
    FileTree.isRealFile_of_opened? hs (by decide +kernel)
  have hlog : (World.sample "import Y\n").tree.IsRealFile "/log" ["log"] :=
    FileTree.isRealFile_of_opened? hs (by decide +kernel)
  refine files_apart hs (fun _ hc => absurd hc List.not_mem_nil)
    (fun _ _ _ _ _ hc => absurd hc List.not_mem_nil) ?_
    (exists_run_file hs (by decide +kernel)) (List.Perm.swap ..)
  refine List.pairwise_pair.2 fun p q hp hq => ⟨?_, fun hin => by cases hin⟩
  rw [hp.unique hA, hq.unique hlog]
  decide

/-! ### Paths that are not independent -/

/-- The sample world, with a journal that is kept in the second file. -/
def keptLog : World :=
  { World.sample "import X\n" with journal := ⟨0, [], [⟨.file 1, "%(message)s"⟩], [], []⟩ }

/-- Paths are not independent if the second of two is left with other bytes than it gets alone. -/
theorem not_areIndependent {x y : Text} {p : Place} (hsort : Text.sort [x, y] = [x, y])
    (hreal : w.tree.IsRealFile y p)
    (h : (worldAfter (([x, y].mapM (file trial module)).run w)).tree.bytesAt? p ≠
      (worldAfter ((file trial module y).run w)).tree.bytesAt? p) :
    ¬AreIndependent w trial module [x, y] [x, y] := by
  rintro ⟨results, v, hv, htold⟩
  rw [files, hsort] at hv
  rw [hsort] at htold
  obtain _ | ⟨-, _ | ⟨⟨u, hu, hbytes⟩, -⟩⟩ := htold
  rw [hv, hu] at h
  exact h (hbytes p hreal)

/-- That the real paths are different is not enough. The names after a circle of links are
left as they are, so one of two real paths may lead through a link to the other. Alone, the
path with the circle is not writable. And a file that a log is written to is left with
other records than alone. -/
theorem not_files_apart_by_realPath :
    (¬∀ (w : World) (trial : Bool) (module : Text) (paths order : List Text), w.tree.Sound →
      w.journal.sinks = [] → paths.Pairwise (fun x y => w.tree.realPath x ≠ w.tree.realPath y) →
      (w.mishaps.noTemporary = true → paths.Pairwise fun x y =>
        ∀ p q, w.tree.IsRealFile x p → w.tree.IsRealFile y q → w.tree.node? p ≠ w.tree.node? q) →
      (∀ path ∈ paths, ∃ r u, (file trial module path).run w = .ok r u) → order.Perm paths →
      AreIndependent w trial module paths order) ∧
    ¬∀ (w : World) (trial : Bool) (module : Text) (paths order : List Text), w.tree.Sound →
      (∀ c ∈ w.journal.sinks, c < w.tree.contents.length) →
      paths.Pairwise (fun x y => w.tree.realPath x ≠ w.tree.realPath y) →
      paths.Pairwise (AreApart w.mishaps w.tree) →
      (∀ path ∈ paths, ∃ r u, (file trial module path).run w = .ok r u) → order.Perm paths →
      AreIndependent w trial module paths order := by
  constructor
  · intro hall
    have hreal : World.linked.tree.IsRealFile "/loop/../dl/A.swift" ["A.swift", "d"] :=
      @FileTree.isRealFile_of_lookUp World.linked.tree "/loop/../dl/A.swift" ["A.swift", "d"]
        ⟨"/", (["dl", "A.swift"] : List Text)⟩ 0 (by decide +kernel) (by decide +kernel)
    refine not_areIndependent (Text.sort_of_pairwise (by decide +kernel)) hreal (by decide +kernel)
      (hall .linked false "M" ["/d/A.swift", "/loop/../dl/A.swift"] _ World.sound_linked rfl
        (by decide +kernel) (fun hin => by cases hin)
        (exists_run_file World.sound_linked (by decide +kernel)) (.refl _))
  · intro hall
    have hs : keptLog.tree.Sound := FileTree.sound_sample "import X\n"
    have hA : keptLog.tree.IsRealFile "/A.swift" ["A.swift"] :=
      FileTree.isRealFile_of_opened? hs (by decide +kernel)
    have hlog : keptLog.tree.IsRealFile "/log" ["log"] :=
      FileTree.isRealFile_of_opened? hs (by decide +kernel)
    have hapart : AreApart keptLog.mishaps keptLog.tree "/A.swift" "/log" := by
      refine fun p q hp hq => ⟨?_, fun hin => by cases hin⟩
      rw [hp.unique hA, hq.unique hlog]
      decide
    refine not_areIndependent (Text.sort_of_pairwise (by decide +kernel)) hlog (by decide +kernel)
      (hall keptLog false "M" ["/A.swift", "/log"] _ hs (by decide +kernel) (by decide +kernel)
        (List.pairwise_pair.2 hapart) (exists_run_file hs (by decide +kernel)) (.refl _))

end Patch

end ImportRepair
