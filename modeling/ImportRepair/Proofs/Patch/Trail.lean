import ImportRepair.Proofs.Files.Twins
import ImportRepair.Proofs.Patch.Outcome

/-!
# Trails

A list of results is a trail from one tree to another if each result tells the outcome for its path
in the tree that the results before it lead to. The shape of the tree stays the same along a trail,
so which paths can be opened does too.

Patching files gives a trail, but for the records that are appended to files meanwhile. So the
trail runs beside the worlds: through trees that differ from theirs in files that only logs are
written to.

Results:
* `Trail.sameShape`, `Trail.sound`, `Trail.descends`: what stays the same along a trail.
* `run_files`: patching files gives a result for every path, in order, or fails for the first path
  that cannot be told to be writable. The results trace the way to the world that is left.
-/

namespace ImportRepair

namespace Patch

variable {trial : Bool} {mishaps : Mishaps} {module path : Text}

/-! ## Trees along a trail -/

/-- A tree stays as it is, or the file that the path opens is given new bytes. -/
theorem after_cases {tree : FileTree} (hs : tree.Sound) :
    after trial mishaps tree module path = tree ∨
      ∃ p c data, target? mishaps tree path = some p ∧ tree.node? p = some (.file c) ∧
        after trial mishaps tree module path = tree.rewritten mishaps.noTemporary p data := by
  by_cases h : outcome trial mishaps tree module path = .patched
  · obtain ⟨_, _, p, t, k, ht, _, _, _, _, hafter⟩ := of_patched h
    obtain ⟨_, c, hn, _⟩ := FileTree.settled_of_opened? hs (target?_eq_some ht).2
    exact Or.inr ⟨p, c, _, ht, hn, hafter⟩
  · exact Or.inl (after_of_ne_patched h)

theorem sameShape_after {tree : FileTree} (hs : tree.Sound) :
    FileTree.SameShape tree (after trial mishaps tree module path) := by
  obtain h | ⟨p, c, data, _, hn, h⟩ := after_cases hs
  · rw [h]
    exact .refl tree
  · rw [h]
    exact FileTree.sameShape_rewritten _ _ hn

theorem sound_after {tree : FileTree} (hs : tree.Sound) :
    (after trial mishaps tree module path).Sound := by
  obtain h | ⟨p, c, data, _, hn, h⟩ := after_cases hs
  · rwa [h]
  · rw [h]
    exact FileTree.sound_rewritten hs _ hn

/-- Contents that are there at first stay where they are while a file is patched. -/
theorem descends_after {tree : FileTree} (hs : tree.Sound) {hidden : List Nat}
    (hold : ∀ c ∈ hidden, c < tree.contents.length) :
    FileTree.Descends hidden tree (after trial mishaps tree module path) := by
  obtain h | ⟨p, c, data, _, hn, h⟩ := after_cases hs
  · rw [h]
    exact .refl hidden tree
  · rw [h]
    exact (FileTree.Descends.refl hidden tree).rewritten hold hn _

theorem length_contents_le_after {tree : FileTree} :
    tree.contents.length ≤ (after trial mishaps tree module path).contents.length := by
  unfold after
  split
  · exact FileTree.length_contents_le_rewritten ..
  · exact Nat.le_refl _

/-- Results that tell one after the other what becomes of their paths. -/
inductive Trail (trial : Bool) (mishaps : Mishaps) : FileTree → List Result → FileTree → Prop
  | nil {tree} : Trail trial mishaps tree [] tree
  | cons {tree r rest last} : r.status = outcome trial mishaps tree r.module r.path →
      Trail trial mishaps (after trial mishaps tree r.module r.path) rest last →
      Trail trial mishaps tree (r :: rest) last

variable {tree mid last : FileTree} {rs ss : List Result}

theorem Trail.append (h : Trail trial mishaps tree rs mid) (h' : Trail trial mishaps mid ss last) :
    Trail trial mishaps tree (rs ++ ss) last := by
  induction h with
  | nil => exact h'
  | cons hr _ ih => exact .cons hr (ih h')

theorem Trail.split (h : Trail trial mishaps tree (rs ++ ss) last) :
    ∃ mid, Trail trial mishaps tree rs mid ∧ Trail trial mishaps mid ss last := by
  induction rs generalizing tree with
  | nil => exact ⟨tree, .nil, h⟩
  | cons r rs ih =>
    cases h with
    | cons hr h =>
      obtain ⟨mid, h1, h2⟩ := ih h
      exact ⟨mid, .cons hr h1, h2⟩

theorem Trail.sameShape (h : Trail trial mishaps tree rs last) (hs : tree.Sound) :
    FileTree.SameShape tree last := by
  induction h with
  | nil => exact .refl _
  | cons _ _ ih => exact (sameShape_after hs).trans (ih (sound_after hs))

theorem Trail.sound (h : Trail trial mishaps tree rs last) (hs : tree.Sound) : last.Sound := by
  induction h with
  | nil => exact hs
  | cons _ _ ih => exact ih (sound_after hs)

/-- Contents that are there at first stay where they are along a trail. -/
theorem Trail.descends (h : Trail trial mishaps tree rs last) (hs : tree.Sound) {hidden : List Nat}
    (hold : ∀ c ∈ hidden, c < tree.contents.length) : FileTree.Descends hidden tree last := by
  induction h with
  | nil => exact .refl hidden _
  | cons _ _ ih =>
    exact (descends_after hs hold).trans
      (ih (sound_after hs) fun c hc => (hold c hc).trans_le length_contents_le_after)

end Patch

namespace FileTree

variable {a b : FileTree}

theorem SameShape.target? (h : SameShape a b) (mishaps : Mishaps) (path : Text) :
    Patch.target? mishaps a path = Patch.target? mishaps b path := by
  rw [Patch.target?, Patch.target?, h.opened?]

theorem SameShape.fault? (h : SameShape a b) (mishaps : Mishaps) :
    Patch.fault? mishaps a = Patch.fault? mishaps b := by
  funext path
  rw [Patch.fault?, Patch.fault?, h.isOpenableFile]

end FileTree

/-! ## Patching several files -/

/-- A world after files were patched. -/
structure World.Passed (w v : World) : Prop where
  shape : FileTree.SameShape w.tree v.tree
  sound : v.tree.Sound
  mishaps : v.mishaps = w.mishaps
  handlers : v.journal.handlers = w.journal.handlers
  console : ∃ events, v.console = w.console.map (·.presentAll events)

namespace World

variable {u v w : World}

theorem Passed.of_kept {tree : FileTree} (hshape : FileTree.SameShape w.tree tree)
    (hsound : tree.Sound) (h : Kept (Files.withTree w tree) v) : Passed w v :=
  ⟨hshape.trans h.tree.sameShape, h.tree.sound hsound, h.mishaps, h.handlers, h.console⟩

theorem Kept.passed (h : Kept w v) (hs : w.tree.Sound) : Passed w v :=
  .of_kept (.refl _) hs h

theorem Passed.trans (h : Passed w u) (h' : Passed u v) : Passed w v := by
  obtain ⟨events, he⟩ := h.console
  obtain ⟨more, hm⟩ := h'.console
  refine ⟨h.shape.trans h'.shape, h'.sound, h'.mishaps.trans h.mishaps,
    h'.handlers.trans h.handlers, events ++ more, ?_⟩
  rw [hm, he, map_presentAll_append]

theorem Passed.sinks (h : Passed w v) : v.journal.sinks = w.journal.sinks := by
  rw [Journal.sinks, Journal.sinks, h.handlers]

theorem Obliging.passed (h : Obliging w) (hp : Passed w v) : Obliging v := by
  obtain ⟨events, he⟩ := hp.console
  exact h.of_console he

end World

namespace Patch

/-! ## Trails beside worlds -/

section Twins

variable {a b : FileTree} {hidden : List Nat} {paths : List Text}

/-- The same file in trees of the same shape has the same outcome. -/
theorem outcome_congr (hshape : FileTree.SameShape a b)
    (hbytes : ∀ p, target? mishaps a path = some p → b.bytesAt? p = a.bytesAt? p) :
    outcome trial mishaps b module path = outcome trial mishaps a module path := by
  unfold outcome
  rw [← hshape.target?]
  cases ht : target? mishaps a path with
  | none => rfl
  | some p => simp only [Mishaps.textAt?, FileTree.textAt?, hbytes p ht, hshape.obstacle?]

/-- What becomes of a file does not depend on hidden contents. -/
theorem outcome_twin (h : FileTree.Twin hidden paths a b) (hm : path ∈ paths) :
    outcome trial mishaps b module path = outcome trial mishaps a module path :=
  outcome_congr h.logged.sameShape fun _ hp => h.bytesAt? hm (target?_eq_some hp).2

/-- Trees stay twins when the same file is patched in both. -/
theorem twin_after (h : FileTree.Twin hidden paths a b) (hm : path ∈ paths) :
    FileTree.Twin hidden paths (after trial mishaps a module path)
      (after trial mishaps b module path) := by
  have hsame : outcome trial mishaps b module path = outcome trial mishaps a module path :=
    outcome_twin h hm
  unfold after
  rw [hsame, ← h.logged.sameShape.target?]
  split
  · next p _ hp =>
    have hopened := (target?_eq_some hp).2
    rw [FileTree.textAt?, FileTree.textAt?, h.bytesAt? hm hopened]
    exact h.rewritten hm hopened _ _
  · exact h

end Twins

variable {u v w : World}

/-- Results trace the way from one world to another: from a tree that differs from the one of the
first world in the files of logs, they are a trail to a tree that differs from the one of the second
world in these files, as long as their paths lead to none of them. -/
def Traced (trial : Bool) (w : World) (results : List Result) (v : World) : Prop :=
  ∀ paths tree, (∀ r ∈ results, r.path ∈ paths) →
    FileTree.Twin w.journal.sinks paths tree w.tree →
    ∃ last, Trail trial w.mishaps tree results last ∧
      FileTree.Twin w.journal.sinks paths last v.tree

/-- Records and requests leave no trace. -/
theorem traced_of_kept (hk : World.Kept w v) : Traced trial w [] v :=
  fun _ tree _ ht => ⟨tree, .nil, ht.of_logged (.refl ..) hk.tree⟩

/-- One result traces the patching of one file. -/
theorem traced_of_after (message : Text)
    (hk : World.Kept (Files.withTree w (after trial w.mishaps w.tree module path)) v) :
    Traced trial w [⟨path, module, outcome trial w.mishaps w.tree module path, message⟩] v := by
  intro paths tree hm ht
  have hpath : path ∈ paths := hm _ (List.mem_singleton_self _)
  exact ⟨after trial w.mishaps tree module path, .cons (outcome_twin ht hpath) .nil,
    (twin_after ht hpath).of_logged (.refl ..) hk.tree⟩

theorem Traced.append (h : Traced trial w rs u) (hp : World.Passed w u)
    (h' : Traced trial u ss v) : Traced trial w (rs ++ ss) v := by
  intro paths tree hm ht
  rw [List.forall_mem_append] at hm
  obtain ⟨mid, hmid, htwin⟩ := h paths tree hm.1 ht
  rw [← hp.sinks] at htwin
  obtain ⟨last, hlast, htwin⟩ := h' paths mid hm.2 htwin
  rw [hp.sinks] at htwin
  rw [hp.mishaps] at hlast
  exact ⟨last, hmid.append hlast, htwin⟩

/-! ## Files one after the other -/

/-- Patching one file after the other. -/
theorem run_mapM_file (hs : w.tree.Sound) (trial : Bool) (module : Text) {paths : List Text}
    (hf : ∀ path ∈ paths, fault? w.mishaps w.tree path = none) :
    ∃ results v, (paths.mapM (file trial module)).run w = .ok results v ∧
      results.map (·.path) = paths ∧ (∀ r ∈ results, r.module = module) ∧ World.Passed w v ∧
      Traced trial w results v := by
  induction paths generalizing w with
  | nil =>
    exact ⟨[], w, rfl, rfl, by simp, (World.Kept.refl w).passed hs, traced_of_kept (.refl w)⟩
  | cons path paths ih =>
    obtain ⟨hpath, hpaths⟩ := List.forall_mem_cons.1 hf
    have hfile := run_file hs trial module path
    rw [hpath] at hfile
    obtain ⟨message, u, hu, hk⟩ := hfile
    have hpass := World.Passed.of_kept (sameShape_after hs) (sound_after hs) hk
    have hf' : ∀ x ∈ paths, fault? u.mishaps u.tree x = none := by
      intro x hx
      rw [hpass.mishaps, ← hpass.shape.fault?]
      exact hpaths x hx
    obtain ⟨results, v, hv, hkeys, hmod, hpass', htraced⟩ := ih hpass.sound hf'
    refine ⟨⟨path, module, outcome trial w.mishaps w.tree module path, message⟩ :: results, v,
      ?_, ?_, ?_, hpass.trans hpass', (traced_of_after message hk).append hpass htraced⟩
    · rw [List.mapM_cons]
      exact (run_bind_of_ok hu).trans ((run_bind_of_ok hv).trans rfl)
    · rw [List.map_cons, hkeys]
    · rw [List.forall_mem_cons]
      exact ⟨rfl, hmod⟩

/-- The first path that cannot be told to be writable ends the patching. -/
theorem run_mapM_file_fault (hs : w.tree.Sound) (trial : Bool) (module : Text)
    {before rest : List Text} {path : Text} {e : OsError}
    (hb : ∀ x ∈ before, fault? w.mishaps w.tree x = none)
    (he : fault? w.mishaps w.tree path = some e) :
    ∃ v, ((before ++ path :: rest).mapM (file trial module)).run w =
      .error (.file (.system e)) v := by
  obtain ⟨results, v, hv, _, _, hpass, _⟩ := run_mapM_file hs trial module hb
  have hfile := run_file hpass.sound trial module path
  rw [hpass.mishaps, ← hpass.shape.fault?, he] at hfile
  refine ⟨v, ?_⟩
  rw [List.mapM_append, List.mapM_cons]
  exact (run_bind_of_ok hv).trans (run_bind_of_error (run_bind_of_error hfile))

theorem mem_sort {t : Text} {ts : List Text} : t ∈ Text.sort ts ↔ t ∈ ts :=
  List.mem_mergeSort

/-- Patching files gives a result for every path, or fails for the first one that cannot
be told to be writable. -/
theorem run_files (hs : w.tree.Sound) (trial : Bool) (module : Text) (paths : List Text) :
    match (Text.sort paths).findSome? (fault? w.mishaps w.tree) with
    | none => ∃ results v, (files trial module paths).run w = .ok results v ∧
        results.map (·.path) = Text.sort paths ∧ (∀ r ∈ results, r.module = module) ∧
        World.Passed w v ∧ Traced trial w results v
    | some e => ∃ v, (files trial module paths).run w = .error (.file (.system e)) v := by
  rw [files]
  cases hf : (Text.sort paths).findSome? (fault? w.mishaps w.tree) with
  | none => exact run_mapM_file hs trial module (List.findSome?_eq_none_iff.1 hf)
  | some e =>
    obtain ⟨before, path, rest, hpaths, he, hb⟩ := List.findSome?_eq_some_iff.1 hf
    rw [hpaths]
    exact run_mapM_file_fault hs trial module hb he

/-- What it takes for patching to return, and what it returns. -/
theorem files_eq_ok (hs : w.tree.Sound) {trial : Bool} {module : Text} {paths : List Text}
    {results : List Result} {v : World} (h : (files trial module paths).run w = .ok results v) :
    (∀ path ∈ paths, fault? w.mishaps w.tree path = none) ∧
      results.map (·.path) = Text.sort paths ∧ (∀ r ∈ results, r.module = module) ∧
      World.Passed w v ∧ Traced trial w results v := by
  have hrun := run_files hs trial module paths
  cases hf : (Text.sort paths).findSome? (fault? w.mishaps w.tree) with
  | none =>
    rw [hf] at hrun
    obtain ⟨results', v', hv, hrest⟩ := hrun
    rw [h] at hv
    cases hv
    exact ⟨fun path hp => List.findSome?_eq_none_iff.1 hf path (mem_sort.2 hp), hrest⟩
  | some e =>
    rw [hf] at hrun
    obtain ⟨v', hv⟩ := hrun
    rw [h] at hv
    cases hv

/-- Patching returns if every path can be told to be writable or not. -/
theorem files_returns (hs : w.tree.Sound) (trial : Bool) (module : Text) {paths : List Text}
    (hf : ∀ path ∈ paths, fault? w.mishaps w.tree path = none) :
    ∃ results v, (files trial module paths).run w = .ok results v := by
  have hrun := run_files hs trial module paths
  have hnone : (Text.sort paths).findSome? (fault? w.mishaps w.tree) = none :=
    List.findSome?_eq_none_iff.2 fun path hp => hf path (mem_sort.1 hp)
  rw [hnone] at hrun
  obtain ⟨results, v, hv, _⟩ := hrun
  exact ⟨results, v, hv⟩

end Patch

end ImportRepair
