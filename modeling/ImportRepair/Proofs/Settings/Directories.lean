import ImportRepair.Proofs.Files.Fixpoints
import ImportRepair.Proofs.Settings.Loading

/-!
# Making the directory of a log file

A log file that was found is given by an absolute path that a file can have. So only the system can
keep its directory from being made, which is recorded and nothing more.

Results:
* `FileTree.hasCleanNames_of`: the names of a clean path are clean.
* `Settings.of_realPathFrom`: a path that was found is clean and absolute.
* `Files.run_makeDirectories`: only the system keeps directories from being made.
* `Settings.run_ensureDirectories`: the directory of a log file that was found never is in the way.
-/

namespace ImportRepair

/-! ## Clean paths -/

namespace FileTree

variable {tree : FileTree} {p : PlainPath}

/-- The names of a clean path are clean. -/
theorem hasCleanNames_of {path : Text} (h : Path.IsClean path) :
    HasCleanNames (PlainPath.of path) :=
  PlainPath.speltBy_of h

theorem HasCleanNames.parent (h : HasCleanNames p) : HasCleanNames p.parent :=
  (hasCleanNames_iff.1 h).parent

theorem HasCleanNames.flat (h : HasCleanNames p) : HasCleanNames p.flat :=
  (hasCleanNames_iff.1 h).flat

theorem isAbsolute_absolute (tree : FileTree) (path : Text) :
    Path.isAbsolute (tree.absolute path) = true := by
  have hslash : ∀ c ∈ (PlainPath.of path).root, c = Path.slash :=
    fun _ hc => List.eq_of_mem_replicate hc
  refine PlainPath.isAbsolute_display_of_root ?_ ?_
  · show ((PlainPath.ofPlace tree.working).append (PlainPath.of path)).root ≠ []
    unfold PlainPath.append
    split
    · exact List.cons_ne_nil _ _
    · assumption
  · show ∀ c ∈ ((PlainPath.ofPlace tree.working).append (PlainPath.of path)).root, c = Path.slash
    unfold PlainPath.append
    split
    · exact fun c hc => List.mem_singleton.1 hc
    · exact hslash

/-- A real path is absolute. -/
theorem isAbsolute_of_realPath {path : Text} {real : PlainPath}
    (h : tree.realPath path = .ok real) :
    Path.isAbsolute real.display = true := by
  rw [realPath] at h
  split at h
  · cases h
    exact PlainPath.isAbsolute_display_ofPlace _
  · cases h
    exact (Path.isAbsolute_plain _).trans (isAbsolute_absolute ..)
  · cases h

end FileTree

namespace Settings

/-- A path that was found is clean and absolute. -/
theorem of_realPathFrom {tree : FileTree} {root path real : Text}
    (h : realPathFrom tree root path = .ok real) :
    Path.IsClean real ∧ Path.isAbsolute real = true := by
  rw [realPathFrom] at h
  split at h
  · cases h
  · next found hfound =>
    split at h
    · cases h
    · next hcheck =>
      split at h
      · cases h
      · cases h
        exact ⟨FileTree.checkPath_eq_ok_iff.1 hcheck, FileTree.isAbsolute_of_realPath hfound⟩

end Settings

/-! ## Making directories -/

theorem run_tryCatch {α : Type} (job : Job α) (handler : Failure → Job α) (w : World) :
    (tryCatch job handler).run w = match job.run w with
      | .ok a v => .ok a v
      | .error e v => (handler e).run v := by
  show EStateM.tryCatch job handler w = _
  unfold EStateM.tryCatch EStateM.run
  cases job w <;> rfl

namespace Files

/-- A job fails only because the system refuses something. -/
def FailsBySystem (job : Job Unit) (w : World) : Prop :=
  (∃ v, job.run w = .ok () v) ∨ ∃ cause v, job.run w = .error (.file (.system cause)) v

theorem failsBySystem_makeOne {p : PlainPath} (h : FileTree.HasCleanNames p) (w : World) :
    FailsBySystem (makeOne p) w := by
  have hmake : ∀ e, w.tree.makeDirectory p.display = .error e → ∃ cause, e = .system cause := by
    intro e he
    unfold FileTree.makeDirectory at he
    simp only [h.checkPath, bind, Except.bind] at he
    split at he <;> cases he
    · exact ⟨_, rfl⟩
    · exact ⟨_, rfl⟩
  unfold FailsBySystem
  rw [makeOne, EStateM.run_bind, EStateM.run_get]
  simp only
  split
  · exact Or.inl ⟨_, rfl⟩
  · exact Or.inr ⟨_, _, rfl⟩
  · rw [EStateM.run_bind, EStateM.run_get]
    simp only
    split
    · exact Or.inl ⟨_, rfl⟩
    · exact Or.inr ⟨_, _, rfl⟩
  · next e hne he =>
    obtain ⟨cause, rfl⟩ := hmake _ he
    exact absurd rfl (hne cause)

theorem FailsBySystem.bind {job next : Job Unit} {w : World} (h : FailsBySystem job w)
    (hnext : ∀ u, FailsBySystem next u) : FailsBySystem (job >>= fun _ => next) w := by
  unfold FailsBySystem
  obtain ⟨u, hu⟩ | ⟨cause, u, hu⟩ := h
  · rw [run_bind_of_ok hu]
    exact hnext u
  · exact Or.inr ⟨cause, u, run_bind_of_error hu⟩

theorem failsBySystem_makeAllWithin (levels : Nat) {p : PlainPath} (h : FileTree.HasCleanNames p)
    (w : World) : FailsBySystem (makeAllWithin levels p) w := by
  induction levels generalizing p w with
  | zero => exact failsBySystem_makeOne h w
  | succ levels ih =>
    unfold FailsBySystem
    rw [makeAllWithin, run_tryCatch]
    obtain ⟨v, hv⟩ | ⟨cause, v, hv⟩ := failsBySystem_makeOne h w
    · rw [hv]
      exact Or.inl ⟨v, rfl⟩
    · rw [hv]
      simp only
      split
      · exact (ih h.parent v).bind fun u => failsBySystem_makeOne h u
      · exact Or.inr ⟨cause, v, rfl⟩

/-- Only the system keeps directories from being made. -/
theorem run_makeDirectories {p : PlainPath} (h : FileTree.HasCleanNames p) (w : World) :
    FailsBySystem (makeDirectories p) w := failsBySystem_makeAllWithin _ h w

end Files

/-- The directory of a log file that was found never is in the way. -/
theorem Settings.run_ensureDirectories {settings : Entries} (h : HasLogPath settings) (w : World) :
    ∃ v, (ensureDirectories settings).run w = .ok () v := by
  rw [ensureDirectories]
  cases ht : ((get? settings "logging" "log_file").getD .null).isTruthy with
  | false => exact ⟨w, rfl⟩
  | true =>
    obtain ⟨tree, root, path, real, hreal, hfile⟩ := h ht
    obtain ⟨hclean, _⟩ := of_realPathFrom hreal
    have hparent := (FileTree.hasCleanNames_of hclean).parent
    simp only [hfile, Option.getD_some, Bool.not_true, Bool.false_eq_true, if_false]
    rw [run_tryCatch]
    obtain ⟨v, hv⟩ | ⟨cause, v, hv⟩ := Files.run_makeDirectories hparent w
    · rw [run_bind_of_ok hv]
      exact ⟨_, rfl⟩
    · rw [run_bind_of_error hv]
      exact ⟨_, rfl⟩

end ImportRepair
