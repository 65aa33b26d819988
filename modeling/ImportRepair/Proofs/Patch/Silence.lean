import ImportRepair.Proofs.Patch.Outcome
import ImportRepair.Proofs.Silence

/-!
# Patching is silent

Patching files shows nothing and takes no answer, whatever becomes of the files. And whatever state
the files are in, each result names the path and the module that it is about.

Results:
* `Patch.isAbout_file`: a file is patched without a word, and the result is about that file.
* `Patch.isSilent_files`, `Patch.files_names`: the same for several files.
-/

namespace ImportRepair

variable {α : Type}

/-! ## Asking and reading -/

namespace Files

theorem isSilent_isOpenable (path : Text) : IsSilent (isOpenable path) :=
  isSilent_get fun w => (isSilent_run ((w.tree.isOpenableFile path).mapError .system)).unheard w

theorem isSilent_isWritable (path : Text) : IsSilent (isWritable path) := by
  refine isSilent_get fun w => ?_
  split
  · exact .refl w
  · exact (isSilent_isOpenable path).unheard w

theorem isSilent_readText (path : Text) : IsSilent (readText path) := by
  refine isSilent_get fun w => ?_
  split
  · exact .refl w
  · split
    · exact .refl w
    · exact (isSilent_fail ..).unheard w

end Files

namespace Patch

/-! ## One file -/

theorem isSilent_attempt (counts : Failure → Bool) {job : Job α} (h : IsSilent job) :
    IsSilent (attempt counts job) := by
  refine ⟨fun w => ?_⟩
  rw [run_attempt]
  cases hj : job.run w with
  | ok a u => exact h.of_ok hj
  | error e u =>
    simp only
    split
    · exact h.of_error hj
    · exact h.of_error hj

/-- A silent job whose result is about a given module and path. -/
structure IsAbout (module path : Text) (job : Job Result) : Prop extends IsSilent job where
  names : ∀ w r v, job.run w = .ok r v → r.module = module ∧ r.path = path

variable {module path : Text}

theorem isAbout_pure (status : Status) (message : Text) :
    IsAbout module path (pure ⟨path, module, status, message⟩) where
  toIsSilent := isSilent_pure _
  names := by
    intro w r v h
    cases h
    exact ⟨rfl, rfl⟩

/-- What comes before does not matter as long as it is silent. -/
theorem isAbout_bind {job : Job α} {next : α → Job Result} (h : IsSilent job)
    (hnext : ∀ a, IsAbout module path (next a)) : IsAbout module path (job >>= next) where
  toIsSilent := h.bind fun a => (hnext a).toIsSilent
  names := by
    intro w r v hrun
    obtain ⟨a, u, _, hlast⟩ := run_bind_eq_ok.1 hrun
    exact (hnext a).names u r v hlast

theorem isAbout_leave (severity : Severity) (status : Status) (message : Text) :
    IsAbout module path (leave severity path module status message) :=
  isAbout_bind (isSilent_note ..) fun _ => isAbout_pure ..

theorem isAbout_writeBack (trial : Bool) (text : Text) :
    IsAbout module path (writeBack trial path module text) := by
  rw [writeBack]
  split
  · exact isAbout_leave ..
  · split
    · exact isAbout_bind (isSilent_note ..) fun _ => isAbout_pure ..
    · refine isAbout_bind (isSilent_attempt _ (Files.isSilent_replace ..)) fun written => ?_
      cases written with
      | error e => exact isAbout_leave ..
      | ok _ => exact isAbout_bind (isSilent_note ..) fun _ => isAbout_pure ..

theorem isAbout_amend (trial : Bool) (text : Text) :
    IsAbout module path (amend trial module path text) := by
  rw [amend]
  split
  · exact isAbout_bind (isSilent_note ..) fun _ => isAbout_pure ..
  · split
    · exact isAbout_leave ..
    · exact isAbout_writeBack ..

/-- A file is patched without a word, and the result is about that file. -/
theorem isAbout_file (trial : Bool) (module path : Text) :
    IsAbout module path (file trial module path) := by
  rw [file]
  refine isAbout_bind (Files.isSilent_isWritable path) fun writable => ?_
  cases writable with
  | false => exact isAbout_leave ..
  | true =>
    refine isAbout_bind (isSilent_attempt _ (Files.isSilent_readText path)) fun read => ?_
    cases read with
    | error e => exact isAbout_leave ..
    | ok text => exact isAbout_amend ..

/-! ## Several files -/

/-- Files are patched without a word. -/
theorem isSilent_files (trial : Bool) (module : Text) (paths : List Text) :
    IsSilent (files trial module paths) := by
  rw [files]
  generalize Text.sort paths = paths
  induction paths with
  | nil => exact isSilent_pure []
  | cons path paths ih =>
    rw [List.mapM_cons]
    exact (isAbout_file trial module path).bind fun _ => ih.bind fun _ => isSilent_pure _

/-- There is one result for each path, in the order of the paths, and all are about the module. -/
theorem files_names {trial : Bool} {paths : List Text} {results : List Result} {w v : World}
    (h : (files trial module paths).run w = .ok results v) :
    results.map (·.path) = Text.sort paths ∧ ∀ r ∈ results, r.module = module := by
  rw [files] at h
  generalize Text.sort paths = paths at h ⊢
  induction paths generalizing w results with
  | nil =>
    cases h
    exact ⟨rfl, by simp⟩
  | cons path paths ih =>
    rw [List.mapM_cons] at h
    obtain ⟨r, u, hu, h⟩ := run_bind_eq_ok.1 h
    obtain ⟨rest, x, hx, h⟩ := run_bind_eq_ok.1 h
    cases h
    obtain ⟨hmodule, hpath⟩ := (isAbout_file trial module path).names w r u hu
    obtain ⟨hpaths, hmodules⟩ := ih hx
    refine ⟨by rw [List.map_cons, hpath, hpaths], ?_⟩
    rw [List.forall_mem_cons]
    exact ⟨hmodule, hmodules⟩

end Patch

end ImportRepair
