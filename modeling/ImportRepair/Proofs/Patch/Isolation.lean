import ImportRepair.Proofs.Patch.Trail

/-!
# Files are patched apart from each other

Whatever happens to a file is told by its result, and the other files are patched all the same. The
one exception comes before anything happens to the file: a question whether it can be written fails
if the system finds its path too long.

Results:
* `fault?_eq_some_iff`: when it cannot be told whether a path can be written.
* `files_returns_iff`: patching returns, with a result for every path in order,
  exactly if no path is overlong.
-/

namespace ImportRepair

namespace FileTree

variable {tree : FileTree}

/-- The failures to follow names. -/
theorem error_of_stretch {followLast : Bool} {d : Place} {names : List Text} {code : ErrorCode}
    (h : tree.stretch followLast d names = .finished (.error code)) :
    code.isQuiet = true ∨ code = .nameTooLong := by
  induction names generalizing d with
  | nil => cases h
  | cons name rest ih =>
    rw [stretch] at h
    split at h
    · exact ih h
    split at h
    · exact ih h
    split at h
    · cases h
      exact Or.inr rfl
    split at h
    · split at h <;> cases h
      exact Or.inl rfl
    · exact ih h
    · split at h <;> cases h
      exact Or.inl rfl
    · split at h <;> cases h

theorem error_of_walk {followLast : Bool} {links : Nat} {d : Place} {names : List Text}
    {code : ErrorCode} (h : tree.walk followLast links d names = .error code) :
    code.isQuiet = true ∨ code = .nameTooLong := by
  induction links generalizing d names with
  | zero =>
    rw [walk] at h
    split at h
    · next result hs =>
      subst h
      exact error_of_stretch hs
    · cases h
      exact Or.inl rfl
  | succ links ih =>
    rw [walk] at h
    split at h
    · next result hs =>
      subst h
      exact error_of_stretch hs
    · exact ih h

/-- A file that cannot be looked up does not exist, or its path is too long. -/
theorem error_of_lookUp {path : Text} {code : ErrorCode} (h : tree.lookUp path = .error code) :
    code.isQuiet = true ∨ code = .nameTooLong := by
  rw [lookUp] at h
  split at h
  · cases h
  · cases h
    exact Or.inl rfl
  · next hl =>
    cases h
    rw [locate] at hl
    split at hl
    · cases hl
      exact Or.inl rfl
    split at hl
    · cases hl
      exact Or.inr rfl
    exact error_of_walk hl

end FileTree

namespace Patch

/-- The system finds a path too long before it finds that it leads nowhere, and nobody has said that
the path may not be written. -/
structure IsOverlong (mishaps : Mishaps) (tree : FileTree) (path : Text) : Prop where
  asked : path ∉ mishaps.unwritable
  clean : FileTree.checkPath (Path.plain path) = .ok ()
  long : tree.lookUp (Path.plain path) = .error .nameTooLong

variable {mishaps : Mishaps} {tree : FileTree} {path : Text}

theorem isOpenableFile_eq_error_iff {e : OsError} :
    tree.isOpenableFile path = .error e ↔
      FileTree.checkPath (Path.plain path) = .ok () ∧
        tree.lookUp (Path.plain path) = .error .nameTooLong ∧
          e = .onPath .nameTooLong (Path.plain path) := by
  have hfile : tree.isOpenableFile path = .error e ↔ tree.isFile path = .error e := by
    rw [FileTree.isOpenableFile]
    split
    · next h => simp [h]
    · rfl
  rw [hfile, FileTree.isFile]
  cases hc : FileTree.checkPath (Path.plain path) with
  | error fault => simp
  | ok u =>
    cases hl : tree.lookUp (Path.plain path) with
    | ok found =>
      obtain ⟨p, n⟩ := found
      cases n <;> simp
    | error code =>
      obtain hquiet | rfl := FileTree.error_of_lookUp hl
      · have hne : code ≠ .nameTooLong := by
          rintro rfl
          cases hquiet
        simp [hquiet, hne]
      · simp [ErrorCode.isQuiet, eq_comm]

/-- It cannot be told whether a path can be written exactly if the path is overlong. -/
theorem fault?_eq_some_iff {e : OsError} :
    fault? mishaps tree path = some e ↔
      IsOverlong mishaps tree path ∧ e = .onPath .nameTooLong (Path.plain path) := by
  have hmem : mishaps.unwritable.contains path = true ↔ path ∈ mishaps.unwritable :=
    List.contains_iff_mem
  rw [fault?]
  by_cases hu : path ∈ mishaps.unwritable
  · rw [if_pos (hmem.2 hu)]
    constructor
    · intro h
      cases h
    · rintro ⟨h, _⟩
      exact absurd hu h.asked
  · rw [if_neg (fun h => hu (hmem.1 h))]
    constructor
    · intro h
      split at h
      · cases h
      · next e' he =>
        cases h
        obtain ⟨hc, hl, rfl⟩ := isOpenableFile_eq_error_iff.1 he
        exact ⟨⟨hu, hc, hl⟩, rfl⟩
    · rintro ⟨h, rfl⟩
      rw [isOpenableFile_eq_error_iff.2 ⟨h.clean, h.long, rfl⟩]

theorem fault?_eq_none_iff : fault? mishaps tree path = none ↔ ¬IsOverlong mishaps tree path := by
  constructor
  · intro h hover
    rw [fault?_eq_some_iff.2 ⟨hover, rfl⟩] at h
    cases h
  · intro h
    cases hf : fault? mishaps tree path with
    | none => rfl
    | some e => exact absurd (fault?_eq_some_iff.1 hf).1 h

variable {w : World}

/-- An overlong path ends the patching with the failure that the system reports for the first
one. -/
theorem files_fails (hs : w.tree.Sound) (trial : Bool) (module : Text) {paths : List Text}
    (h : ∃ path ∈ paths, IsOverlong w.mishaps w.tree path) :
    ∃ path ∈ paths, IsOverlong w.mishaps w.tree path ∧ ∃ v, (files trial module paths).run w =
      .error (.file (.system (.onPath .nameTooLong (Path.plain path)))) v := by
  have hrun := run_files hs trial module paths
  cases hf : (Text.sort paths).findSome? (fault? w.mishaps w.tree) with
  | none =>
    obtain ⟨path, hp, hover⟩ := h
    have hnone := List.findSome?_eq_none_iff.1 hf path (mem_sort.2 hp)
    exact absurd hover (fault?_eq_none_iff.1 hnone)
  | some e =>
    obtain ⟨before, path, rest, hpaths, he, _⟩ := List.findSome?_eq_some_iff.1 hf
    obtain ⟨hover, rfl⟩ := fault?_eq_some_iff.1 he
    rw [hf] at hrun
    refine ⟨path, mem_sort.1 ?_, hover, hrun⟩
    rw [hpaths]
    simp

/-- Patching files returns exactly if no path is overlong, and then with one result for every path,
in the order of the paths. Nothing else that happens to a file ends it: not that the file is missing
or no file, that it fails to be read, that its bytes are no text, that the new text cannot be
written as bytes, or that writing fails at any point. -/
theorem files_returns_iff (hs : w.tree.Sound) (trial : Bool) (module : Text) (paths : List Text) :
    (∃ results v, (files trial module paths).run w = .ok results v ∧
        results.map (·.path) = Text.sort paths ∧ ∀ r ∈ results, r.module = module) ↔
      ∀ path ∈ paths, ¬IsOverlong w.mishaps w.tree path := by
  constructor
  · rintro ⟨results, v, hv, _⟩ path hp hover
    obtain ⟨_, _, _, u, hu⟩ := files_fails hs trial module ⟨path, hp, hover⟩
    rw [hv] at hu
    cases hu
  · intro h
    obtain ⟨results, v, hv⟩ := files_returns hs trial module fun path hp =>
      fault?_eq_none_iff.2 (h path hp)
    obtain ⟨_, hkeys, hmod, _⟩ := files_eq_ok hs hv
    exact ⟨results, v, hv, hkeys, hmod⟩

/-- A path that is short enough is patched, and a name of three hundred letters ends the
patching. -/
theorem files_returns_sample :
    (∃ results v, (files false "M" ["A.swift"]).run (.sample []) = .ok results v ∧
        results.map (·.path) = Text.sort ["A.swift"] ∧ ∀ r ∈ results, r.module = "M") ∧
      ¬∃ results v,
        (files false "M" ["A.swift", List.replicate 300 'a']).run (.sample []) = .ok results v ∧
        results.map (·.path) = Text.sort ["A.swift", List.replicate 300 'a'] ∧
          ∀ r ∈ results, r.module = "M" := by
  refine ⟨(files_returns_iff (FileTree.sound_sample []) false "M" _).2 ?_, ?_⟩
  · intro path hp hover
    rw [List.mem_singleton] at hp
    subst hp
    have hfound : (FileTree.sample []).lookUp (Path.plain "A.swift") =
        .ok (["A.swift"], .file 0) := by
      decide +kernel
    have hlong : (FileTree.sample []).lookUp (Path.plain "A.swift") = .error .nameTooLong :=
      hover.long
    rw [hfound] at hlong
    cases hlong
  · intro h
    apply (files_returns_iff (FileTree.sound_sample []) false "M" _).1 h
    · exact List.mem_cons_of_mem _ (List.mem_singleton_self _)
    · exact ⟨List.not_mem_nil, by decide +kernel, by decide +kernel⟩

end Patch

end ImportRepair
