import ImportRepair.Proofs.Lockstep
import ImportRepair.Proofs.Patch.Silence

/-!
# Patching in lockstep

The files of the paths that matter hold the same in worlds side by side, so patching
such a file gives the same result in both and leaves them side by side, whatever
consoles and journals there are.

Results:
* `Files.lockstep_readText`, `Files.lockstep_replace`: files are read and replaced in lockstep.
* `Patch.lockstep_file`, `Patch.lockstep_files`: files are patched in lockstep.
-/

namespace ImportRepair

variable {d : Sight} {path : Text} {p : Place}

/-! ## Files -/

namespace Files

theorem lockstep_readText (hm : path ∈ d.paths) (ho : d.base.opened? path = some p) :
    Lockstep d (readText path) := by
  refine (isSilent_readText path).lockstep fun {w w'} hw => ?_
  obtain ⟨bytes, ht⟩ := hw.tree
  have hread : w'.tree.readBytes path = w.tree.readBytes path := by
    rw [ht]
    exact hw.spares.readBytes hm ((hw.opened? path).trans ho) bytes
  rw [readText, EStateM.run_bind, EStateM.run_get, EStateM.run_bind, EStateM.run_get]
  simp only [hw.mishaps, hread]
  cases w.mishaps.unreadable.lookup path with
  | some reason => exact .failed hw
  | none =>
    cases w.tree.readBytes path >>= textOf with
    | ok text => exact .returned rfl hw
    | error e =>
      have hfail :=
        (lockstep_note .error .files ("Error reading file " ++ path ++ ": " ++ e.message)).bind
        fun _ => lockstep_throw (α := Text) (d := d) (.file e)
      exact (isSilent_fail ..).endAlike hfail hw

/-- Replacing a file moves nothing. -/
theorem spares_of_replace {w : World} (hw : w.tree.Spares d) (hm : path ∈ d.paths)
    (ho : d.base.opened? path = some p) (data : List UInt8) :
    (worldAfter ((replace path data).run w)).tree.Spares d := by
  have hopen := (hw.descends.opened? path).trans ho
  have hrun := run_replace hw.twin.sound hopen data
  cases hobstacle : w.tree.obstacle? w.mishaps path p with
  | none =>
    rw [hobstacle] at hrun
    obtain ⟨v, hv, hk⟩ := hrun
    rw [hv]
    exact (hw.rewritten hm hopen w.mishaps.noTemporary data).of_logged hk.tree
  | some e =>
    rw [hobstacle] at hrun
    obtain ⟨v, hv, hk⟩ := hrun
    rw [hv]
    exact hw.of_logged hk.tree

theorem lockstep_replace (hm : path ∈ d.paths) (ho : d.base.opened? path = some p)
    (data : List UInt8) :
    Lockstep d (replace path data) :=
  (echoes_replace path data).lockstep (isSilent_replace path data) fun _ hw =>
    spares_of_replace hw hm ho data

end Files

/-! ## Patching -/

namespace Patch

theorem lockstep_leave (severity : Severity) (path module : Text) (status : Status)
    (message : Text) :
    Lockstep d (leave severity path module status message) :=
  (lockstep_note ..).bind fun _ => lockstep_pure _

theorem lockstep_writeBack (hm : path ∈ d.paths) (ho : d.base.opened? path = some p) (trial : Bool)
    (module text : Text) : Lockstep d (writeBack trial path module text) := by
  rw [writeBack]
  split
  · exact lockstep_leave ..
  · split
    · exact (lockstep_note ..).bind fun _ => lockstep_pure _
    · refine ((Files.lockstep_replace hm ho _).attempt _).bind fun result => ?_
      cases result with
      | error e => exact lockstep_leave ..
      | ok u => exact (lockstep_note ..).bind fun _ => lockstep_pure _

theorem lockstep_amend (hm : path ∈ d.paths) (ho : d.base.opened? path = some p) (trial : Bool)
    (module text : Text) : Lockstep d (amend trial module path text) := by
  rw [amend]
  split
  · exact (lockstep_note ..).bind fun _ => lockstep_pure _
  · split
    · exact lockstep_leave ..
    · exact lockstep_writeBack hm ho ..

/-- A file at one of the paths is patched in lockstep. -/
theorem lockstep_file (hm : path ∈ d.paths) (trial : Bool) (module : Text) :
    Lockstep d (file trial module path) := by
  have hleave : Lockstep d (leave .warning path module .unwritable
      ("Failed to open file for writing. Skipping: " ++ path)) := lockstep_leave ..
  refine (isAbout_file trial module path).lockstep fun {w w'} hw => ?_
  have hopenable : w'.tree.isOpenableFile path = w.tree.isOpenableFile path := by
    obtain ⟨bytes, ht⟩ := hw.tree
    rw [ht, ← FileTree.logged_withBytes.sameShape.isOpenableFile]
  rw [file]
  cases hc : w.mishaps.unwritable.contains path with
  | true =>
    have hc' : w'.mishaps.unwritable.contains path = true := by rw [hw.mishaps, hc]
    rw [run_bind_of_ok (Files.run_isWritable_refused hc),
      run_bind_of_ok (Files.run_isWritable_refused hc')]
    exact (isAbout_leave ..).endAlike hleave hw
  | false =>
    have hc' : w'.mishaps.unwritable.contains path = false := by rw [hw.mishaps, hc]
    have hwritable := Files.run_isWritable hc
    have hwritable' := Files.run_isWritable hc'
    rw [hopenable] at hwritable'
    cases hopen : w.tree.isOpenableFile path with
    | error e =>
      rw [hopen] at hwritable hwritable'
      rw [run_bind_of_error hwritable, run_bind_of_error hwritable']
      exact .failed hw
    | ok writable =>
      rw [hopen] at hwritable hwritable'
      rw [run_bind_of_ok hwritable, run_bind_of_ok hwritable']
      cases writable with
      | false => exact (isAbout_leave ..).endAlike hleave hw
      | true =>
        obtain ⟨p, ho⟩ := FileTree.opened?_of_isOpenableFile hopen
        rw [hw.opened?] at ho
        refine ((isSilent_attempt isOutcome (Files.isSilent_readText path)).bind ?_).endAlike
          (((Files.lockstep_readText hm ho).attempt _).bind ?_) hw
        · rintro (e | text)
          · exact (isAbout_leave ..).toIsSilent
          · exact (isAbout_amend ..).toIsSilent
        · rintro (e | text)
          · exact lockstep_leave ..
          · exact lockstep_amend hm ho ..

/-- Files at some of the paths are patched in lockstep. -/
theorem lockstep_files {paths : List Text} (hm : ∀ path ∈ paths, path ∈ d.paths) (trial : Bool)
    (module : Text) : Lockstep d (files trial module paths) :=
  lockstep_mapM fun path hp => lockstep_file (hm path (mem_sort.1 hp)) trial module

end Patch

end ImportRepair
