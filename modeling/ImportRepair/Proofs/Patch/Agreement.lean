import ImportRepair.Proofs.Patch.Trail
import ImportRepair.Proofs.Twins

/-!
# Patching in twin worlds

Twin worlds hold the same in the files that matter, so patching such a file gives the same result in
both, down to the message that tells it, and leaves twin worlds.

Results:
* `agree_replace`: a file is replaced in both worlds or in none.
* `agree_file`, `agree_files`: patching gives the same results.
-/

namespace ImportRepair

variable {d : Pairing} {path : Text}

/-! ## Files -/

namespace Files

/-- A path can be written in both worlds or in none, and then it opens a file. -/
theorem agree_isWritable (path : Text) :
    Agree d (fun b b' => b' = b ∧ (b = true → ∃ p, d.base.opened? path = some p))
      (isWritable path) (isWritable path) := by
  refine ⟨fun {w w'} ht => ?_⟩
  cases hc : w.mishaps.unwritable.contains path with
  | true =>
    have hc' : w'.mishaps.unwritable.contains path = true := by rw [ht.mishaps, hc]
    rw [run_isWritable_refused hc, run_isWritable_refused hc']
    exact .returned ⟨rfl, nofun⟩ ht
  | false =>
    have hc' : w'.mishaps.unwritable.contains path = false := by rw [ht.mishaps, hc]
    rw [run_isWritable hc, run_isWritable hc', ← ht.tree.logged.sameShape.isOpenableFile]
    cases hopen : w.tree.isOpenableFile path with
    | error e => exact .failed ht
    | ok b =>
      refine .returned ⟨rfl, ?_⟩ ht
      rintro rfl
      rw [← ht.base.opened?]
      exact FileTree.opened?_of_isOpenableFile hopen

theorem agree_readText (hm : path ∈ d.paths) {p : Place} (ho : d.base.opened? path = some p) :
    Agree d Eq (readText path) (readText path) := by
  refine agree_get fun w w' ht => ?_
  have hread : w'.tree.readBytes path = w.tree.readBytes path :=
    ht.tree.readBytes hm ((ht.base.opened? path).trans ho)
  rw [ht.mishaps, hread]
  split
  · exact .failed ht
  · split
    · exact .returned rfl ht
    · exact ((agree_note ..).bind_eq fun _ => agree_throw _).sameEnd ht

/-- A file is replaced in both worlds, or in none for the same reason. -/
theorem agree_replace (hm : path ∈ d.paths) {p : Place} (ho : d.base.opened? path = some p)
    (data : List UInt8) : Agree d Eq (replace path data) (replace path data) := by
  refine ⟨fun {w w'} ht => ?_⟩
  have hopen : w.tree.opened? path = some p := (ht.base.opened? path).trans ho
  have hopen' : w'.tree.opened? path = some p := (ht.tree.opened? path).trans hopen
  have hsilent := isSilent_replace path data
  have hrun := run_replace ht.tree.sound hopen data
  have hrun' := run_replace (ht.tree.logged.sound ht.tree.sound) hopen' data
  rw [ht.mishaps, ← ht.tree.logged.sameShape.obstacle?] at hrun'
  cases hobstacle : w.tree.obstacle? w.mishaps path p with
  | none =>
    rw [hobstacle] at hrun hrun'
    obtain ⟨v, hv, hk⟩ := hrun
    obtain ⟨v', hv', hk'⟩ := hrun'
    obtain ⟨_, c, hn, _⟩ := FileTree.settled_of_opened? ht.tree.sound hopen
    rw [hv, hv']
    exact .returned rfl (ht.of_unheard (ht.tree.rewritten hm hopen _ data)
      (ht.base.rewritten ht.tree.old hn data) hk (hsilent.of_ok hv) hk'
      (hsilent.of_ok hv'))
  | some e =>
    rw [hobstacle] at hrun hrun'
    obtain ⟨v, hv, hk⟩ := hrun
    obtain ⟨v', hv', hk'⟩ := hrun'
    rw [hv, hv']
    exact .failed
      (ht.of_unheard ht.tree ht.base hk (hsilent.of_error hv) hk' (hsilent.of_error hv'))

end Files

/-! ## Patching -/

namespace Patch

theorem agree_leave (severity : Severity) (path module : Text) (status : Status) (message : Text) :
    Agree d Eq (leave severity path module status message)
      (leave severity path module status message) :=
  (agree_note ..).bind_eq fun _ => agree_pure rfl

variable {p : Place}

theorem agree_writeBack (hm : path ∈ d.paths) (ho : d.base.opened? path = some p) (trial : Bool)
    (module text : Text) :
    Agree d Eq (writeBack trial path module text) (writeBack trial path module text) := by
  rw [writeBack]
  split
  · exact agree_leave ..
  · split
    · exact (agree_note ..).bind_eq fun _ => agree_pure rfl
    · refine ((Files.agree_replace hm ho _).attempt _).bind_eq fun result => ?_
      cases result with
      | error e => exact agree_leave ..
      | ok u => exact (agree_note ..).bind_eq fun _ => agree_pure rfl

theorem agree_amend (hm : path ∈ d.paths) (ho : d.base.opened? path = some p) (trial : Bool)
    (module text : Text) :
    Agree d Eq (amend trial module path text) (amend trial module path text) := by
  rw [amend]
  split
  · exact (agree_note ..).bind_eq fun _ => agree_pure rfl
  · split
    · exact agree_leave ..
    · exact agree_writeBack hm ho ..

/-- Patching a file gives the same result in twin worlds. -/
theorem agree_file (hm : path ∈ d.paths) (trial : Bool) (module : Text) :
    Agree d Eq (file trial module path) (file trial module path) := by
  rw [file]
  refine (Files.agree_isWritable path).bind fun writable writable' h => ?_
  obtain ⟨rfl, hopen⟩ := h
  cases writable' with
  | false => exact agree_leave ..
  | true =>
    obtain ⟨p, ho⟩ := hopen rfl
    refine ((Files.agree_readText hm ho).attempt _).bind_eq fun result => ?_
    cases result with
    | error e => exact agree_leave ..
    | ok text => exact agree_amend hm ho ..

/-- Patching files gives the same results in twin worlds. -/
theorem agree_files {paths : List Text} (hm : ∀ path ∈ paths, path ∈ d.paths) (trial : Bool)
    (module : Text) : Agree d Eq (files trial module paths) (files trial module paths) :=
  agree_mapM fun path hp => agree_file (hm path (mem_sort.1 hp)) trial module

end Patch

end ImportRepair
