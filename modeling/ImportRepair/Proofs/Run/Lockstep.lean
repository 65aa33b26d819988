import ImportRepair.Proofs.Patch.Lockstep

/-!
# Runs in lockstep

The user is asked for the same types in the same order, gives the same answers, and the same files
are patched for them, in two worlds side by side. So a run with a user ends alike in both if its log
and the files that are reported in it are no files in which the worlds differ.

Results:
* `Resolver.lockstep_resolve`: modules are found in lockstep.
* `Run.lockstep_handleTypes`, `Run.lockstep_collect`: types are handled and a log is read in
  lockstep.
* `Run.endAlike_execute`: runs end alike.
-/

namespace ImportRepair

variable {d : Sight} {v w w' : World}

/-! ## Questions -/

namespace Resolver

theorem lockstep_askOnce (type : Text) (n : Nat) : Lockstep d (askOnce type n) := by
  rw [askOnce]
  refine (lockstep_ask _).bind fun answer => ?_
  cases answer with
  | none => exact (lockstep_note ..).bind fun _ => lockstep_pure _
  | some answer =>
    simp only
    split
    · exact (lockstep_display _).bind fun _ => lockstep_pure _
    · exact (lockstep_note ..).bind fun _ => lockstep_pure _

theorem lockstep_askWithin (type : Text) (n retries : Nat) :
    Lockstep d (askWithin type n retries) := by
  induction retries with
  | zero =>
    rw [askWithin]
    refine (lockstep_askOnce type n).bind fun reply => ?_
    cases reply <;> exact lockstep_pure _
  | succ retries ih =>
    rw [askWithin]
    refine (lockstep_askOnce type n).bind fun reply => ?_
    cases reply with
    | module name => exact lockstep_pure _
    | endOfInput => exact lockstep_pure _
    | blank => exact ih

/-- As many answers are to come in worlds side by side, so the user is asked as often. -/
theorem lockstep_resolve (resolver : Resolver) (type : Text) (n : Nat) :
    Lockstep d (resolver.resolve type n) := by
  rw [resolve]
  induction resolver.mappings with
  | nil =>
    rw [resolveBy]
    split
    · refine lockstep_get (fun w => lockstep_askWithin type n _) fun w w' hw => ?_
      rw [hw.answers]
    · exact lockstep_throw _
  | cons mapping mappings ih =>
    rw [resolveBy]
    split
    · exact (lockstep_note ..).bind fun _ => lockstep_pure _
    · split
      · exact (lockstep_note ..).bind fun _ => lockstep_pure _
      · exact ih

end Resolver

namespace Run

variable {reader : Reader} {mappings : List Mapping} {trial : Bool} {log : Text}

/-! ## Types -/

theorem lockstep_handleTypes {types : List Text} {report : Report}
    (hm : ∀ type ∈ types, ∀ path ∈ report.index.pathsFor type, path ∈ d.paths) :
    Lockstep d ((asking reader mappings trial).handleTypes types report) := by
  induction types generalizing report with
  | nil => exact lockstep_pure _
  | cons type types ih =>
    rw [List.forall_mem_cons] at hm
    rw [handleTypes]
    refine (Resolver.lockstep_resolve ⟨mappings, true⟩ type _).bind fun answer => ?_
    cases answer with
    | none => exact lockstep_pure _
    | some module =>
      refine (Patch.lockstep_files hm.1 trial module).bind fun results => ?_
      exact (lockstep_forM (fun _ => lockstep_display _) results).bind fun _ => ih hm.2

theorem lockstep_repair {index : Index} (hm : ∀ r ∈ index.references, r.path ∈ d.paths) :
    Lockstep d ((asking reader mappings trial).repair index) := by
  rw [repair_eq]
  exact (lockstep_display _).bind fun _ => lockstep_handleTypes fun type _ path hpath =>
    hm _ (Index.mem_pathsFor.1 hpath)

/-! ## Logs -/

theorem lockstep_isReadable (log : Text) : Lockstep d (Files.isReadable log) := by
  refine (Files.isSilent_isOpenable log).lockstep fun {w w'} hw => ?_
  obtain ⟨bytes, ht⟩ := hw.tree
  rw [Files.run_isOpenable, Files.run_isOpenable, ht,
    ← FileTree.logged_withBytes.sameShape.isOpenableFile]
  cases w.tree.isOpenableFile log with
  | ok b => exact .returned rfl hw
  | error e => exact .failed hw

/-- A log that is opened at a place that matters is read in lockstep. -/
theorem lockstep_read (hm : log ∈ d.paths) {p : Place} (ho : d.base.opened? log = some p) :
    Lockstep d (reader.read log) := by
  have hlines : Lockstep d (Files.readLines log) := by
    refine (Files.isSilent_readLines log).lockstep fun {w w'} hw => ?_
    obtain ⟨bytes, ht⟩ := hw.tree
    have hread : w'.tree.readBytes log = w.tree.readBytes log := by
      rw [ht]
      exact hw.spares.readBytes hm ((hw.opened? log).trans ho) bytes
    rw [Files.run_readLines, Files.run_readLines, hread]
    cases w.tree.readBytes log with
    | ok bytes => exact .returned rfl hw
    | error e => exact .failed hw
  refine hlines.bind fun lines => ?_
  have hscan : Lockstep d (reader.scan lines) :=
    (lockstep_forM (fun _ => lockstep_note ..) _).bind fun _ => lockstep_pure _
  exact hscan.bind fun references => (lockstep_note ..).bind fun _ => lockstep_pure _

theorem lockstep_collect (run : Run) (hm : log ∈ d.paths) {p : Place}
    (ho : d.base.opened? log = some p) :
    Lockstep d (run.collect log) := by
  rw [collect_eq]
  exact (lockstep_display _).bind fun _ => (lockstep_read hm ho).finally (lockstep_display _)

/-! ## Executions -/

/-- Searching a log that can be opened ends alike, if the paths that are reported in it matter. -/
theorem endAlike_search (hw : w.Abreast d w') (hlog : log ∈ d.paths)
    (hm : ∀ r ∈ (reader.indexOf (atReading log w).tree log).references, r.path ∈ d.paths)
    (hopen : w.tree.isOpenableFile log = .ok true)
    (hd : w.Drawn (worldAfter (((asking reader mappings trial).search log).run w)))
    (hd' : w'.Drawn (worldAfter (((asking reader mappings trial).search log).run w'))) :
    EndAlike (World.Abreast d) Eq (((asking reader mappings trial).search log).run w)
      (((asking reader mappings trial).search log).run w') := by
  obtain ⟨p, ho⟩ := FileTree.opened?_of_isOpenableFile hopen
  rw [hw.opened?] at ho
  have hrepair : ∀ index, Shows ((asking reader mappings trial).repair index) :=
    fun index => (failsOnly_repair index).shows
  have hcollect := lockstep_collect (asking reader mappings trial) hlog ho
  rw [search] at hd hd' ⊢
  refine (lockstep_note ..).endAlike_bind (fun _ => hcollect.shows.bind hrepair) hw hd hd' ?_
  intro _ u u' hu hw hd hd'
  cases hu
  refine hcollect.endAlike_bind hrepair hw hd hd' fun index x x' hx hw hd hd' => ?_
  obtain ⟨rfl, _⟩ := eq_indexOf_of_collect hx
  exact (lockstep_repair hm).endAlike hw hd hd'

/-- Runs end alike in worlds side by side if the log and the paths that are
reported in it matter. -/
theorem endAlike_execute (hw : w.Abreast d w') (hlog : log ∈ d.paths)
    (hm : ∀ r ∈ (reader.indexOf (atReading log w).tree log).references, r.path ∈ d.paths)
    (hd : w.Drawn (worldAfter (((asking reader mappings trial).execute log).run w)))
    (hd' : w'.Drawn (worldAfter (((asking reader mappings trial).execute log).run w'))) :
    EndAlike (World.Abreast d) Eq (((asking reader mappings trial).execute log).run w)
      (((asking reader mappings trial).execute log).run w') := by
  have hshows : ∀ readable : Bool, Shows
      (if readable then (asking reader mappings trial).search log
        else throw (.logMissing log)) := by
    rintro (_ | _)
    · exact (lockstep_throw (d := d) _).shows
    · exact (failsOnly_search reader mappings trial log).shows
  rw [execute_eq_search] at hd hd' ⊢
  refine (lockstep_isReadable log).endAlike_bind hshows hw hd hd'
    fun readable u u' hu hw hd hd' => ?_
  rw [Files.isReadable, Files.run_isOpenable] at hu
  split at hu
  swap
  · cases hu
  next b hb =>
  cases hu
  cases readable with
  | false => exact .failed hw
  | true => exact endAlike_search hw hlog hm hb hd hd'

end Run

end ImportRepair
