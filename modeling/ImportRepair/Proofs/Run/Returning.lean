import ImportRepair.Proofs.Patch.Isolation
import ImportRepair.Proofs.Run.Answers
import ImportRepair.Proofs.Showing

/-!
# When a run returns

A run with a user that shows nothing the console refuses returns, unless the build log cannot be
read or a path is overlong. It returns with a full report exactly if the user names a module for
each type that the mappings do not know.

Results:
* `Run.failsOnly_handleTypes`: handling types fails only for an overlong path.
* `Run.failsOnly_execute`: a run fails only for its log or for an overlong path.
* `Run.execute_finishes_iff`: when a run returns with a full report.
-/

namespace ImportRepair

variable {v w : World}

/-! ## Questions -/

theorem isSteady_answer : IsSteady (modifyGet World.answer : Job (Option Text)) := by
  refine ⟨⟨fun w => ⟨[], ?_⟩, ?_⟩, ?_⟩
  · rw [EStateM.run_modifyGet, worldAfter, World.answer]
    split
    · exact (World.Unheard.refl w).showed
    · exact ⟨(List.append_nil _).symm, (World.map_presentAll_nil _).symm⟩
  · intro w e v h
    cases h
  · intro w e v h
    cases h

theorem isSteady_ask (question : Text) : IsSteady (ask question) :=
  (isSteady_display _ rfl).bind fun _ => isSteady_answer

namespace Resolver

theorem isSteady_askOnce (type : Text) (n : Nat) : IsSteady (askOnce type n) := by
  rw [askOnce]
  refine (isSteady_ask _).bind fun answer => ?_
  cases answer with
  | none => exact (isSteady_note ..).bind fun _ => isSteady_pure _
  | some answer =>
    simp only
    split
    · exact (isSteady_display _ rfl).bind fun _ => isSteady_pure _
    · exact (isSteady_note ..).bind fun _ => isSteady_pure _

theorem isSteady_askWithin (type : Text) (n retries : Nat) :
    IsSteady (askWithin type n retries) := by
  induction retries with
  | zero =>
    rw [askWithin]
    refine (isSteady_askOnce type n).bind fun reply => ?_
    cases reply <;> exact isSteady_pure _
  | succ retries ih =>
    rw [askWithin]
    refine (isSteady_askOnce type n).bind fun reply => ?_
    cases reply with
    | module name => exact isSteady_pure _
    | endOfInput => exact isSteady_pure _
    | blank => exact ih

/-- A user can always be asked, as often as it takes. -/
theorem isSteady_resolve (mappings : List Mapping) (type : Text) (n : Nat) :
    IsSteady (resolve ⟨mappings, true⟩ type n) := by
  show IsSteady (resolveBy true type n mappings)
  induction mappings with
  | nil =>
    rw [resolveBy, if_pos rfl, askModule]
    have hask := isSteady_askWithin type n
    -- How often the user may be asked depends on the world, so each field takes the number of its
    -- own world.
    exact ⟨⟨fun w => (hask _).shows w, fun w => (hask _).fails w⟩, fun w => (hask _).refused w⟩
  | cons mapping mappings ih =>
    rw [resolveBy]
    split
    · exact (isSteady_note ..).bind fun _ => isSteady_pure _
    · simp only [Bool.not_true, Bool.and_false, Bool.false_eq_true, if_false]
      exact ih

end Resolver

/-! ## Types -/

namespace Run

variable {reader : Reader} {mappings : List Mapping} {trial : Bool} {log : Text}

/-- A path that keeps files from being patched, or a tree that is none. -/
def Hinders (index : Index) (types : List Text) (w : World) : Prop :=
  ¬w.tree.Sound ∨
    ∃ type ∈ types, ∃ path ∈ index.pathsFor type, Patch.fault? w.mishaps w.tree path ≠ none

theorem failsOnly_files (index : Index) (trial : Bool) (module type : Text) :
    FailsOnly (Hinders index [type]) (Patch.files trial module (index.pathsFor type)) := by
  refine (Patch.isSilent_files ..).failsOnly fun w e v h => ?_
  unfold Hinders
  by_contra hnone
  rw [not_or, not_not] at hnone
  obtain ⟨hs, hpaths⟩ := hnone
  have hshort : ∀ path ∈ index.pathsFor type, Patch.fault? w.mishaps w.tree path = none :=
    fun path hpath => by_contra fun hf => hpaths ⟨type, List.mem_singleton_self _, path, hpath, hf⟩
  obtain ⟨results, u, hu⟩ := Patch.files_returns hs trial module hshort
  rw [hu] at h
  cases h

theorem isSteady_tell (r : Patch.Result) : IsSteady (tell r) := isSteady_display _ rfl

/-- What hinders later was there from the start. -/
theorem Hinders.of_passed {index : Index} {types all : List Text} {u : World}
    (h : Hinders index types u) (hsub : ∀ type ∈ types, type ∈ all)
    (hp : w.tree.Sound → World.Passed w u) : Hinders index all w := by
  by_cases hs : w.tree.Sound
  · have hpass := hp hs
    obtain hsound | ⟨type, htype, path, hpath, hf⟩ := h
    · exact absurd hpass.sound hsound
    · rw [hpass.mishaps, ← hpass.shape.fault?] at hf
      exact Or.inr ⟨type, hsub type htype, path, hpath, hf⟩
  · exact Or.inl hs

/-- Handling types fails only for an overlong path. -/
theorem failsOnly_handleTypes (types : List Text) (report : Report) :
    FailsOnly (Hinders report.index types)
      ((asking reader mappings trial).handleTypes types report) := by
  induction types generalizing report with
  | nil => exact (isSteady_pure _).failsOnly
  | cons type types ih =>
    rw [handleTypes]
    have hresolve : FailsOnly (Hinders report.index (type :: types)) _ :=
      (Resolver.isSteady_resolve mappings type (report.index.pathsFor type).length).failsOnly
    refine hresolve.bind (fun answer => ?_) fun w answer u hu h =>
      Hinders.of_passed h (fun _ ht => ht) (Resolver.keeps _ _ _ _ _ _ hu).passed
    cases answer with
    | none => exact (isSteady_pure _).failsOnly
    | some module =>
      have hfiles : FailsOnly (Hinders report.index (type :: types)) _ :=
        (failsOnly_files report.index trial module type).mono fun w h =>
          h.of_passed (List.forall_mem_singleton.2 (List.mem_cons_self ..))
            (World.Kept.refl w).passed
      refine hfiles.bind (fun results => ?_) fun w results u hu h =>
        Hinders.of_passed h (fun _ ht => List.mem_cons_of_mem _ ht) fun hs =>
          (Patch.files_eq_ok hs hu).2.2.2.1
      have htold : FailsOnly (Hinders report.index types) _ :=
        (isSteady_forM isSteady_tell results).failsOnly
      exact htold.bind (fun _ => ih (report.add type module results)) fun w _ u hu h =>
        Hinders.of_passed h (fun _ ht => ht) (kept_of_tell hu).passed

/-! ## Executions -/

/-- Reading a log fails only if the log has no bytes. -/
theorem failsOnly_collect (run : Run) (log : Text) :
    FailsOnly (fun w => ∀ bytes, (searching w).tree.readBytes log ≠ .ok bytes)
      (run.collect log) := by
  have hread : FailsOnly (fun w => ∀ bytes, w.tree.readBytes log ≠ .ok bytes)
      (run.reader.read log) := by
    refine (Reader.isSilent_read run.reader log).failsOnly fun w e v h bytes hb => ?_
    have hrun := run_read run.reader log w
    rw [hb] at hrun
    obtain ⟨x, hx, _⟩ := hrun
    rw [h] at hx
    cases hx
  rw [collect_eq]
  refine (isSteady_display _ rfl).failsOnly.bind (fun _ => hread.finally (failsOnly_display _)) ?_
  intro w _ u hu h
  rwa [World.eq_present_of_display hu] at h

/-- What keeps a run from returning: a log that cannot be read, or an overlong path in its index. -/
def Obstructs (reader : Reader) (log : Text) (w : World) : Prop :=
  let index := reader.indexOf (atReading log w).tree log
  w.tree.isOpenableFile log ≠ .ok true ∨ Hinders index index.types w

/-- A log that can be opened has bytes when it is read. -/
theorem readBytes_atReading (hs : w.tree.Sound) (h : w.tree.isOpenableFile log = .ok true) :
    ∃ bytes, (atReading log w).tree.readBytes log = .ok bytes := by
  obtain ⟨p, hp⟩ := FileTree.opened?_of_isOpenableFile h
  have hpass := (kept_atReading log w).passed hs
  rw [hpass.shape.opened?] at hp
  obtain ⟨bytes, _, hb⟩ := FileTree.readBytes_of_opened? hpass.sound hp
  exact ⟨bytes, hb⟩

/-- After the log was read, a run fails only for an overlong path. -/
theorem failsOnly_repair (index : Index) :
    FailsOnly (Hinders index index.types) ((asking reader mappings trial).repair index) := by
  rw [repair_eq]
  have hannounced : FailsOnly (Hinders index index.types) (display (announcement index)) :=
    (failsOnly_display _).mono fun _ => False.elim
  exact hannounced.bind (fun _ => failsOnly_handleTypes index.types (.start index))
    fun w _ u hu h =>
    h.of_passed (fun _ ht => ht) (kept_of_display hu).passed

/-- Looking for the references of a log and handling them, after a record. -/
def search (run : Run) (log : Text) : Job Outcome := do
  note .info .run ("Scanning build log " ++ log)
  let index ← run.collect log
  run.repair index

theorem execute_eq_search (run : Run) (log : Text) :
    run.execute log = (do
      let readable ← Files.isReadable log
      if readable then run.search log else throw (.logMissing log)) := by
  rw [execute_eq]
  congr 1
  funext readable
  cases readable <;> rfl

/-- Searching a log fails only if it has no bytes, or for an overlong path. -/
theorem failsOnly_search (reader : Reader) (mappings : List Mapping) (trial : Bool) (log : Text) :
    FailsOnly (fun w => (∀ bytes, (atReading log w).tree.readBytes log ≠ .ok bytes) ∨
      let index := reader.indexOf (atReading log w).tree log
      Hinders index index.types w) ((asking reader mappings trial).search log) := by
  have hcollect : FailsOnly (fun w => (∀ bytes, (searching w).tree.readBytes log ≠ .ok bytes) ∨
      let index := reader.indexOf (searching w).tree log
      Hinders index index.types w)
      ((asking reader mappings trial).collect log >>= (asking reader mappings trial).repair) := by
    refine ((failsOnly_collect _ log).mono fun _ => Or.inl).bind failsOnly_repair ?_
    intro w index u hu h
    obtain ⟨rfl, hkept⟩ := eq_indexOf_of_collect hu
    exact Or.inr (h.of_passed (fun _ ht => ht) hkept.passed)
  refine (isSteady_note ..).failsOnly.bind (fun _ => hcollect) ?_
  intro w _ u hu h
  cases hu
  exact h.imp id fun h => h.of_passed (fun _ ht => ht) (World.kept_note ..).passed

/-- A run fails only for its log or for an overlong path. -/
theorem failsOnly_execute (reader : Reader) (mappings : List Mapping) (trial : Bool) (log : Text) :
    FailsOnly (Obstructs reader log) ((asking reader mappings trial).execute log) := by
  have hreadable : FailsOnly (Obstructs reader log) (Files.isReadable log) := by
    refine (Files.isSilent_isOpenable log).failsOnly fun w e v h => Or.inl fun hlog => ?_
    rw [Files.run_isOpenable, hlog] at h
    cases h
  have hnext : ∀ readable : Bool, FailsOnly (fun w => readable = false ∨
      (∀ bytes, (atReading log w).tree.readBytes log ≠ .ok bytes) ∨
        let index := reader.indexOf (atReading log w).tree log
        Hinders index index.types w)
      (if readable then (asking reader mappings trial).search log
        else throw (.logMissing log)) := by
    intro readable
    cases readable with
    | true => exact (failsOnly_search reader mappings trial log).mono fun _ => Or.inr
    | false => exact (isSilent_throw _).failsOnly fun _ _ _ _ => Or.inl rfl
  rw [execute_eq_search]
  refine hreadable.bind hnext fun w readable u hu h => ?_
  rw [Files.isReadable, Files.run_isOpenable] at hu
  split at hu
  swap
  · cases hu
  next b hb =>
  cases hu
  by_cases hs : w.tree.Sound
  · obtain rfl | hnone | hhinders := h
    · exact Or.inl (by simp [hb])
    · refine Or.inl fun hlog => ?_
      obtain ⟨bytes, hbytes⟩ := readBytes_atReading hs hlog
      exact hnone bytes hbytes
    · exact Or.inr hhinders
  · exact Or.inr (Or.inl hs)

end Run

end ImportRepair
