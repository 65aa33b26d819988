import ImportRepair.Proofs.Patch.Agreement
import ImportRepair.Proofs.Reference.Listings
import ImportRepair.Proofs.Run.Execution

/-!
# Runs in twin worlds

Whoever gives the modules acts alike in twin worlds if nothing but the answers to come and the
console counts; a chain of mappings and questions does. Then the types that two indexes list with
the same paths are handled alike.

Results:
* `Resolver.actsAlike`: a resolver acts alike in twin worlds.
* `Run.agree_handleTypes`, `Run.agree_repair`: types are handled alike.
-/

namespace ImportRepair

variable {d : Pairing}

/-! ## Advisers -/

/-- In twin worlds the module of a type is given alike. -/
def Adviser.ActsAlike (adviser : Adviser) (type : Text) : Prop :=
  ∀ d n, Agree d Eq (adviser type n) (adviser type n)

namespace Resolver

theorem agree_askOnce (type : Text) (n : Nat) : Agree d Eq (askOnce type n) (askOnce type n) := by
  refine (agree_ask _).bind_eq fun answer => ?_
  cases answer with
  | none => exact (agree_note ..).bind_eq fun _ => agree_pure rfl
  | some answer =>
    simp only
    split
    · exact (agree_display _).bind_eq fun _ => agree_pure rfl
    · exact (agree_note ..).bind_eq fun _ => agree_pure rfl

theorem agree_askWithin (type : Text) (n retries : Nat) :
    Agree d Eq (askWithin type n retries) (askWithin type n retries) := by
  induction retries with
  | zero =>
    refine (agree_askOnce type n).bind_eq fun reply => ?_
    cases reply <;> exact agree_pure rfl
  | succ retries ih =>
    refine (agree_askOnce type n).bind_eq fun reply => ?_
    cases reply with
    | module name => exact agree_pure rfl
    | endOfInput => exact agree_pure rfl
    | blank => exact ih

/-- A resolver acts alike in twin worlds. -/
theorem actsAlike (resolver : Resolver) (type : Text) :
    Adviser.ActsAlike resolver.resolve type := by
  intro d n
  show Agree d Eq (resolveBy resolver.interactive type n resolver.mappings)
    (resolveBy resolver.interactive type n resolver.mappings)
  induction resolver.mappings with
  | nil =>
    rw [resolveBy]
    split
    · refine agree_get fun w w' ht => ?_
      rw [ht.answers]
      exact (agree_askWithin type n _).sameEnd ht
    · exact agree_throw _
  | cons mapping rest ih =>
    rw [resolveBy]
    split
    · exact (agree_note ..).bind_eq fun _ => agree_pure rfl
    · split
      · exact (agree_note ..).bind_eq fun _ => agree_pure rfl
      · exact ih

end Resolver

/-! ## Reports -/

/-- Two reports on given indexes that say the same about their types. -/
structure Report.Alike (index index' : Index) (report report' : Report) : Prop where
  index : report.index = index
  index' : report'.index = index'
  modules : report'.modules = report.modules
  results : report'.results = report.results

theorem Report.Alike.add {index index' : Index} {report report' : Report}
    (h : Alike index index' report report') (type module : Text) (results : List Patch.Result) :
    Alike index index' (report.add type module results) (report'.add type module results) := by
  refine ⟨h.index, h.index', ?_, ?_⟩
  · rw [Report.add, Report.add, h.modules]
  · rw [Report.add, Report.add, h.results]

/-- Two runs have come to the same end, with reports that say the same. -/
inductive Outcome.Alike (index index' : Index) : Outcome → Outcome → Prop
  | finished {report report'} : Report.Alike index index' report report' →
      Alike index index' (.finished report) (.finished report')
  | inputEnded {type report report'} : Report.Alike index index' report report' →
      Alike index index' (.inputEnded type report) (.inputEnded type report')

/-! ## Handling types -/

namespace Run

variable {run : Run} {index index' : Index} {types : List Text}

/-- Types that two indexes list with the same paths are handled alike. -/
theorem agree_handleTypes {report report' : Report}
    (ha : ∀ type ∈ types, run.resolver.ActsAlike type)
    (hp : ∀ type ∈ types, index'.pathsFor type = index.pathsFor type)
    (hm : ∀ type ∈ types, ∀ path ∈ index.pathsFor type, path ∈ d.paths)
    (hr : Report.Alike index index' report report') :
    Agree d (Outcome.Alike index index') (run.handleTypes types report)
      (run.handleTypes types report') := by
  induction types generalizing report report' with
  | nil => exact agree_pure (.finished hr)
  | cons type types ih =>
    rw [List.forall_mem_cons] at ha hp hm
    rw [handleTypes, handleTypes, hr.index, hr.index', hp.1]
    refine (ha.1 d _).bind_eq fun answer => ?_
    cases answer with
    | none => exact agree_pure (.inputEnded hr)
    | some module =>
      refine (Patch.agree_files hm.1 run.trial module).bind_eq fun results => ?_
      exact (agree_forM fun r _ => agree_display _).bind_eq fun _ => ih ha.2 hp.2 hm.2 (hr.add ..)

/-- What follows the reading of a log depends on the references alone. -/
theorem agree_repair (hsame : ∀ r, r ∈ index'.references ↔ r ∈ index.references)
    (ha : ∀ type ∈ index.types, run.resolver.ActsAlike type)
    (hm : ∀ r ∈ index.references, r.path ∈ d.paths) :
    Agree d (Outcome.Alike index index') (run.repair index) (run.repair index') := by
  have htypes : index'.types = index.types := Index.types_congr hsame
  have hempty : index'.isEmpty = index.isEmpty := by
    rw [Bool.eq_iff_iff, Index.isEmpty_iff_types, Index.isEmpty_iff_types, htypes]
  have hsays : announcement index' = announcement index := by
    rw [announcement, announcement, hempty, Index.size_congr hsame, htypes]
  rw [repair_eq, repair_eq, hsays, htypes]
  refine (agree_display _).bind_eq fun _ => agree_handleTypes ha ?_ ?_ ⟨rfl, rfl, rfl, rfl⟩
  · exact fun type _ => Index.pathsFor_congr fun path => hsame _
  · exact fun type _ path hpath => hm _ (Index.mem_pathsFor.1 hpath)

end Run

end ImportRepair
