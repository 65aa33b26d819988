import ImportRepair.Patch.Result
import ImportRepair.Reference.Index

/-!
# Reports

What a run found, the module of each type that was handled, and the outcome for each of its files.
-/

namespace ImportRepair

/-- The report of a run. Modules and outcomes are kept in the order in which they came. -/
structure Report where
  index : Index
  modules : List (Text × Text)
  results : List (Text × List Patch.Result)

namespace Report

/-- The report of a run that has handled no type. -/
def start (index : Index) : Report := ⟨index, [], []⟩

/-- The report with the module and the outcomes of a type. -/
def add (report : Report) (type module : Text) (results : List Patch.Result) : Report :=
  { report with
    modules := report.modules ++ [(type, module)]
    results := report.results ++ [(type, results)] }

/-- The outcomes of a type. -/
def resultsOf (report : Report) (type : Text) : List Patch.Result :=
  (report.results.lookup type).getD []

/-- The types with outcomes, in code-point order. -/
def types (report : Report) : List Text := Text.sortDistinct (report.results.map (·.1))

/-- All outcomes, with the types in code-point order. -/
def allResults (report : Report) : List Patch.Result := report.types.flatMap report.resultsOf

/-- The outcomes of one status. -/
def resultsWith (report : Report) (status : Patch.Status) : List Patch.Result :=
  report.allResults.filter (·.status = status)

/-- Whether any outcome is a failure. -/
def hasFailures (report : Report) : Bool := report.allResults.any (·.status.isFailure)

end Report

end ImportRepair
