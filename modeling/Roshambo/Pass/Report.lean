import Roshambo.Rule.Diagnostic

/-!
# Pass reports

What one pass produced.
-/
namespace Roshambo

structure PassReport where
  phase : Phase
  delta : Int64 := 0
  /-- The names of the rules that fired, in the order of evaluation. -/
  fired : List String := []
  info : Option String := none
  diagnostics : List Diagnostic := []
  deriving DecidableEq

def PassReport.hasFired (report : PassReport) (name : String) : Bool :=
  report.fired.contains name

end Roshambo
