import Roshambo.Number.Saturating

/-!
# Plan tally

The change of planned turns that round-prepare passes have asked for. The tally remembers what the
host has already granted, so that running the pass again asks only for the difference.
-/
namespace Roshambo

structure PlanTally where
  granted : Int64 := 0
  asked : Int64 := 0
  deriving DecidableEq

namespace PlanTally

/-- A new pass starts counting from zero. -/
def start (t : PlanTally) : PlanTally := { t with asked := 0 }

def add (t : PlanTally) (delta : Int64) : PlanTally :=
  { t with asked := Saturating.add t.asked delta }

/-- What the host has not granted yet. -/
def due (t : PlanTally) : Int64 := Saturating.sub t.asked t.granted

/-- Everything asked for counts as granted. -/
def settle (t : PlanTally) : PlanTally := { t with granted := t.asked }

theorem due_settle (t : PlanTally) : t.settle.due = 0 := by
  apply Int64.toInt_inj.1
  show (Saturating.sub t.asked t.asked).toInt = _
  rw [Saturating.toInt_sub, Int.sub_self]
  decide

end PlanTally

end Roshambo
