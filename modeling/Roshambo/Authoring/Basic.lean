/-!
# Authored rules

Rules as authors write them: flat records in which every field may be left out, and in which kinds
and parameters are plain text, so that a name nobody knows survives reading.
-/
namespace Roshambo

structure AuthoredTag where
  category : Option String := none
  timingType : Option String := none
  conditionType : Option String := none
  effectType : Option String := none
  outcomeParam : Option String := none
  choiceParam : Option String := none
  intValue : Option Int64 := none
  stringValue : Option String := none
  filterByOutcome : Bool := false
  filterByChoice : Bool := false
  deriving DecidableEq

structure AuthoredRule where
  name : String := ""
  description : String := ""
  archetypes : List String := []
  weight : Option UInt32 := none
  tags : List AuthoredTag := []
  deriving DecidableEq

end Roshambo
