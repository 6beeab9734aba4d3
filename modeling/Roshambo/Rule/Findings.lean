import Roshambo.Rule.Diagnostic

/-!
# Findings

The problems of a rule that show without playing it: no tags at all, no timing tag, tags that were
not understood, and score multipliers below one.
-/
namespace Roshambo

/-- A score multiplier below one is refused in the words of its authored form. -/
def factorProblem (factor : Int64) : TagProblem :=
  .invalidParameter "FinalScoreMultiplier" "intValue" (toString factor.toInt)

/-- The problem of one tag, if it has one. -/
def Tag.diagnostic? (rule : String) : Tag → Option Diagnostic
  | .invalid tag => some (.ofInvalid rule tag)
  | .effect ⟨.finalScoreMultiplier factor, _⟩ =>
    if factor < 1 then some ⟨rule, some .effect, .tag (factorProblem factor)⟩ else none
  | _ => none

def Tag.isTiming : Tag → Bool
  | .timing _ => true
  | _ => false

/-- All problems in the order of the tags, a missing timing tag first. -/
def Rule.findings (rule : Rule) : List Diagnostic :=
  if rule.tags.isEmpty then [⟨rule.name, none, .noTags⟩]
  else
    (if rule.tags.any Tag.isTiming then [] else [⟨rule.name, some .timing, .noTiming⟩]) ++
      rule.tags.filterMap (·.diagnostic? rule.name)

end Roshambo
