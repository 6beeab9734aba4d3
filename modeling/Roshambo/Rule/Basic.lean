import Roshambo.Rule.Tag

/-!
# Rules

A rule is a named list of tags with some description for the player. It fires in the phases that
its timing tags name.
-/
namespace Roshambo

/-- The part a rule plays in a player's plan. -/
inductive Archetype where
  | anchor
  | payoff
  | catalyst
  | utility
  deriving DecidableEq

namespace Archetype

def name : Archetype → String
  | anchor => "Anchor"
  | payoff => "Payoff"
  | catalyst => "Catalyst"
  | utility => "Utility"

def keywords : List (String × Archetype) :=
  [("anchor", anchor), ("payoff", payoff), ("catalyst", catalyst), ("utility", utility)]

def ofKeyword? (s : String) : Option Archetype := Text.lookupKeyword keywords s

end Archetype

structure Rule where
  name : String
  description : String := ""
  archetypes : List Archetype := []
  weight : UInt32 := 1
  tags : List Tag
  deriving DecidableEq

/-- Some timing tag names the phase. -/
def Rule.firesIn (rule : Rule) (phase : Phase) : Bool :=
  rule.tags.contains (.timing phase)

theorem Rule.firesIn_iff (rule : Rule) (phase : Phase) :
    rule.firesIn phase = true ↔ Tag.timing phase ∈ rule.tags := by
  simp [Rule.firesIn]

end Roshambo
