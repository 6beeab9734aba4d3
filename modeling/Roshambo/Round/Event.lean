import Roshambo.Rule.Tag

/-!
# Events

The log of a game, one entry for everything that changes what a player could see. An entry
carries enough to follow the active rules, the plan, the hands, the score and the state of the
round without looking at the game itself.
-/
namespace Roshambo

inductive Event where
  | ruleToggled (name : String) (enabled : Bool)
  | rulesCleared
  | roundStarted (player opponent : CardCounts) (turns rerolls : UInt32)
  | handRerolled (player : CardCounts) (rerollsLeft : UInt32)
  | ruleFired (phase : Phase) (name : String)
  | turnsAdjusted (delta : Int64) (planned : UInt32) (again : Bool)
  | handMutated (rule : String) (side : Side) (choice : Option Choice) (count : UInt32)
      (again : Bool)
  | cardRevealed (rule : String) (card : Choice)
  | frontDrawSet (rule : String)
  | infoShown (text : String)
  | turnResolved (turn : UInt32) (player opponent : Choice) (outcome : Outcome)
      (delta total : Int64)
  | roundFinished (total adjustment : Int64) (turnsPlayed turnsPlanned : UInt32)
  deriving DecidableEq

end Roshambo
