import Roshambo.Card
import Roshambo.Rule.Kind

/-!
# Tags

A rule is a list of tags. A timing tag names a phase, a condition tag must hold for the rule to
fire, an effect tag acts when it does. A tag that could not be understood stays in its place with
the reason, so that a rule keeps its shape.
-/
namespace Roshambo

inductive Condition where
  | outcomeEquals (outcome : Outcome)
  | playerChoiceEquals (choice : Choice)
  | playedAtLeast (choice : Choice) (count : UInt32)
  /-- The last `count` turns all had this outcome with this choice. -/
  | streak (outcome : Outcome) (choice : Choice) (count : UInt32)
  | isLastTurn (expected : Bool)
  | playerHasMore (choice : Choice)
  | turnIndexEquals (turn : UInt32)
  | rerollCountEquals (count : UInt32)
  | playerHolds (choice : Choice) (count : UInt32)
  /-- Turns count from one. -/
  | playedOnTurn (choice : Choice) (turn : UInt32)
  | winsAtLeast (choice : Choice) (count : UInt32)
  | winsOnlyWith (choice : Choice)
  deriving DecidableEq

def Condition.kind : Condition → ConditionKind
  | outcomeEquals _ => .outcomeEquals
  | playerChoiceEquals _ => .playerChoiceEquals
  | playedAtLeast _ _ => .playedAtLeastCount
  | streak _ _ _ => .consecutiveOutcomeWithChoiceEquals
  | isLastTurn _ => .isLastTurn
  | playerHasMore _ => .playerHandHasMoreOfChoiceThanOpponent
  | turnIndexEquals _ => .turnIndexEquals
  | rerollCountEquals _ => .rerollCountEquals
  | playerHolds _ _ => .playerHandAtLeastCountOfChoice
  | playedOnTurn _ _ => .choiceUsedOnTurnIndex
  | winsAtLeast _ _ => .winWithChoiceAtLeastCount
  | winsOnlyWith _ => .winsOnlyWithChoice

inductive Effect where
  | addScore (amount : Int64)
  /-- Without a text, a line that names the rule is shown. -/
  | showInfo (text : Option String)
  | forceOpponentDrawFromFront (enabled : Bool)
  | finalScoreMultiplier (factor : Int64)
  | finalTotalMultiplier (factor : Int64)
  | replaceOpponentCards (choice : Choice) (count : UInt32)
  | revealNextOpponentCard
  | revealOpponentFirstAndLast
  | modifyPlannedTurns (delta : Int64)
  | addCards (side : Side) (choice : Choice) (count : UInt32)
  | addRandomCards (side : Side) (count : UInt32)
  | addScorePerCard (choice : Choice) (perCard : Int64)
  deriving DecidableEq

def Effect.kind : Effect → EffectKind
  | addScore _ => .addScoreDelta
  | showInfo _ => .showInfo
  | forceOpponentDrawFromFront _ => .forceOpponentDrawFromFront
  | finalScoreMultiplier _ => .finalScoreMultiplier
  | finalTotalMultiplier _ => .finalTotalMultiplier
  | replaceOpponentCards _ _ => .replaceOpponentRandomCardsToChoice
  | revealNextOpponentCard => .revealNextOpponentCard
  | revealOpponentFirstAndLast => .revealOpponentFirstAndLast
  | modifyPlannedTurns _ => .modifyPlannedTurnsDelta
  | addCards .player _ _ => .addCardsToPlayerHand
  | addCards .opponent _ _ => .addCardsToOpponentHand
  | addRandomCards .player _ => .addRandomCardsToPlayerHand
  | addRandomCards .opponent _ => .addRandomCardsToOpponentHand
  | addScorePerCard _ _ => .addScorePerHandCountOfChoice

/-- Restricts an effect to an outcome of the turn, a choice of the player, both or neither. -/
structure TurnFilter where
  outcome : Option Outcome := none
  choice : Option Choice := none
  deriving DecidableEq

/-- Every value that the filter names is the one at hand. -/
def TurnFilter.matches (f : TurnFilter) (outcome : Option Outcome) (choice : Option Choice) :
    Bool :=
  (f.outcome.isNone || f.outcome == outcome) && (f.choice.isNone || f.choice == choice)

structure GuardedEffect where
  effect : Effect
  filter : TurnFilter := {}
  deriving DecidableEq

/-- Why a tag could not be understood. -/
inductive TagProblem where
  | missingKind
  | unknownKind (name : String)
  | unknownCategory (name : String)
  | missingParameter (kind parameter : String)
  | invalidParameter (kind parameter value : String)
  deriving DecidableEq

def TagProblem.message : TagProblem → String
  | missingKind => "kind is None"
  | unknownKind name => "unknown kind `" ++ name ++ "`"
  | unknownCategory name => "unknown category `" ++ name ++ "`"
  | missingParameter kind parameter => kind ++ " requires " ++ parameter
  | invalidParameter kind parameter value =>
    kind ++ " has invalid " ++ parameter ++ " `" ++ value ++ "`"

structure InvalidTag where
  role : Option TagRole
  problem : TagProblem
  deriving DecidableEq

inductive Tag where
  | timing (phase : Phase)
  | condition (condition : Condition)
  | effect (effect : GuardedEffect)
  | invalid (tag : InvalidTag)
  deriving DecidableEq

def Tag.role : Tag → Option TagRole
  | timing _ => some .timing
  | condition _ => some .condition
  | effect _ => some .effect
  | invalid tag => tag.role

end Roshambo
