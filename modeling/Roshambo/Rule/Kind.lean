import Roshambo.Text.Keyword

/-!
# Phases, roles and kinds

The vocabulary of rule tags: the phases of a round, the three roles a tag can play, and the kinds
of condition and effect. Each kind has one name and a table of keywords under which authors may
refer to it; older names stay in the tables beside the current ones.
-/
namespace Roshambo

/-- A moment of a round at which a rule may fire. -/
inductive Phase where
  | roundPrepare
  | roundStart
  | turnStart
  | turnSettlement
  | roundEnd
  deriving DecidableEq

namespace Phase

/-- The phases in the order of a round. -/
def all : List Phase := [roundPrepare, roundStart, turnStart, turnSettlement, roundEnd]

def name : Phase → String
  | roundPrepare => "RoundPrepare"
  | roundStart => "RoundStart"
  | turnStart => "TurnStart"
  | turnSettlement => "TurnSettlement"
  | roundEnd => "RoundEnd"

def keywords : List (String × Phase) :=
  [("roundprepare", roundPrepare), ("prepare", roundPrepare), ("roundstart", roundStart),
    ("turnstart", turnStart), ("turnsettlement", turnSettlement), ("settlement", turnSettlement),
    ("roundend", roundEnd)]

def ofKeyword? (s : String) : Option Phase := Text.lookupKeyword keywords s

end Phase

/-- What a tag contributes to its rule. -/
inductive TagRole where
  | timing
  | condition
  | effect
  deriving DecidableEq

namespace TagRole

def name : TagRole → String
  | timing => "Timing"
  | condition => "Condition"
  | effect => "Effect"

def keywords : List (String × TagRole) :=
  [("timing", timing), ("condition", condition), ("effect", effect)]

def ofKeyword? (s : String) : Option TagRole := Text.lookupKeyword keywords s

end TagRole

inductive ConditionKind where
  | outcomeEquals
  | playerChoiceEquals
  | playedAtLeastCount
  | consecutiveOutcomeWithChoiceEquals
  | consecutiveDrawWithChoiceEquals
  | isLastTurn
  | playerHandHasMoreOfChoiceThanOpponent
  | turnIndexEquals
  | rerollCountEquals
  | playerHandAtLeastCountOfChoice
  | choiceUsedOnTurnIndex
  | winWithChoiceAtLeastCount
  | winsOnlyWithChoice
  deriving DecidableEq

namespace ConditionKind

def name : ConditionKind → String
  | outcomeEquals => "OutcomeEquals"
  | playerChoiceEquals => "PlayerChoiceEquals"
  | playedAtLeastCount => "PlayedAtLeastCount"
  | consecutiveOutcomeWithChoiceEquals => "ConsecutiveOutcomeWithChoiceEquals"
  | consecutiveDrawWithChoiceEquals => "ConsecutiveDrawWithChoiceEquals"
  | isLastTurn => "IsLastTurn"
  | playerHandHasMoreOfChoiceThanOpponent => "PlayerHandHasMoreOfChoiceThanOpponent"
  | turnIndexEquals => "TurnIndexEquals"
  | rerollCountEquals => "RerollCountEquals"
  | playerHandAtLeastCountOfChoice => "PlayerHandAtLeastCountOfChoice"
  | choiceUsedOnTurnIndex => "ChoiceUsedOnTurnIndex"
  | winWithChoiceAtLeastCount => "WinWithChoiceAtLeastCount"
  | winsOnlyWithChoice => "WinsOnlyWithChoice"

def keywords : List (String × ConditionKind) :=
  [("outcomeequals", outcomeEquals), ("outcomeis", outcomeEquals),
    ("playerchoiceequals", playerChoiceEquals), ("playerchoiceis", playerChoiceEquals),
    ("playedatleastcount", playedAtLeastCount),
    ("consecutiveoutcomewithchoiceequals", consecutiveOutcomeWithChoiceEquals),
    ("consecutiveoutcomewithchoiceis", consecutiveOutcomeWithChoiceEquals),
    ("consecutivedrawwithchoiceequals", consecutiveDrawWithChoiceEquals),
    ("consecutivedrawwithchoiceis", consecutiveDrawWithChoiceEquals),
    ("islastturn", isLastTurn),
    ("playerhandhasmoreofchoicethanopponent", playerHandHasMoreOfChoiceThanOpponent),
    ("playerhasmoreofchoicethanopponent", playerHandHasMoreOfChoiceThanOpponent),
    ("playerhasmoreofchoicethanai", playerHandHasMoreOfChoiceThanOpponent),
    ("turnindexequals", turnIndexEquals), ("turnindexis", turnIndexEquals),
    ("rerollcountequals", rerollCountEquals), ("rerollusedequals", rerollCountEquals),
    ("playerhandatleastcountofchoice", playerHandAtLeastCountOfChoice),
    ("playerhasatleastcountinhand", playerHandAtLeastCountOfChoice),
    ("choiceusedonturnindex", choiceUsedOnTurnIndex),
    ("winwithchoiceatleastcount", winWithChoiceAtLeastCount),
    ("winsonlywithchoice", winsOnlyWithChoice)]

def ofKeyword? (s : String) : Option ConditionKind := Text.lookupKeyword keywords s

end ConditionKind

inductive EffectKind where
  | addScoreDelta
  | showInfo
  | forceOpponentDrawFromFront
  | finalScoreMultiplier
  | finalTotalMultiplier
  | replaceOpponentRandomCardsToChoice
  | revealNextOpponentCard
  | revealOpponentFirstAndLast
  | modifyPlannedTurnsDelta
  | addCardsToPlayerHand
  | addCardsToOpponentHand
  | addRandomCardsToPlayerHand
  | addRandomCardsToOpponentHand
  | addScorePerHandCountOfChoice
  deriving DecidableEq

namespace EffectKind

def name : EffectKind → String
  | addScoreDelta => "AddScoreDelta"
  | showInfo => "ShowInfo"
  | forceOpponentDrawFromFront => "ForceOpponentDrawFromFront"
  | finalScoreMultiplier => "FinalScoreMultiplier"
  | finalTotalMultiplier => "FinalTotalMultiplier"
  | replaceOpponentRandomCardsToChoice => "ReplaceOpponentRandomCardsToChoice"
  | revealNextOpponentCard => "RevealNextOpponentCard"
  | revealOpponentFirstAndLast => "RevealOpponentFirstAndLast"
  | modifyPlannedTurnsDelta => "ModifyPlannedTurnsDelta"
  | addCardsToPlayerHand => "AddCardsToPlayerHand"
  | addCardsToOpponentHand => "AddCardsToOpponentHand"
  | addRandomCardsToPlayerHand => "AddRandomCardsToPlayerHand"
  | addRandomCardsToOpponentHand => "AddRandomCardsToOpponentHand"
  | addScorePerHandCountOfChoice => "AddScorePerHandCountOfChoice"

def keywords : List (String × EffectKind) :=
  [("addscoredelta", addScoreDelta), ("showinfo", showInfo),
    ("forceopponentdrawfromfront", forceOpponentDrawFromFront),
    ("forceaidrawfromfront", forceOpponentDrawFromFront),
    ("finalscoremultiplier", finalScoreMultiplier),
    ("finaltotalmultiplier", finalTotalMultiplier),
    ("replaceopponentrandomcardstochoice", replaceOpponentRandomCardsToChoice),
    ("replaceairandomcardstochoice", replaceOpponentRandomCardsToChoice),
    ("revealnextopponentcard", revealNextOpponentCard),
    ("revealnextaicard", revealNextOpponentCard),
    ("revealopponentfirstandlast", revealOpponentFirstAndLast),
    ("scout", revealOpponentFirstAndLast),
    ("modifyplannedturnsdelta", modifyPlannedTurnsDelta),
    ("modifyturnstoplaydelta", modifyPlannedTurnsDelta),
    ("addcardstoplayerhand", addCardsToPlayerHand),
    ("addcardstoopponenthand", addCardsToOpponentHand),
    ("addcardstoaihand", addCardsToOpponentHand),
    ("addrandomcardstoplayerhand", addRandomCardsToPlayerHand),
    ("addrandomcardstoopponenthand", addRandomCardsToOpponentHand),
    ("addrandomcardstoaihand", addRandomCardsToOpponentHand),
    ("addscoreperhandcountofchoice", addScorePerHandCountOfChoice),
    ("addscoreperplayerhandcount", addScorePerHandCountOfChoice)]

def ofKeyword? (s : String) : Option EffectKind := Text.lookupKeyword keywords s

end EffectKind

end Roshambo
