import Roshambo.Rule.Tag

/-!
# Passes

A pass runs the active rules over one phase. Round preparation and round start come in two
flavours each, for a fresh round and for a change within one. A pass answers some kinds of
condition and applies some kinds of effect; tags of any other kind are skipped in it.
-/
namespace Roshambo

inductive Pass where
  | prepare (again : Bool)
  | roundStart (initial : Bool)
  | turnStart
  | settlement
  | roundEnd
  deriving DecidableEq

namespace Pass

def phase : Pass → Phase
  | prepare _ => .roundPrepare
  | roundStart _ => .roundStart
  | turnStart => .turnStart
  | settlement => .turnSettlement
  | roundEnd => .roundEnd

/-- The pass runs again within a round that has begun. -/
def isRepeat : Pass → Bool
  | prepare again => again
  | roundStart initial => !initial
  | _ => false

/-- The kinds of condition that a pass answers. -/
def conditionKinds : Pass → List ConditionKind
  | prepare false => [.playerHandHasMoreOfChoiceThanOpponent, .playerHandAtLeastCountOfChoice]
  | prepare true => [.playerHandAtLeastCountOfChoice]
  | roundStart _ =>
    [.playerHandHasMoreOfChoiceThanOpponent, .playerHandAtLeastCountOfChoice, .rerollCountEquals]
  | turnStart =>
    [.playerHandAtLeastCountOfChoice, .turnIndexEquals, .rerollCountEquals, .isLastTurn]
  | settlement =>
    [.outcomeEquals, .playerChoiceEquals, .playedAtLeastCount,
      .consecutiveOutcomeWithChoiceEquals, .consecutiveDrawWithChoiceEquals, .isLastTurn,
      .turnIndexEquals, .rerollCountEquals, .playerHandAtLeastCountOfChoice]
  | roundEnd =>
    [.playedAtLeastCount, .choiceUsedOnTurnIndex, .winWithChoiceAtLeastCount,
      .winsOnlyWithChoice, .rerollCountEquals]

/-- The kinds of effect that a pass applies. -/
def effectKinds : Pass → List EffectKind
  | prepare false =>
    [.modifyPlannedTurnsDelta, .addCardsToPlayerHand, .addCardsToOpponentHand,
      .addRandomCardsToPlayerHand, .addRandomCardsToOpponentHand, .showInfo]
  | prepare true => [.modifyPlannedTurnsDelta]
  | roundStart _ =>
    [.forceOpponentDrawFromFront, .replaceOpponentRandomCardsToChoice,
      .revealOpponentFirstAndLast, .showInfo]
  | turnStart =>
    [.addScorePerHandCountOfChoice, .addScoreDelta, .revealNextOpponentCard,
      .revealOpponentFirstAndLast, .showInfo]
  | settlement =>
    [.addScoreDelta, .showInfo, .finalScoreMultiplier, .revealNextOpponentCard,
      .forceOpponentDrawFromFront]
  | roundEnd => [.finalTotalMultiplier, .addScoreDelta, .showInfo]

def evaluates (pass : Pass) (c : Condition) : Bool := pass.conditionKinds.contains c.kind

def applies (pass : Pass) (e : Effect) : Bool := pass.effectKinds.contains e.kind

end Pass

end Roshambo
