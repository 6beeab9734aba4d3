import Roshambo.Encoding.Card
import Roshambo.Rule.Tag

/-!
# JSON form of tags

Conditions, effects and problems are variants under the names of their kinds; those with several
parameters carry a record.
-/
namespace Roshambo

open Json

instance : Codec Phase where
  encode p := .str p.name
  decode? := decodeName? Phase.all Phase.name

instance : Codec TagRole where
  encode r := .str r.name
  decode? := decodeName? [.timing, .condition, .effect] TagRole.name

instance : NeverNull TagRole := ⟨fun _ => nofun⟩

/-- The record of a choice and a number under the given key. -/
def encodeChoiceAnd (key : String) (choice : Choice) (number : UInt32) : Value :=
  .obj [("choice", encode choice), (key, encode number)]

def decodeChoiceAnd? (key : String) (v : Value) : Option (Choice × UInt32) := do
  let s ← Source.ofValue? v
  let (choice, s) ← s.required "choice"
  let (number, s) ← s.required key
  s.finish
  return (choice, number)

instance : Codec Condition where
  encode
    | .outcomeEquals outcome => Variant.tag "OutcomeEquals" (encode outcome)
    | .playerChoiceEquals choice => Variant.tag "PlayerChoiceEquals" (encode choice)
    | .playedAtLeast choice count =>
      Variant.tag "PlayedAtLeastCount" (encodeChoiceAnd "count" choice count)
    | .streak outcome choice count =>
      Variant.tag "ConsecutiveOutcomeWithChoice"
        (.obj [("outcome", encode outcome), ("choice", encode choice), ("count", encode count)])
    | .isLastTurn expected => Variant.tag "IsLastTurn" (encode expected)
    | .playerHasMore choice => Variant.tag "PlayerHandHasMoreThanOpponent" (encode choice)
    | .turnIndexEquals turn => Variant.tag "TurnIndexEquals" (encode turn)
    | .rerollCountEquals count => Variant.tag "RerollCountEquals" (encode count)
    | .playerHolds choice count =>
      Variant.tag "PlayerHandAtLeast" (encodeChoiceAnd "count" choice count)
    | .playedOnTurn choice turn =>
      Variant.tag "ChoiceUsedOnTurn" (encodeChoiceAnd "turn" choice turn)
    | .winsAtLeast choice count =>
      Variant.tag "WinWithChoiceAtLeast" (encodeChoiceAnd "count" choice count)
    | .winsOnlyWith choice => Variant.tag "WinsOnlyWithChoice" (encode choice)
  decode? v := do
    match ← Variant.ofValue? v with
    | .tagged "OutcomeEquals" v => (decode? v).map .outcomeEquals
    | .tagged "PlayerChoiceEquals" v => (decode? v).map .playerChoiceEquals
    | .tagged "PlayedAtLeastCount" v =>
      (decodeChoiceAnd? "count" v).map fun (choice, count) => .playedAtLeast choice count
    | .tagged "ConsecutiveOutcomeWithChoice" v =>
      let s ← Source.ofValue? v
      let (outcome, s) ← s.required "outcome"
      let (choice, s) ← s.required "choice"
      let (count, s) ← s.required "count"
      s.finish
      return .streak outcome choice count
    | .tagged "IsLastTurn" v => (decode? v).map .isLastTurn
    | .tagged "PlayerHandHasMoreThanOpponent" v => (decode? v).map .playerHasMore
    | .tagged "TurnIndexEquals" v => (decode? v).map .turnIndexEquals
    | .tagged "RerollCountEquals" v => (decode? v).map .rerollCountEquals
    | .tagged "PlayerHandAtLeast" v =>
      (decodeChoiceAnd? "count" v).map fun (choice, count) => .playerHolds choice count
    | .tagged "ChoiceUsedOnTurn" v =>
      (decodeChoiceAnd? "turn" v).map fun (choice, turn) => .playedOnTurn choice turn
    | .tagged "WinWithChoiceAtLeast" v =>
      (decodeChoiceAnd? "count" v).map fun (choice, count) => .winsAtLeast choice count
    | .tagged "WinsOnlyWithChoice" v => (decode? v).map .winsOnlyWith
    | _ => none

instance : Codec Effect where
  encode
    | .addScore amount => Variant.tag "AddScore" (encode amount)
    | .showInfo text => Variant.tag "ShowInfo" (encode text)
    | .forceOpponentDrawFromFront enabled =>
      Variant.tag "ForceOpponentDrawFromFront" (encode enabled)
    | .finalScoreMultiplier factor => Variant.tag "FinalScoreMultiplier" (encode factor)
    | .finalTotalMultiplier factor => Variant.tag "FinalTotalMultiplier" (encode factor)
    | .replaceOpponentCards choice count =>
      Variant.tag "ReplaceOpponentCards" (encodeChoiceAnd "count" choice count)
    | .revealNextOpponentCard => .str "RevealNextOpponentCard"
    | .revealOpponentFirstAndLast => .str "RevealOpponentFirstAndLast"
    | .modifyPlannedTurns delta => Variant.tag "ModifyPlannedTurns" (encode delta)
    | .addCards side choice count =>
      Variant.tag "AddCardsToHand"
        (.obj [("side", encode side), ("choice", encode choice), ("count", encode count)])
    | .addRandomCards side count =>
      Variant.tag "AddRandomCardsToHand" (.obj [("side", encode side), ("count", encode count)])
    | .addScorePerCard choice perCard =>
      Variant.tag "AddScorePerHandCount"
        (.obj [("choice", encode choice), ("per_card", encode perCard)])
  decode? v := do
    let variant ← Variant.ofValue? v
    match variant with
    | .tagged "AddScore" v => (decode? v).map .addScore
    | .tagged "ShowInfo" v => (decode? v).map .showInfo
    | .tagged "ForceOpponentDrawFromFront" v => (decode? v).map .forceOpponentDrawFromFront
    | .tagged "FinalScoreMultiplier" v => (decode? v).map .finalScoreMultiplier
    | .tagged "FinalTotalMultiplier" v => (decode? v).map .finalTotalMultiplier
    | .tagged "ReplaceOpponentCards" v =>
      (decodeChoiceAnd? "count" v).map fun (choice, count) => .replaceOpponentCards choice count
    | .tagged "ModifyPlannedTurns" v => (decode? v).map .modifyPlannedTurns
    | .tagged "AddCardsToHand" v =>
      let s ← Source.ofValue? v
      let (side, s) ← s.required "side"
      let (choice, s) ← s.required "choice"
      let (count, s) ← s.required "count"
      s.finish
      return .addCards side choice count
    | .tagged "AddRandomCardsToHand" v =>
      let s ← Source.ofValue? v
      let (side, s) ← s.required "side"
      let (count, s) ← s.required "count"
      s.finish
      return .addRandomCards side count
    | .tagged "AddScorePerHandCount" v =>
      let s ← Source.ofValue? v
      let (choice, s) ← s.required "choice"
      let (perCard, s) ← s.required "per_card"
      s.finish
      return .addScorePerCard choice perCard
    | variant =>
      match ← variant.unitName? with
      | "RevealNextOpponentCard" => return .revealNextOpponentCard
      | "RevealOpponentFirstAndLast" => return .revealOpponentFirstAndLast
      | _ => none

instance : Codec TurnFilter where
  encode f := .obj [("outcome", encode f.outcome), ("choice", encode f.choice)]
  decode? v := do
    let s ← Source.ofValue? v
    let (outcome, s) ← s.defaulted ["outcome"] none
    let (choice, s) ← s.defaulted ["choice"] none
    s.finish
    return ⟨outcome, choice⟩

instance : Codec GuardedEffect where
  encode t := .obj [("effect", encode t.effect), ("filter", encode t.filter)]
  decode? v := do
    let s ← Source.ofValue? v
    let (effect, s) ← s.required "effect"
    let (filter, s) ← s.defaulted ["filter"] {}
    s.finish
    return ⟨effect, filter⟩

instance : Codec TagProblem where
  encode
    | .missingKind => .str "MissingKind"
    | .unknownKind name => Variant.tag "UnknownKind" (encode name)
    | .unknownCategory name => Variant.tag "UnknownCategory" (encode name)
    | .missingParameter kind parameter =>
      Variant.tag "MissingParameter"
        (.obj [("kind", encode kind), ("parameter", encode parameter)])
    | .invalidParameter kind parameter value =>
      Variant.tag "InvalidParameter"
        (.obj [("kind", encode kind), ("parameter", encode parameter), ("value", encode value)])
  decode? v := do
    let variant ← Variant.ofValue? v
    match variant with
    | .tagged "UnknownKind" v => (decode? v).map .unknownKind
    | .tagged "UnknownCategory" v => (decode? v).map .unknownCategory
    | .tagged "MissingParameter" v =>
      let s ← Source.ofValue? v
      let (kind, s) ← s.required "kind"
      let (parameter, s) ← s.required "parameter"
      s.finish
      return .missingParameter kind parameter
    | .tagged "InvalidParameter" v =>
      let s ← Source.ofValue? v
      let (kind, s) ← s.required "kind"
      let (parameter, s) ← s.required "parameter"
      let (value, s) ← s.required "value"
      s.finish
      return .invalidParameter kind parameter value
    | variant =>
      match ← variant.unitName? with
      | "MissingKind" => return .missingKind
      | _ => none

instance : Codec InvalidTag where
  encode t := .obj [("role", encode t.role), ("problem", encode t.problem)]
  decode? v := do
    let s ← Source.ofValue? v
    let (role, s) ← s.optional "role"
    let (problem, s) ← s.required "problem"
    s.finish
    return ⟨role, problem⟩

instance : Codec Tag where
  encode
    | .timing phase => Variant.tag "Timing" (encode phase)
    | .condition condition => Variant.tag "Condition" (encode condition)
    | .effect effect => Variant.tag "Effect" (encode effect)
    | .invalid tag => Variant.tag "Invalid" (encode tag)
  decode? v := do
    match ← Variant.ofValue? v with
    | .tagged "Timing" v => (decode? v).map .timing
    | .tagged "Condition" v => (decode? v).map .condition
    | .tagged "Effect" v => (decode? v).map .effect
    | .tagged "Invalid" v => (decode? v).map .invalid
    | _ => none

end Roshambo
