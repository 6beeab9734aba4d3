import Roshambo.Authoring.Basic
import Roshambo.Number.Saturating
import Roshambo.Rule.Basic

/-!
# From authored to typed rules

Every authored tag becomes a typed tag or an invalid one that carries the reason, so conversion
never fails. The role comes first, from the category or else from the kind field that is set; then
the kind, and then the parameters that the kind asks for. An invalid tag keeps its place among the
tags, and its role as far as that is known.
-/
namespace Roshambo

namespace AuthoredTag

/-! ## Fields -/

/-- A field that is given and not left open by the author. -/
def given (field : Option String) : Option String :=
  field.filter (!Text.isUnset ·)

/-- The role that the category names; without a category, the first kind field given. -/
def role (raw : AuthoredTag) : Except TagProblem TagRole :=
  match given raw.category with
  | some category =>
    match TagRole.ofKeyword? category with
    | some role => .ok role
    | none => .error (.unknownCategory category)
  | none =>
    if (given raw.timingType).isSome then .ok .timing
    else if (given raw.conditionType).isSome then .ok .condition
    else if (given raw.effectType).isSome then .ok .effect
    else .error .missingKind

/-- The kind that a field names according to a reading of keywords. -/
def kindOf {κ : Type} (field : Option String) (ofKeyword? : String → Option κ) :
    Except TagProblem κ :=
  match given (field.map Text.trim) with
  | some name =>
    match ofKeyword? name with
    | some kind => .ok kind
    | none => .error (.unknownKind name)
  | none => .error .missingKind

section

variable (raw : AuthoredTag) (kind : String)

def choice : Except TagProblem Choice :=
  match given raw.choiceParam with
  | some value =>
    match Choice.ofKeyword? value with
    | some choice => .ok choice
    | none => .error (.invalidParameter kind "choiceParam" value)
  | none => .error (.missingParameter kind "choiceParam")

def outcome : Except TagProblem Outcome :=
  match given raw.outcomeParam with
  | some value =>
    match Outcome.ofKeyword? value with
    | some outcome => .ok outcome
    | none => .error (.invalidParameter kind "outcomeParam" value)
  | none => .error (.missingParameter kind "outcomeParam")

def int : Except TagProblem Int64 :=
  match raw.intValue with
  | some value => .ok value
  | none => .error (.missingParameter kind "intValue")

/-- A number from `least` up to what a word holds. -/
def word (least : Int) : Except TagProblem UInt32 := do
  let value ← raw.int kind
  if least ≤ value.toInt ∧ value.toInt.toNat < UInt32.size then .ok (UInt32.ofNat value.toInt.toNat)
  else .error (.invalidParameter kind "intValue" (toString value.toInt))

def count : Except TagProblem UInt32 := raw.word kind 0

/-- Turns count from one. -/
def turn : Except TagProblem UInt32 := raw.word kind 1

/-- The length of a streak: one if it is not given, and never below one. -/
def streakLength : UInt32 :=
  match raw.intValue with
  | some value => Saturating.positiveWord value.toInt
  | none => 1

/-- A switch given as a number; on if it is not given. -/
def flag : Bool :=
  match raw.intValue with
  | some value => value != 0
  | none => true

end

/-! ## Tags -/

/-- The condition of a kind. -/
def conditionOf (raw : AuthoredTag) (kind : ConditionKind) : Except TagProblem Condition :=
  let name := kind.name
  match kind with
  | .outcomeEquals => return .outcomeEquals (← raw.outcome name)
  | .playerChoiceEquals => return .playerChoiceEquals (← raw.choice name)
  | .playedAtLeastCount => return .playedAtLeast (← raw.choice name) (← raw.count name)
  | .consecutiveOutcomeWithChoiceEquals =>
    return .streak (← raw.outcome name) (← raw.choice name) raw.streakLength
  | .consecutiveDrawWithChoiceEquals =>
    return .streak .draw (← raw.choice name) raw.streakLength
  | .isLastTurn => return .isLastTurn raw.flag
  | .playerHandHasMoreOfChoiceThanOpponent => return .playerHasMore (← raw.choice name)
  | .turnIndexEquals => return .turnIndexEquals (← raw.count name)
  | .rerollCountEquals => return .rerollCountEquals (← raw.count name)
  | .playerHandAtLeastCountOfChoice =>
    return .playerHolds (← raw.choice name) (← raw.count name)
  | .choiceUsedOnTurnIndex => return .playedOnTurn (← raw.choice name) (← raw.turn name)
  | .winWithChoiceAtLeastCount => return .winsAtLeast (← raw.choice name) (← raw.count name)
  | .winsOnlyWithChoice => return .winsOnlyWith (← raw.choice name)

/-- The text to show, unless it is blank. -/
def infoText (raw : AuthoredTag) : Option String :=
  (raw.stringValue.map Text.trim).filter (!·.isEmpty)

/-- The effect of a kind. -/
def effectOf (raw : AuthoredTag) (kind : EffectKind) : Except TagProblem Effect :=
  let name := kind.name
  match kind with
  | .addScoreDelta => return .addScore (← raw.int name)
  | .showInfo => return .showInfo raw.infoText
  | .forceOpponentDrawFromFront => return .forceOpponentDrawFromFront raw.flag
  | .finalScoreMultiplier => return .finalScoreMultiplier (← raw.int name)
  | .finalTotalMultiplier => return .finalTotalMultiplier (← raw.int name)
  | .replaceOpponentRandomCardsToChoice =>
    return .replaceOpponentCards (← raw.choice name) (← raw.count name)
  | .revealNextOpponentCard => return .revealNextOpponentCard
  | .revealOpponentFirstAndLast => return .revealOpponentFirstAndLast
  | .modifyPlannedTurnsDelta => return .modifyPlannedTurns (← raw.int name)
  | .addCardsToPlayerHand => return .addCards .player (← raw.choice name) (← raw.count name)
  | .addCardsToOpponentHand =>
    return .addCards .opponent (← raw.choice name) (← raw.count name)
  | .addRandomCardsToPlayerHand => return .addRandomCards .player (← raw.count name)
  | .addRandomCardsToOpponentHand => return .addRandomCards .opponent (← raw.count name)
  | .addScorePerHandCountOfChoice =>
    return .addScorePerCard (← raw.choice name) (← raw.int name)

/-- The filter of an effect names the values whose switches are on. -/
def filterOf (raw : AuthoredTag) (kind : EffectKind) : Except TagProblem TurnFilter := do
  let outcome ← if raw.filterByOutcome then some <$> raw.outcome kind.name else pure none
  let choice ← if raw.filterByChoice then some <$> raw.choice kind.name else pure none
  return ⟨outcome, choice⟩

def toTiming (raw : AuthoredTag) : Except TagProblem Tag :=
  return .timing (← kindOf raw.timingType Phase.ofKeyword?)

def toCondition (raw : AuthoredTag) : Except TagProblem Tag := do
  let kind ← kindOf raw.conditionType ConditionKind.ofKeyword?
  return .condition (← raw.conditionOf kind)

def toEffect (raw : AuthoredTag) : Except TagProblem Tag := do
  let kind ← kindOf raw.effectType EffectKind.ofKeyword?
  let effect ← raw.effectOf kind
  return .effect ⟨effect, ← raw.filterOf kind⟩

/-- The typed tag of a role, or the reason against it. -/
def ofRole (raw : AuthoredTag) : TagRole → Except TagProblem Tag
  | .timing => raw.toTiming
  | .condition => raw.toCondition
  | .effect => raw.toEffect

/-- The typed tag; an invalid tag keeps the role if there is one. -/
def typed (raw : AuthoredTag) : Tag :=
  match raw.role with
  | .error problem => .invalid ⟨none, problem⟩
  | .ok role =>
    match raw.ofRole role with
    | .ok tag => tag
    | .error problem => .invalid ⟨some role, problem⟩

end AuthoredTag

namespace AuthoredRule

/-- The known archetypes in the order of their first mention, and a warning for every unknown
one. -/
def sortArchetypes (rule : String) :
    (found : List Archetype) → List String → List Archetype × List String
  | found, [] => (found, [])
  | found, name :: names =>
    match Archetype.ofKeyword? name with
    | some archetype =>
      sortArchetypes rule (if found.contains archetype then found else found ++ [archetype]) names
    | none =>
      let (found, warnings) := sortArchetypes rule found names
      (found, (rule ++ ": unknown archetype `" ++ name ++ "`") :: warnings)

/-- The typed rule, and warnings about its description. Problems of tags stay inside the rule. -/
def typed (raw : AuthoredRule) : Rule × List String :=
  let (archetypes, warnings) := sortArchetypes raw.name [] raw.archetypes
  ({ name := Text.trim raw.name
     description := raw.description
     archetypes := archetypes
     weight := raw.weight.getD 1
     tags := raw.tags.map AuthoredTag.typed },
    warnings)

end AuthoredRule

end Roshambo
