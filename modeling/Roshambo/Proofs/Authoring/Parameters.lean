import Roshambo.Authoring.Typed
import Roshambo.Proofs.Results

/-!
# Parameters of authored tags

What the kinds of condition and effect ask of the fields of a tag. The parameters of a kind are a
list, and so are the arguments of a condition or an effect; `form_conditionOf` and `form_effectOf`
say that typing reads the parameters in order and keeps the kind. A parameter is read in one way
for all kinds that have it, so what a field may say is settled here once.
-/
namespace Roshambo

/-! ## Parameters and arguments -/

/-- What a kind asks of the fields of a tag. -/
inductive Parameter where
  | outcome
  /-- The outcome is a draw, whatever the field says. -/
  | draw
  | choice
  | number
  /-- A number from `least` up to what a word holds. -/
  | word (least : Nat)
  | streakLength
  | switch
  | text

inductive Argument where
  | outcome (outcome : Outcome)
  | choice (choice : Choice)
  | number (number : Int)
  | switch (on : Bool)
  | text (text : Option String)

namespace ConditionKind

/-- The parameters of a kind in the order of the fields of its condition. -/
def parameters : ConditionKind → List Parameter
  | outcomeEquals => [.outcome]
  | playerChoiceEquals => [.choice]
  | playedAtLeastCount => [.choice, .word 0]
  | consecutiveOutcomeWithChoiceEquals => [.outcome, .choice, .streakLength]
  | consecutiveDrawWithChoiceEquals => [.draw, .choice, .streakLength]
  | isLastTurn => [.switch]
  | playerHandHasMoreOfChoiceThanOpponent => [.choice]
  | turnIndexEquals => [.word 0]
  | rerollCountEquals => [.word 0]
  | playerHandAtLeastCountOfChoice => [.choice, .word 0]
  | choiceUsedOnTurnIndex => [.choice, .word 1]
  | winWithChoiceAtLeastCount => [.choice, .word 0]
  | winsOnlyWithChoice => [.choice]

/-- A streak of draws is a streak of an outcome. -/
def typed : ConditionKind → ConditionKind
  | consecutiveDrawWithChoiceEquals => consecutiveOutcomeWithChoiceEquals
  | kind => kind

end ConditionKind

/-- The parameters of a kind in the order of the fields of its effect. -/
def EffectKind.parameters : EffectKind → List Parameter
  | addScoreDelta => [.number]
  | showInfo => [.text]
  | forceOpponentDrawFromFront => [.switch]
  | finalScoreMultiplier => [.number]
  | finalTotalMultiplier => [.number]
  | replaceOpponentRandomCardsToChoice => [.choice, .word 0]
  | revealNextOpponentCard => []
  | revealOpponentFirstAndLast => []
  | modifyPlannedTurnsDelta => [.number]
  | addCardsToPlayerHand => [.choice, .word 0]
  | addCardsToOpponentHand => [.choice, .word 0]
  | addRandomCardsToPlayerHand => [.word 0]
  | addRandomCardsToOpponentHand => [.word 0]
  | addScorePerHandCountOfChoice => [.choice, .number]

namespace Condition

def arguments : Condition → List Argument
  | outcomeEquals outcome => [.outcome outcome]
  | playerChoiceEquals choice => [.choice choice]
  | playedAtLeast choice count => [.choice choice, .number count.toNat]
  | streak outcome choice count => [.outcome outcome, .choice choice, .number count.toNat]
  | isLastTurn expected => [.switch expected]
  | playerHasMore choice => [.choice choice]
  | turnIndexEquals turn => [.number turn.toNat]
  | rerollCountEquals count => [.number count.toNat]
  | playerHolds choice count => [.choice choice, .number count.toNat]
  | playedOnTurn choice turn => [.choice choice, .number turn.toNat]
  | winsAtLeast choice count => [.choice choice, .number count.toNat]
  | winsOnlyWith choice => [.choice choice]

def form (condition : Condition) : ConditionKind × List Argument :=
  (condition.kind, condition.arguments)

/-- A condition is its kind and its arguments. -/
theorem form_injective : Function.Injective form := by
  intro c d same
  simp only [form, Prod.mk.injEq] at same
  obtain ⟨kinds, sameArguments⟩ := same
  cases c <;> cases d <;> cases kinds <;>
    simpa [arguments, Int.natCast_inj, UInt32.toNat_inj] using sameArguments

end Condition

namespace Effect

/-- The side of a hand is part of the kind, not an argument. -/
def arguments : Effect → List Argument
  | addScore amount => [.number amount.toInt]
  | showInfo text => [.text text]
  | forceOpponentDrawFromFront enabled => [.switch enabled]
  | finalScoreMultiplier factor => [.number factor.toInt]
  | finalTotalMultiplier factor => [.number factor.toInt]
  | replaceOpponentCards choice count => [.choice choice, .number count.toNat]
  | revealNextOpponentCard => []
  | revealOpponentFirstAndLast => []
  | modifyPlannedTurns delta => [.number delta.toInt]
  | addCards _ choice count => [.choice choice, .number count.toNat]
  | addRandomCards _ count => [.number count.toNat]
  | addScorePerCard choice perCard => [.choice choice, .number perCard.toInt]

def form (effect : Effect) : EffectKind × List Argument :=
  (effect.kind, effect.arguments)

/-- An effect is its kind and its arguments. -/
theorem form_injective : Function.Injective form := by
  intro c d same
  simp only [form, Prod.mk.injEq] at same
  obtain ⟨kinds, sameArguments⟩ := same
  fun_cases kind c <;> fun_cases kind d <;> cases kinds <;>
    simp only [arguments, List.cons.injEq, Argument.number.injEq, Argument.text.injEq,
      Argument.switch.injEq, Argument.choice.injEq, Int.natCast_inj, UInt32.toNat_inj,
      Int64.toInt_inj, and_true] at sameArguments <;>
    simp_all

end Effect

namespace AuthoredTag

/-! ## Fields -/

/-- The author wrote this into the field; a blank or the word none leaves it open. -/
def Says (field : Option String) (text : String) : Prop :=
  field = some text ∧ Text.isUnset text = false

def LeftOpen (field : Option String) : Prop := ∀ text, ¬ Says field text

/-- What the author wrote is a keyword for the value. -/
def Names {α : Type} (field : Option String) (ofKeyword? : String → Option α) (value : α) : Prop :=
  ∃ text, Says field text ∧ ofKeyword? text = some value

section

variable {α : Type} {field : Option String} {ofKeyword? : String → Option α} {value : α}

theorem given_eq_some_iff {text : String} : given field = some text ↔ Says field text := by
  simp [given, Says, Option.filter_eq_some_iff]

theorem given_eq_none_iff : given field = none ↔ LeftOpen field := by
  simp only [Option.eq_none_iff_forall_ne_some, LeftOpen, ne_eq, given_eq_some_iff]

theorem isSome_given_iff : (given field).isSome = true ↔ ¬ LeftOpen field := by
  rw [← given_eq_none_iff, Option.isSome_iff_ne_none]

theorem names_iff : Names field ofKeyword? value ↔ (given field).bind ofKeyword? = some value := by
  simp only [Names, ← given_eq_some_iff, Option.bind_eq_some_iff]

/-- Blanks around a kind do not count. -/
theorem names_trim_iff (table : List (String × α)) :
    Names (field.map Text.trim) (Text.lookupKeyword table) value ↔
      Names field (Text.lookupKeyword table) value := by
  cases field with
  | none => simp [Names, Says]
  | some text => simp [Names, Says, Text.isUnset_trim, Text.lookupKeyword_trim]

theorem kindOf_eq_ok_iff (table : List (String × α)) :
    kindOf field (Text.lookupKeyword table) = .ok value ↔
      Names field (Text.lookupKeyword table) value := by
  rw [← names_trim_iff, names_iff, kindOf]
  grind

end

variable {raw : AuthoredTag} {name : String}

theorem outcome_eq_ok_iff {outcome : Outcome} :
    raw.outcome name = .ok outcome ↔ Names raw.outcomeParam Outcome.ofKeyword? outcome := by
  rw [names_iff, AuthoredTag.outcome]
  grind

theorem choice_eq_ok_iff {choice : Choice} :
    raw.choice name = .ok choice ↔ Names raw.choiceParam Choice.ofKeyword? choice := by
  rw [names_iff, AuthoredTag.choice]
  grind

theorem int_eq_ok_iff {value : Int64} : raw.int name = .ok value ↔ raw.intValue = some value := by
  unfold int
  cases raw.intValue <;> simp

theorem word_eq_ok_iff {least : Nat} {number : UInt32} :
    raw.word name least = .ok number ↔
      ∃ value, raw.intValue = some value ∧ least ≤ value.toInt ∧ value.toInt = number.toNat := by
  simp only [word, bind_eq_ok_iff, int_eq_ok_iff]
  refine exists_congr fun value => and_congr_right fun _ => ?_
  have bound : number.toNat < UInt32.size := number.toNat_lt
  split
  · rename_i range
    have exactly := UInt32.toNat_ofNat_of_lt' range.2
    simp only [Except.ok.injEq, ← UInt32.toNat_inj]
    omega
  · rename_i outside
    simp only [reduceCtorEq, false_iff]
    omega

theorem toNat_streakLength (raw : AuthoredTag) :
    (raw.streakLength.toNat : Int) =
      max 1 (min ((raw.intValue.map Int64.toInt).getD 1) (UInt32.size - 1)) := by
  unfold streakLength
  cases raw.intValue with
  | none => rfl
  | some value =>
    simp only [Option.map_some, Option.getD_some, Saturating.toNat_positiveWord, UInt32.size]
    omega

theorem flag_eq (raw : AuthoredTag) : raw.flag = decide (raw.intValue ≠ some 0) := by
  unfold flag
  cases raw.intValue with
  | none => rfl
  | some value => simp [bne, beq_eq_decide]

/-! ## Parameters -/

/-- What a parameter is for a tag, if its fields say it. -/
inductive Reads (raw : AuthoredTag) : Parameter → Argument → Prop
  | outcome {outcome : Outcome} : Names raw.outcomeParam Outcome.ofKeyword? outcome →
      Reads raw .outcome (.outcome outcome)
  | draw : Reads raw .draw (.outcome .draw)
  | choice {choice : Choice} : Names raw.choiceParam Choice.ofKeyword? choice →
      Reads raw .choice (.choice choice)
  | number {value : Int64} : raw.intValue = some value → Reads raw .number (.number value.toInt)
  | word {least : Nat} {value : Int64} : raw.intValue = some value → least ≤ value.toInt →
      value.toInt < UInt32.size → Reads raw (.word least) (.number value.toInt)
  /-- A streak is moved into the range of a word from one up, and is one if it is not given. -/
  | streakLength : Reads raw .streakLength
      (.number (max 1 (min ((raw.intValue.map Int64.toInt).getD 1) (UInt32.size - 1))))
  /-- Only a zero switches off. -/
  | switch : Reads raw .switch (.switch (decide (raw.intValue ≠ some 0)))
  | text {text : String} : raw.stringValue = some text → Text.trim text ≠ "" →
      Reads raw .text (.text (some (Text.trim text)))
  | noText : (∀ text, raw.stringValue = some text → Text.trim text = "") →
      Reads raw .text (.text none)

/-- The fields say what the parameter is. -/
def Supplies (raw : AuthoredTag) (parameter : Parameter) : Prop :=
  ∃ argument, raw.Reads parameter argument

/-- The argument for a parameter, or the reason why there is none. -/
def read (raw : AuthoredTag) (name : String) : Parameter → Except TagProblem Argument
  | .outcome => .outcome <$> raw.outcome name
  | .draw => return .outcome .draw
  | .choice => .choice <$> raw.choice name
  | .number => (.number ·.toInt) <$> raw.int name
  | .word least => (.number ·.toNat) <$> raw.word name least
  | .streakLength => return .number raw.streakLength.toNat
  | .switch => return .switch raw.flag
  | .text => return .text raw.infoText

theorem reads_infoText (raw : AuthoredTag) : raw.Reads .text (.text raw.infoText) := by
  unfold infoText
  cases stringValue : raw.stringValue with
  | none => exact .noText (by simp [stringValue])
  | some text =>
    by_cases blank : Text.trim text = ""
    · have silent : raw.Reads .text (.text none) := .noText (by simp [stringValue, blank])
      simpa [blank, Option.filter] using silent
    · simpa [blank, Option.filter] using Reads.text stringValue blank

theorem read_eq_ok_iff {parameter : Parameter} {argument : Argument} :
    raw.read name parameter = .ok argument ↔ raw.Reads parameter argument := by
  constructor
  · intro h
    cases parameter with
    | outcome =>
      obtain ⟨outcome, named, rfl⟩ := map_eq_ok_iff.1 h
      exact .outcome (outcome_eq_ok_iff.1 named)
    | draw => cases h; exact .draw
    | choice =>
      obtain ⟨choice, named, rfl⟩ := map_eq_ok_iff.1 h
      exact .choice (choice_eq_ok_iff.1 named)
    | number =>
      obtain ⟨value, given, rfl⟩ := map_eq_ok_iff.1 h
      exact .number (int_eq_ok_iff.1 given)
    | word least =>
      obtain ⟨number, inRange, rfl⟩ := map_eq_ok_iff.1 h
      obtain ⟨value, given, low, exactly⟩ := word_eq_ok_iff.1 inRange
      have bound : number.toNat < UInt32.size := number.toNat_lt
      rw [← exactly]
      exact .word given low (by omega)
    | streakLength => cases h; rw [toNat_streakLength]; exact .streakLength
    | switch => cases h; rw [flag_eq]; exact .switch
    | text => cases h; exact reads_infoText raw
  · intro h
    cases h with
    | outcome named => exact map_eq_ok_iff.2 ⟨_, outcome_eq_ok_iff.2 named, rfl⟩
    | draw => rfl
    | choice named => exact map_eq_ok_iff.2 ⟨_, choice_eq_ok_iff.2 named, rfl⟩
    | number given => exact map_eq_ok_iff.2 ⟨_, int_eq_ok_iff.2 given, rfl⟩
    | @word least value given low high =>
      have exactly : value.toInt = (UInt32.ofNat value.toInt.toNat).toNat := by
        rw [UInt32.toNat_ofNat_of_lt' (by omega)]
        omega
      exact map_eq_ok_iff.2 ⟨_, word_eq_ok_iff.2 ⟨value, given, low, exactly⟩,
        congrArg Argument.number exactly.symm⟩
    | streakLength => rw [← toNat_streakLength]; rfl
    | switch => rw [← flag_eq]; rfl
    | text given written =>
      show Except.ok _ = _
      simp [infoText, given, written, Option.filter]
    | noText silent =>
      show Except.ok _ = _
      cases given : raw.stringValue with
      | none => simp [infoText, given]
      | some text => simp [infoText, given, silent text given, Option.filter]

/-! ## Kinds -/

/-- Typing a condition is reading the parameters of its kind in order. -/
theorem form_conditionOf (raw : AuthoredTag) (kind : ConditionKind) :
    Condition.form <$> raw.conditionOf kind =
      (kind.typed, ·) <$> kind.parameters.mapM (raw.read kind.name) := by
  -- One case for each list of parameters: once every field is read or refused, both sides compute.
  cases kind <;>
    simp only [conditionOf, ConditionKind.parameters, List.mapM_cons, List.mapM_nil, read, count,
      turn, Int.natCast_zero, Int.natCast_one]
  case outcomeEquals => cases raw.outcome _ <;> rfl
  case playerChoiceEquals | playerHandHasMoreOfChoiceThanOpponent | winsOnlyWithChoice =>
    cases raw.choice _ <;> rfl
  case playedAtLeastCount | playerHandAtLeastCountOfChoice | winWithChoiceAtLeastCount =>
    cases raw.choice _ <;> cases raw.word _ 0 <;> rfl
  case consecutiveOutcomeWithChoiceEquals =>
    cases raw.outcome _ <;> cases raw.choice _ <;> rfl
  case consecutiveDrawWithChoiceEquals => cases raw.choice _ <;> rfl
  case isLastTurn => rfl
  case turnIndexEquals | rerollCountEquals => cases raw.word _ 0 <;> rfl
  case choiceUsedOnTurnIndex => cases raw.choice _ <;> cases raw.word _ 1 <;> rfl

/-- Typing an effect is reading the parameters of its kind in order. -/
theorem form_effectOf (raw : AuthoredTag) (kind : EffectKind) :
    Effect.form <$> raw.effectOf kind = (kind, ·) <$> kind.parameters.mapM (raw.read kind.name) := by
  cases kind <;>
    simp only [effectOf, EffectKind.parameters, List.mapM_cons, List.mapM_nil, read, count,
      Int.natCast_zero]
  case addScoreDelta | finalScoreMultiplier | finalTotalMultiplier | modifyPlannedTurnsDelta =>
    cases raw.int _ <;> rfl
  case showInfo | forceOpponentDrawFromFront | revealNextOpponentCard |
      revealOpponentFirstAndLast => rfl
  case replaceOpponentRandomCardsToChoice | addCardsToPlayerHand | addCardsToOpponentHand =>
    cases raw.choice _ <;> cases raw.word _ 0 <;> rfl
  case addRandomCardsToPlayerHand | addRandomCardsToOpponentHand => cases raw.word _ 0 <;> rfl
  case addScorePerHandCountOfChoice => cases raw.choice _ <;> cases raw.int _ <;> rfl

section

variable {parameters : List Parameter}

theorem mapM_read_eq_ok_iff (name : String) {arguments : List Argument} :
    parameters.mapM (raw.read name) = .ok arguments ↔
      List.Forall₂ raw.Reads parameters arguments := by
  simp only [mapM_eq_ok_iff, read_eq_ok_iff]

theorem exists_arguments_iff :
    (∃ arguments, List.Forall₂ raw.Reads parameters arguments) ↔
      ∀ parameter ∈ parameters, raw.Supplies parameter := by
  induction parameters with
  | nil => simp
  | cons parameter parameters ih =>
    rw [List.forall_mem_cons, ← ih]
    constructor
    · rintro ⟨_, _ | ⟨first, rest⟩⟩
      exact ⟨⟨_, first⟩, _, rest⟩
    · rintro ⟨⟨_, first⟩, _, rest⟩
      exact ⟨_, .cons first rest⟩

variable {κ μ : Type} {form : μ → κ × List Argument} {result : Except TagProblem μ} {kind : κ}

/-- What is made of the parameters is of the kind, and its arguments are what they read. -/
theorem eq_ok_iff_of_form (injective : form.Injective)
    (forms : form <$> result = (kind, ·) <$> parameters.mapM (raw.read name)) (made : μ) :
    result = .ok made ↔ (form made).1 = kind ∧ List.Forall₂ raw.Reads parameters (form made).2 := by
  -- No two results have one form, so it is enough to look at the form.
  have there : result = .ok made ↔ form <$> result = .ok (form made) := by
    rw [map_eq_ok_iff]
    constructor
    · intro h
      exact ⟨made, h, rfl⟩
    · rintro ⟨other, h, same⟩
      rwa [← injective same]
  rw [there, forms, map_eq_ok_iff, ← mapM_read_eq_ok_iff name]
  constructor
  · rintro ⟨arguments, reading, same⟩
    rw [← same]
    exact ⟨rfl, reading⟩
  · rintro ⟨rfl, reading⟩
    exact ⟨_, reading, rfl⟩

/-- Something is made of the parameters exactly if the fields say what each of them is. -/
theorem exists_eq_ok_iff_of_form
    (forms : form <$> result = (kind, ·) <$> parameters.mapM (raw.read name)) :
    (∃ made, result = .ok made) ↔ ∀ parameter ∈ parameters, raw.Supplies parameter := by
  simp only [← exists_arguments_iff, ← mapM_read_eq_ok_iff name]
  rw [← exists_map_eq_ok_iff form, forms, exists_map_eq_ok_iff]

theorem conditionOf_eq_ok_iff {kind : ConditionKind} {condition : Condition} :
    raw.conditionOf kind = .ok condition ↔ condition.kind = kind.typed ∧
      List.Forall₂ raw.Reads kind.parameters condition.arguments :=
  eq_ok_iff_of_form Condition.form_injective (form_conditionOf raw kind) condition

theorem effectOf_eq_ok_iff {kind : EffectKind} {effect : Effect} :
    raw.effectOf kind = .ok effect ↔ effect.kind = kind ∧
      List.Forall₂ raw.Reads kind.parameters effect.arguments :=
  eq_ok_iff_of_form Effect.form_injective (form_effectOf raw kind) effect

end

end AuthoredTag

end Roshambo
