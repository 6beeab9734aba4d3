import Roshambo.Proofs.Authoring.Malformed
import Roshambo.Proofs.Authoring.Parameters

/-!
# Well-formed tags

Which authored tags can be typed, and what becomes of them. A tag is well-formed if its role is
known, the kind field of that role names a kind, and every parameter of the kind can be read; the
filters of an effect ask for their values as well.
-/
namespace Roshambo

namespace AuthoredTag

variable {raw : AuthoredTag}

/-! ## The role -/

/-- The role of a tag: by its category, or without one by the first kind field in use. -/
inductive Plays (raw : AuthoredTag) : TagRole → Prop
  | category {role : TagRole} : Names raw.category TagRole.ofKeyword? role → Plays raw role
  | timing : LeftOpen raw.category → ¬ LeftOpen raw.timingType → Plays raw .timing
  | condition : LeftOpen raw.category → LeftOpen raw.timingType → ¬ LeftOpen raw.conditionType →
      Plays raw .condition
  | effect : LeftOpen raw.category → LeftOpen raw.timingType → LeftOpen raw.conditionType →
      ¬ LeftOpen raw.effectType → Plays raw .effect

theorem role_eq_ok_iff {role : TagRole} : raw.role = .ok role ↔ raw.Plays role := by
  constructor
  · intro resolved
    unfold AuthoredTag.role at resolved
    split at resolved
    · rename_i text category
      split at resolved
      · rename_i named
        cases resolved
        exact .category ⟨text, given_eq_some_iff.1 category, named⟩
      · cases resolved
    · rename_i absent
      have category := given_eq_none_iff.1 absent
      split_ifs at resolved with timing condition effect
      · cases resolved
        exact .timing category (isSome_given_iff.1 timing)
      · cases resolved
        exact .condition category (isSome_given_iff.not_left.1 timing)
          (isSome_given_iff.1 condition)
      · cases resolved
        exact .effect category (isSome_given_iff.not_left.1 timing)
          (isSome_given_iff.not_left.1 condition) (isSome_given_iff.1 effect)
  · intro plays
    unfold AuthoredTag.role
    cases plays with
    | category named =>
      obtain ⟨text, written, keyword⟩ := named
      simp [given_eq_some_iff.2 written, keyword]
    | timing category timing =>
      simp [given_eq_none_iff.2 category, isSome_given_iff, timing]
    | condition category timing condition =>
      simp [given_eq_none_iff.2 category, isSome_given_iff, timing, condition]
    | effect category timing condition effect =>
      simp [given_eq_none_iff.2 category, isSome_given_iff, timing, condition, effect]

/-! ## Filters -/

/-- A value is named exactly if the switch is on, and it is the one that was written. -/
def Switched {α : Type} (on : Bool) (written : α → Prop) : Option α → Prop
  | some value => on = true ∧ written value
  | none => on = false

structure Filters (raw : AuthoredTag) (filter : TurnFilter) : Prop where
  outcome : Switched raw.filterByOutcome (Names raw.outcomeParam Outcome.ofKeyword?) filter.outcome
  choice : Switched raw.filterByChoice (Names raw.choiceParam Choice.ofKeyword?) filter.choice

section

variable {α β : Type} {on : Bool}

/-- What goes on after a switch goes on with the value read, or with none. -/
theorem switch_eq_ok_iff {result : Except TagProblem α} {rest : Option α → Except TagProblem β}
    {made : β} :
    (if on = true then (some <$> result) >>= rest else pure none >>= rest) = .ok made ↔
      ∃ value, Switched on (result = .ok ·) value ∧ rest value = .ok made := by
  cases on <;> cases result <;>
    simp [Switched, Option.exists, Functor.map, Except.map, bind, Except.bind, pure, Except.pure]

theorem exists_switched_iff {written : α → Prop} :
    (∃ value, Switched on written value) ↔ (on = true → ∃ value, written value) := by
  cases on <;> simp [Option.exists, Switched]

end

theorem supplies_outcome_iff :
    raw.Supplies .outcome ↔ ∃ outcome, Names raw.outcomeParam Outcome.ofKeyword? outcome := by
  constructor
  · rintro ⟨argument, reads⟩
    cases reads with
    | outcome named => exact ⟨_, named⟩
  · rintro ⟨_, named⟩
    exact ⟨_, .outcome named⟩

theorem supplies_choice_iff :
    raw.Supplies .choice ↔ ∃ choice, Names raw.choiceParam Choice.ofKeyword? choice := by
  constructor
  · rintro ⟨argument, reads⟩
    cases reads with
    | choice named => exact ⟨_, named⟩
  · rintro ⟨_, named⟩
    exact ⟨_, .choice named⟩

theorem exists_filters_iff :
    (∃ filter, raw.Filters filter) ↔ (raw.filterByOutcome = true → raw.Supplies .outcome) ∧
      (raw.filterByChoice = true → raw.Supplies .choice) := by
  rw [supplies_outcome_iff, supplies_choice_iff, ← exists_switched_iff, ← exists_switched_iff]
  constructor
  · rintro ⟨filter, outcome, choice⟩
    exact ⟨⟨_, outcome⟩, _, choice⟩
  · rintro ⟨⟨outcome, named⟩, choice, named'⟩
    exact ⟨⟨outcome, choice⟩, named, named'⟩

theorem filterOf_eq_ok_iff {kind : EffectKind} {filter : TurnFilter} :
    raw.filterOf kind = .ok filter ↔ raw.Filters filter := by
  simp only [filterOf, switch_eq_ok_iff, outcome_eq_ok_iff, choice_eq_ok_iff]
  constructor
  · rintro ⟨outcome, named, choice, named', made⟩
    cases made
    exact ⟨named, named'⟩
  · rintro ⟨named, named'⟩
    exact ⟨_, named, _, named', rfl⟩

/-! ## Tags -/

/-- The tag that the fields spell when they are read in a role. -/
inductive Spells (raw : AuthoredTag) : TagRole → Tag → Prop
  | timing {phase : Phase} : Names raw.timingType Phase.ofKeyword? phase →
      Spells raw .timing (.timing phase)
  | condition {kind : ConditionKind} {condition : Condition} :
      Names raw.conditionType ConditionKind.ofKeyword? kind → condition.kind = kind.typed →
      List.Forall₂ raw.Reads kind.parameters condition.arguments →
      Spells raw .condition (.condition condition)
  | effect {kind : EffectKind} {effect : Effect} {filter : TurnFilter} :
      Names raw.effectType EffectKind.ofKeyword? kind → effect.kind = kind →
      List.Forall₂ raw.Reads kind.parameters effect.arguments → raw.Filters filter →
      Spells raw .effect (.effect ⟨effect, filter⟩)

/-- The kind can be read, and everything that is asked for in the role. -/
def Complete (raw : AuthoredTag) : TagRole → Prop
  | .timing => ∃ phase, Names raw.timingType Phase.ofKeyword? phase
  | .condition => ∃ kind, Names raw.conditionType ConditionKind.ofKeyword? kind ∧
      ∀ parameter ∈ kind.parameters, raw.Supplies parameter
  | .effect => ∃ kind, Names raw.effectType EffectKind.ofKeyword? kind ∧
      (∀ parameter ∈ kind.parameters, raw.Supplies parameter) ∧
      (raw.filterByOutcome = true → raw.Supplies .outcome) ∧
      (raw.filterByChoice = true → raw.Supplies .choice)

def WellFormed (raw : AuthoredTag) : Prop := ∃ role, raw.Plays role ∧ raw.Complete role

theorem ofRole_eq_ok_iff {role : TagRole} {tag : Tag} :
    raw.ofRole role = .ok tag ↔ raw.Spells role tag := by
  constructor
  · intro typed
    cases role with
    | timing =>
      obtain ⟨phase, named, made⟩ := bind_eq_ok_iff.1 typed
      cases made
      exact .timing ((kindOf_eq_ok_iff Phase.keywords).1 named)
    | condition =>
      obtain ⟨kind, named, rest⟩ := bind_eq_ok_iff.1 typed
      obtain ⟨condition, conditionOf, made⟩ := bind_eq_ok_iff.1 rest
      cases made
      obtain ⟨kinds, reads⟩ := conditionOf_eq_ok_iff.1 conditionOf
      exact .condition ((kindOf_eq_ok_iff ConditionKind.keywords).1 named) kinds reads
    | effect =>
      obtain ⟨kind, named, rest⟩ := bind_eq_ok_iff.1 typed
      obtain ⟨effect, effectOf, rest⟩ := bind_eq_ok_iff.1 rest
      obtain ⟨filter, filterOf, made⟩ := bind_eq_ok_iff.1 rest
      cases made
      obtain ⟨kinds, reads⟩ := effectOf_eq_ok_iff.1 effectOf
      exact .effect ((kindOf_eq_ok_iff EffectKind.keywords).1 named) kinds reads
        (filterOf_eq_ok_iff.1 filterOf)
  · intro spells
    cases spells with
    | timing named =>
      exact bind_eq_ok_iff.2 ⟨_, (kindOf_eq_ok_iff Phase.keywords).2 named, rfl⟩
    | condition named kinds reads =>
      exact bind_eq_ok_iff.2 ⟨_, (kindOf_eq_ok_iff ConditionKind.keywords).2 named,
        bind_eq_ok_iff.2 ⟨_, conditionOf_eq_ok_iff.2 ⟨kinds, reads⟩, rfl⟩⟩
    | effect named kinds reads filters =>
      exact bind_eq_ok_iff.2 ⟨_, (kindOf_eq_ok_iff EffectKind.keywords).2 named,
        bind_eq_ok_iff.2 ⟨_, effectOf_eq_ok_iff.2 ⟨kinds, reads⟩,
          bind_eq_ok_iff.2 ⟨_, filterOf_eq_ok_iff.2 filters, rfl⟩⟩⟩

theorem complete_iff {role : TagRole} : raw.Complete role ↔ ∃ tag, raw.Spells role tag := by
  constructor
  · intro complete
    cases role with
    | timing =>
      obtain ⟨phase, named⟩ := complete
      exact ⟨_, .timing named⟩
    | condition =>
      obtain ⟨kind, named, supplied⟩ := complete
      obtain ⟨condition, made⟩ := (exists_eq_ok_iff_of_form (form_conditionOf raw kind)).2 supplied
      obtain ⟨kinds, reads⟩ := conditionOf_eq_ok_iff.1 made
      exact ⟨_, .condition named kinds reads⟩
    | effect =>
      obtain ⟨kind, named, supplied, switched⟩ := complete
      obtain ⟨effect, made⟩ := (exists_eq_ok_iff_of_form (form_effectOf raw kind)).2 supplied
      obtain ⟨kinds, reads⟩ := effectOf_eq_ok_iff.1 made
      obtain ⟨filter, filters⟩ := exists_filters_iff.2 switched
      exact ⟨_, .effect named kinds reads filters⟩
  · rintro ⟨tag, spells⟩
    cases spells with
    | timing named => exact ⟨_, named⟩
    | condition named kinds reads => exact ⟨_, named, exists_arguments_iff.1 ⟨_, reads⟩⟩
    | effect named kinds reads filters =>
      exact ⟨_, named, exists_arguments_iff.1 ⟨_, reads⟩, exists_filters_iff.1 ⟨_, filters⟩⟩

theorem typed_eq_of_spells {role : TagRole} {tag : Tag} (plays : raw.Plays role)
    (spells : raw.Spells role tag) : raw.typed = tag := by
  simp only [typed, role_eq_ok_iff.2 plays, ofRole_eq_ok_iff.2 spells]

theorem spells_typed (valid : ∀ bad, raw.typed ≠ .invalid bad) :
    ∃ role, raw.Plays role ∧ raw.Spells role raw.typed := by
  cases resolved : raw.role with
  | error problem => exact absurd (by simp only [typed, resolved]) (valid ⟨none, problem⟩)
  | ok role =>
    cases made : raw.ofRole role with
    | error problem =>
      exact absurd (by simp only [typed, resolved, made]) (valid ⟨some role, problem⟩)
    | ok tag =>
      have typed_eq : raw.typed = tag := by simp only [typed, resolved, made]
      rw [typed_eq]
      exact ⟨role, role_eq_ok_iff.1 resolved, ofRole_eq_ok_iff.1 made⟩

theorem typed_ne_invalid_iff : (∀ bad, raw.typed ≠ .invalid bad) ↔ raw.WellFormed := by
  constructor
  · intro valid
    obtain ⟨role, plays, spells⟩ := spells_typed valid
    exact ⟨role, plays, complete_iff.2 ⟨raw.typed, spells⟩⟩
  · rintro ⟨role, plays, complete⟩
    obtain ⟨tag, spells⟩ := complete_iff.1 complete
    rw [typed_eq_of_spells plays spells]
    exact ne_invalid_of_ofRole (ofRole_eq_ok_iff.2 spells)

/-- What becomes of an authored tag. -/
structure Conversion (raw : AuthoredTag) (tag : Tag) : Prop where
  typed_iff : (∀ bad, tag ≠ .invalid bad) ↔ raw.WellFormed
  /-- A typed tag is the one tag that the fields spell. -/
  spelled : raw.WellFormed →
    ∀ other, (∃ role, raw.Plays role ∧ raw.Spells role other) ↔ other = tag
  /-- An invalid tag has the role that is known, and none if no role is known. -/
  role_iff : ∀ bad, tag = .invalid bad → ∀ role, bad.role = some role ↔ raw.Plays role

/-- Exactly the well-formed tags are typed, each as its fields spell it; the others keep their
role. -/
theorem conversion_typed (raw : AuthoredTag) : raw.Conversion raw.typed where
  typed_iff := typed_ne_invalid_iff
  spelled := by
    intro formed other
    constructor
    · rintro ⟨role, plays, spells⟩
      exact (typed_eq_of_spells plays spells).symm
    · rintro rfl
      exact spells_typed (typed_ne_invalid_iff.2 formed)
  role_iff := by
    intro bad invalid role
    obtain ⟨problem, typed_eq⟩ := Malformed.typed_eq ⟨bad, invalid⟩
    rw [invalid] at typed_eq
    cases typed_eq
    rw [← role_eq_ok_iff]
    cases raw.role <;> simp [Except.toOption]

/-- A streak of draws needs no outcome, and a length of none is moved up to one. -/
example :
    ({ conditionType := some "consecutive-draw-with-choice-is", choiceParam := some "Rock",
       intValue := some 0 } : AuthoredTag).typed = .condition (.streak .draw .rock 1) := by
  decide +kernel

end AuthoredTag

end Roshambo
