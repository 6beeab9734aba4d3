import Roshambo.Encoding.Round
import Roshambo.Encoding.Setup

/-!
# What is written is read back

Every type with a JSON form is lawful: reading a written value gives it back. A record is read field
by field, each found under the name it was written with; a variant is told by its name, and its
values are read in turn. The law of a type rests on those of its parts, so a new variant or field
asks for one more line here.
-/
namespace Roshambo

open Json Json.Source

/-! ## Names and counts -/

instance : Lawful Phase := ⟨fun p => by cases p <;> rfl⟩
instance : Lawful TagRole := ⟨fun r => by cases r <;> rfl⟩
instance : Lawful Archetype := ⟨fun a => by cases a <;> rfl⟩

instance : Lawful CardCounts where
  decode?_encode _ := read_obj <| read_required rfl <| read_required rfl <| read_required rfl rfl

/-! ## Setups -/

instance : Lawful HandSetup where
  decode?_encode _ :=
    read_obj <| read_required rfl <| read_defaulted rfl <| read_defaulted rfl <|
      read_defaulted rfl rfl

instance : Lawful Scoring where
  decode?_encode _ := read_obj <| read_required rfl <| read_required rfl <| read_required rfl rfl

instance : Lawful RoundSetup where
  decode?_encode _ :=
    read_obj <| read_defaulted rfl <| read_defaulted rfl <| read_defaulted rfl <|
      read_defaulted rfl <| read_defaulted rfl rfl

/-! ## Tags -/

/-- The number stands under another key than the choice. -/
theorem decodeChoiceAnd?_encode {key : String} (other : key ≠ "choice") (choice : Choice)
    (number : UInt32) :
    decodeChoiceAnd? key (encodeChoiceAnd key choice number) = some (choice, number) := by
  have first : find? [("choice", encode choice), (key, encode number)] ["choice"]
      = some (some (encode choice)) := by simp [find?, other]
  have second : find? [("choice", encode choice), (key, encode number)] [key]
      = some (some (encode number)) := by simp [find?, other.symm]
  exact read_obj <| read_required first <| read_required second rfl

@[simp] theorem decodeChoiceAnd?_count (choice : Choice) (count : UInt32) :
    decodeChoiceAnd? "count" (encodeChoiceAnd "count" choice count) = some (choice, count) :=
  decodeChoiceAnd?_encode (by decide) choice count

@[simp] theorem decodeChoiceAnd?_turn (choice : Choice) (turn : UInt32) :
    decodeChoiceAnd? "turn" (encodeChoiceAnd "turn" choice turn) = some (choice, turn) :=
  decodeChoiceAnd?_encode (by decide) choice turn

instance : Lawful Condition where
  decode?_encode condition := by
    -- both directions are opened, so that the name of a variant picks its branch
    delta instCodecCondition
    cases condition with
    | streak outcome choice count =>
      simp only [Variant.read_tag]
      exact read_obj <| read_required rfl <| read_required rfl <| read_required rfl rfl
    | _ => simp

instance : Lawful Effect where
  decode?_encode effect := by
    delta instCodecEffect
    cases effect with
    | revealNextOpponentCard => rfl
    | revealOpponentFirstAndLast => rfl
    | addCards side choice count =>
      simp only [Variant.read_tag]
      exact read_obj <| read_required rfl <| read_required rfl <| read_required rfl rfl
    | addRandomCards side count =>
      simp only [Variant.read_tag]
      exact read_obj <| read_required rfl <| read_required rfl rfl
    | addScorePerCard choice perCard =>
      simp only [Variant.read_tag]
      exact read_obj <| read_required rfl <| read_required rfl rfl
    | _ => simp

instance : Lawful TurnFilter where
  decode?_encode _ := read_obj <| read_defaulted rfl <| read_defaulted rfl rfl

instance : Lawful GuardedEffect where
  decode?_encode _ := read_obj <| read_required rfl <| read_defaulted rfl rfl

instance : Lawful TagProblem where
  decode?_encode problem := by
    delta instCodecTagProblem
    cases problem with
    | missingKind => rfl
    | missingParameter kind parameter =>
      simp only [Variant.read_tag]
      exact read_obj <| read_required rfl <| read_required rfl rfl
    | invalidParameter kind parameter value =>
      simp only [Variant.read_tag]
      exact read_obj <| read_required rfl <| read_required rfl <| read_required rfl rfl
    | _ => simp

instance : Lawful InvalidTag where
  decode?_encode _ := read_obj <| read_optional rfl <| read_required rfl rfl

instance : Lawful Tag where
  decode?_encode tag := by
    delta instCodecTag
    cases tag <;> simp

/-! ## Rules and their diagnostics -/

instance : Lawful Rule where
  decode?_encode _ :=
    read_obj <| read_required rfl <| read_defaulted rfl <| read_defaulted rfl <|
      read_defaulted rfl <| read_required rfl rfl

instance : Lawful Problem where
  decode?_encode problem := by
    delta instCodecProblem
    cases problem with
    | noTags => rfl
    | noTiming => rfl
    | _ => simp

instance : Lawful Diagnostic where
  decode?_encode _ := read_obj <| read_required rfl <| read_optional rfl <| read_required rfl rfl

instance : Lawful AuthoredTag where
  decode?_encode _ :=
    read_obj <| read_defaulted rfl <| read_defaulted rfl <| read_defaulted rfl <|
      read_defaulted rfl <| read_defaulted rfl <| read_defaulted rfl <| read_defaulted rfl <|
        read_defaulted rfl <| read_defaulted rfl <| read_defaulted rfl rfl

instance : Lawful AuthoredRule where
  decode?_encode _ :=
    read_obj <| read_defaulted rfl <| read_defaulted rfl <| read_defaulted rfl <|
      read_defaulted rfl <| read_defaulted rfl rfl

/-! ## Events, reports and scorecards -/

instance : Lawful Event where
  decode?_encode event := by
    delta instCodecEvent
    cases event with
    | ruleToggled name enabled =>
      simp only [Variant.read_tag]
      exact read_obj <| read_required rfl <| read_required rfl rfl
    | rulesCleared => rfl
    | roundStarted player opponent turns rerolls =>
      simp only [Variant.read_tag]
      exact read_obj <| read_required rfl <| read_required rfl <| read_required rfl <|
        read_required rfl rfl
    | handRerolled player rerollsLeft =>
      simp only [Variant.read_tag]
      exact read_obj <| read_required rfl <| read_required rfl rfl
    | ruleFired phase name =>
      simp only [Variant.read_tag]
      exact read_obj <| read_required rfl <| read_required rfl rfl
    | turnsAdjusted delta planned again =>
      simp only [Variant.read_tag]
      exact read_obj <| read_required rfl <| read_required rfl <| read_required rfl rfl
    | handMutated rule side choice count again =>
      simp only [Variant.read_tag]
      exact read_obj <| read_required rfl <| read_required rfl <| read_optional rfl <|
        read_required rfl <| read_required rfl rfl
    | cardRevealed rule card =>
      simp only [Variant.read_tag]
      exact read_obj <| read_required rfl <| read_required rfl rfl
    | frontDrawSet rule =>
      simp only [Variant.read_tag]
      exact read_obj <| read_required rfl rfl
    | infoShown text =>
      simp only [Variant.read_tag]
      exact read_obj <| read_required rfl rfl
    | turnResolved turn player opponent outcome delta total =>
      simp only [Variant.read_tag]
      exact read_obj <| read_required rfl <| read_required rfl <| read_required rfl <|
        read_required rfl <| read_required rfl <| read_required rfl rfl
    | roundFinished total adjustment turnsPlayed turnsPlanned =>
      simp only [Variant.read_tag]
      exact read_obj <| read_required rfl <| read_required rfl <| read_required rfl <|
        read_required rfl rfl

instance : Lawful PassReport where
  decode?_encode _ :=
    read_obj <| read_required rfl <| read_required rfl <| read_required rfl <|
      read_optional rfl <| read_required rfl rfl

instance : Lawful Scorecard where
  decode?_encode _ :=
    read_obj <| read_required rfl <| read_required rfl <| read_required rfl <|
      read_required rfl <| read_required rfl <| read_required rfl <| read_required rfl <|
        read_required rfl rfl

/-- Rules, events, reports, setups and scorecards survive being written and read, whatever they
hold. -/
theorem survives_json :
    (∀ rule : Rule, decode? (encode rule) = some rule) ∧
    (∀ event : Event, decode? (encode event) = some event) ∧
    (∀ report : PassReport, decode? (encode report) = some report) ∧
    (∀ setup : RoundSetup, decode? (encode setup) = some setup) ∧
    (∀ card : Scorecard, decode? (encode card) = some card) :=
  ⟨decode?_encode, decode?_encode, decode?_encode, decode?_encode, decode?_encode⟩

end Roshambo
