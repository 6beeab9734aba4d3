import Roshambo.Authoring.Basic
import Roshambo.Encoding.Tag
import Roshambo.Rule.Diagnostic

/-!
# JSON form of rules

A typed rule must give its name and its tags. An authored rule need not give anything; its name may
also stand under another key. A rule file holds a list of authored rules or a single one.
-/
namespace Roshambo

open Json

instance : Codec Archetype where
  encode a := .str a.name
  decode? := decodeName? [.anchor, .payoff, .catalyst, .utility] Archetype.name

instance : Codec Rule where
  encode r :=
    .obj [("name", encode r.name), ("description", encode r.description),
      ("archetypes", encode r.archetypes), ("weight", encode r.weight), ("tags", encode r.tags)]
  decode? v := do
    let s ← Source.ofValue? v
    let (name, s) ← s.required "name"
    let (description, s) ← s.defaulted ["description"] ""
    let (archetypes, s) ← s.defaulted ["archetypes"] []
    let (weight, s) ← s.defaulted ["weight"] 1
    let (tags, s) ← s.required "tags"
    s.finish
    return ⟨name, description, archetypes, weight, tags⟩

instance : Codec Problem where
  encode
    | .tag problem => Variant.tag "Tag" (encode problem)
    | .notOffered operation => Variant.tag "MissingCollaborator" (encode operation)
    | .noTags => .str "NoTags"
    | .noTiming => .str "NoTiming"
  decode? v := do
    let variant ← Variant.ofValue? v
    match variant with
    | .tagged "Tag" v => (decode? v).map .tag
    | .tagged "MissingCollaborator" v => (decode? v).map .notOffered
    | variant =>
      match ← variant.unitName? with
      | "NoTags" => return .noTags
      | "NoTiming" => return .noTiming
      | _ => none

instance : Codec Diagnostic where
  encode d :=
    .obj [("rule", encode d.rule), ("role", encode d.role), ("problem", encode d.problem)]
  decode? v := do
    let s ← Source.ofValue? v
    let (rule, s) ← s.required "rule"
    let (role, s) ← s.optional "role"
    let (problem, s) ← s.required "problem"
    s.finish
    return ⟨rule, role, problem⟩

instance : Codec AuthoredTag where
  encode t :=
    .obj [("category", encode t.category), ("timingType", encode t.timingType),
      ("conditionType", encode t.conditionType), ("effectType", encode t.effectType),
      ("outcomeParam", encode t.outcomeParam), ("choiceParam", encode t.choiceParam),
      ("intValue", encode t.intValue), ("stringValue", encode t.stringValue),
      ("filterByOutcome", encode t.filterByOutcome),
      ("filterByChoice", encode t.filterByChoice)]
  decode? v := do
    let s ← Source.ofValue? v
    let (category, s) ← s.defaulted ["category"] none
    let (timingType, s) ← s.defaulted ["timingType"] none
    let (conditionType, s) ← s.defaulted ["conditionType"] none
    let (effectType, s) ← s.defaulted ["effectType"] none
    let (outcomeParam, s) ← s.defaulted ["outcomeParam"] none
    let (choiceParam, s) ← s.defaulted ["choiceParam"] none
    let (intValue, s) ← s.defaulted ["intValue"] none
    let (stringValue, s) ← s.defaulted ["stringValue"] none
    let (filterByOutcome, s) ← s.defaulted ["filterByOutcome"] false
    let (filterByChoice, s) ← s.defaulted ["filterByChoice"] false
    s.finish
    return ⟨category, timingType, conditionType, effectType, outcomeParam, choiceParam, intValue,
      stringValue, filterByOutcome, filterByChoice⟩

instance : Codec AuthoredRule where
  encode r :=
    .obj [("name", encode r.name), ("description", encode r.description),
      ("archetypes", encode r.archetypes), ("weight", encode r.weight), ("tags", encode r.tags)]
  decode? v := do
    let s ← Source.ofValue? v
    let (name, s) ← s.defaulted ["name", "jokerName"] ""
    let (description, s) ← s.defaulted ["description"] ""
    let (archetypes, s) ← s.defaulted ["archetypes"] []
    let (weight, s) ← s.defaulted ["weight"] none
    let (tags, s) ← s.defaulted ["tags"] []
    s.finish
    return ⟨name, description, archetypes, weight, tags⟩

/-- How deep a rule file may nest. -/
def ruleFileDepth : Nat := 127

/-- The rules of a file: a list of them if the value can be read as one, else a single rule. The
whole value is held before it is known which, so all of it must be holdable. -/
def decodeRuleFile? (v : Value) : Option (List AuthoredRule) :=
  if v.holdable ruleFileDepth then
    match (decode? v : Option (List AuthoredRule)) with
    | some rules => some rules
    | none => (decode? v : Option AuthoredRule).map ([·])
  else none

end Roshambo
