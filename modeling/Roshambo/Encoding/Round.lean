import Roshambo.Encoding.Rule
import Roshambo.Pass.Report
import Roshambo.Round.Event
import Roshambo.Round.Game

/-!
# JSON form of events, reports and scorecards
-/
namespace Roshambo

open Json

instance : Codec Event where
  encode
    | .ruleToggled name enabled =>
      Variant.tag "RuleToggled" (.obj [("name", encode name), ("enabled", encode enabled)])
    | .rulesCleared => .str "RulesCleared"
    | .roundStarted player opponent turns rerolls =>
      Variant.tag "RoundStarted"
        (.obj [("player", encode player), ("opponent", encode opponent), ("turns", encode turns),
          ("rerolls", encode rerolls)])
    | .handRerolled player rerollsLeft =>
      Variant.tag "HandRerolled"
        (.obj [("player", encode player), ("rerolls_left", encode rerollsLeft)])
    | .ruleFired phase name =>
      Variant.tag "RuleFired" (.obj [("phase", encode phase), ("name", encode name)])
    | .turnsAdjusted delta planned again =>
      Variant.tag "TurnsAdjusted"
        (.obj [("delta", encode delta), ("planned", encode planned),
          ("reapply", encode again)])
    | .handMutated rule side choice count again =>
      Variant.tag "HandMutated"
        (.obj [("rule", encode rule), ("side", encode side), ("choice", encode choice),
          ("count", encode count), ("reapply", encode again)])
    | .cardRevealed rule card =>
      Variant.tag "CardRevealed" (.obj [("rule", encode rule), ("card", encode card)])
    | .frontDrawSet rule => Variant.tag "DrawPolicySet" (.obj [("rule", encode rule)])
    | .infoShown text => Variant.tag "InfoShown" (.obj [("text", encode text)])
    | .turnResolved turn player opponent outcome delta total =>
      Variant.tag "TurnResolved"
        (.obj [("turn", encode turn), ("player", encode player), ("opponent", encode opponent),
          ("outcome", encode outcome), ("delta", encode delta), ("total", encode total)])
    | .roundFinished total adjustment turnsPlayed turnsPlanned =>
      Variant.tag "RoundFinished"
        (.obj [("total", encode total), ("adjustment", encode adjustment),
          ("turns_played", encode turnsPlayed), ("turns_planned", encode turnsPlanned)])
  decode? v := do
    let variant ← Variant.ofValue? v
    match variant with
    | .tagged "RuleToggled" v =>
      let s ← Source.ofValue? v
      let (name, s) ← s.required "name"
      let (enabled, s) ← s.required "enabled"
      s.finish
      return .ruleToggled name enabled
    | .tagged "RoundStarted" v =>
      let s ← Source.ofValue? v
      let (player, s) ← s.required "player"
      let (opponent, s) ← s.required "opponent"
      let (turns, s) ← s.required "turns"
      let (rerolls, s) ← s.required "rerolls"
      s.finish
      return .roundStarted player opponent turns rerolls
    | .tagged "HandRerolled" v =>
      let s ← Source.ofValue? v
      let (player, s) ← s.required "player"
      let (rerollsLeft, s) ← s.required "rerolls_left"
      s.finish
      return .handRerolled player rerollsLeft
    | .tagged "RuleFired" v =>
      let s ← Source.ofValue? v
      let (phase, s) ← s.required "phase"
      let (name, s) ← s.required "name"
      s.finish
      return .ruleFired phase name
    | .tagged "TurnsAdjusted" v =>
      let s ← Source.ofValue? v
      let (delta, s) ← s.required "delta"
      let (planned, s) ← s.required "planned"
      let (again, s) ← s.required "reapply"
      s.finish
      return .turnsAdjusted delta planned again
    | .tagged "HandMutated" v =>
      let s ← Source.ofValue? v
      let (rule, s) ← s.required "rule"
      let (side, s) ← s.required "side"
      let (choice, s) ← s.optional "choice"
      let (count, s) ← s.required "count"
      let (again, s) ← s.required "reapply"
      s.finish
      return .handMutated rule side choice count again
    | .tagged "CardRevealed" v =>
      let s ← Source.ofValue? v
      let (rule, s) ← s.required "rule"
      let (card, s) ← s.required "card"
      s.finish
      return .cardRevealed rule card
    | .tagged "DrawPolicySet" v =>
      let s ← Source.ofValue? v
      let (rule, s) ← s.required "rule"
      s.finish
      return .frontDrawSet rule
    | .tagged "InfoShown" v =>
      let s ← Source.ofValue? v
      let (text, s) ← s.required "text"
      s.finish
      return .infoShown text
    | .tagged "TurnResolved" v =>
      let s ← Source.ofValue? v
      let (turn, s) ← s.required "turn"
      let (player, s) ← s.required "player"
      let (opponent, s) ← s.required "opponent"
      let (outcome, s) ← s.required "outcome"
      let (delta, s) ← s.required "delta"
      let (total, s) ← s.required "total"
      s.finish
      return .turnResolved turn player opponent outcome delta total
    | .tagged "RoundFinished" v =>
      let s ← Source.ofValue? v
      let (total, s) ← s.required "total"
      let (adjustment, s) ← s.required "adjustment"
      let (turnsPlayed, s) ← s.required "turns_played"
      let (turnsPlanned, s) ← s.required "turns_planned"
      s.finish
      return .roundFinished total adjustment turnsPlayed turnsPlanned
    | variant =>
      match ← variant.unitName? with
      | "RulesCleared" => return .rulesCleared
      | _ => none

instance : Codec PassReport where
  encode r :=
    .obj [("phase", encode r.phase), ("score_delta", encode r.delta),
      ("fired", encode r.fired), ("info", encode r.info),
      ("diagnostics", encode r.diagnostics)]
  decode? v := do
    let s ← Source.ofValue? v
    let (phase, s) ← s.required "phase"
    let (delta, s) ← s.required "score_delta"
    let (fired, s) ← s.required "fired"
    let (info, s) ← s.optional "info"
    let (diagnostics, s) ← s.required "diagnostics"
    s.finish
    return ⟨phase, delta, fired, info, diagnostics⟩

instance : Codec Scorecard where
  encode r :=
    .obj [("score", encode r.score), ("wins", encode r.wins), ("draws", encode r.draws),
      ("losses", encode r.losses), ("turns_played", encode r.turnsPlayed),
      ("turns_planned", encode r.turnsPlanned), ("rerolls_used", encode r.rerolls),
      ("final_adjustment", encode r.adjustment)]
  decode? v := do
    let s ← Source.ofValue? v
    let (score, s) ← s.required "score"
    let (wins, s) ← s.required "wins"
    let (draws, s) ← s.required "draws"
    let (losses, s) ← s.required "losses"
    let (turnsPlayed, s) ← s.required "turns_played"
    let (turnsPlanned, s) ← s.required "turns_planned"
    let (rerolls, s) ← s.required "rerolls_used"
    let (adjustment, s) ← s.required "final_adjustment"
    s.finish
    return ⟨score, wins, draws, losses, turnsPlayed, turnsPlanned, rerolls, adjustment⟩

end Roshambo
