import Roshambo.Json.Record
import Roshambo.Setup

/-!
# JSON form of setups

Every field of a round has its standard value when it is left out. A hand must give its size and is
guaranteed nothing that it leaves out; the scoring must be complete.
-/
namespace Roshambo

open Json

instance : Codec HandSetup where
  encode h :=
    .obj [("size", encode h.size), ("guaranteed_rock", encode h.rock),
      ("guaranteed_paper", encode h.paper), ("guaranteed_scissors", encode h.scissors)]
  decode? v := do
    let s ← Source.ofValue? v
    let (size, s) ← s.required "size"
    let (rock, s) ← s.defaulted ["guaranteed_rock"] 0
    let (paper, s) ← s.defaulted ["guaranteed_paper"] 0
    let (scissors, s) ← s.defaulted ["guaranteed_scissors"] 0
    s.finish
    return ⟨size, rock, paper, scissors⟩

instance : Codec Scoring where
  encode r := .obj [("win", encode r.win), ("draw", encode r.draw), ("loss", encode r.loss)]
  decode? v := do
    let s ← Source.ofValue? v
    let (win, s) ← s.required "win"
    let (draw, s) ← s.required "draw"
    let (loss, s) ← s.required "loss"
    s.finish
    return ⟨win, draw, loss⟩

instance : Codec RoundSetup where
  encode c :=
    .obj [("turns_to_play", encode c.turns), ("reroll_max", encode c.maxRerolls),
      ("player", encode c.player), ("opponent", encode c.opponent),
      ("scores", encode c.scores)]
  decode? v := do
    let standard := RoundSetup.standard
    let s ← Source.ofValue? v
    let (turns, s) ← s.defaulted ["turns_to_play"] standard.turns
    let (maxRerolls, s) ← s.defaulted ["reroll_max"] standard.maxRerolls
    let (player, s) ← s.defaulted ["player"] standard.player
    let (opponent, s) ← s.defaulted ["opponent"] standard.opponent
    let (scores, s) ← s.defaulted ["scores"] standard.scores
    s.finish
    return ⟨turns, maxRerolls, player, opponent, scores⟩

end Roshambo
