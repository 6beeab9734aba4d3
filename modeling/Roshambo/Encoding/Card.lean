import Roshambo.Card
import Roshambo.Json.Record

/-!
# JSON form of cards and counts
-/
namespace Roshambo

open Json

instance : Codec Choice where
  encode c := .str c.name
  decode? := decodeName? Choice.all Choice.name

instance : Codec Outcome where
  encode o := .str o.name
  decode? := decodeName? [.win, .draw, .loss] Outcome.name

instance : Codec Side where
  encode s := .str s.name
  decode? := decodeName? [.player, .opponent] Side.name

instance : Codec CardCounts where
  encode c :=
    .obj [("rock", encode c.rock), ("paper", encode c.paper), ("scissors", encode c.scissors)]
  decode? v := do
    let s ← Source.ofValue? v
    let (rock, s) ← s.required "rock"
    let (paper, s) ← s.required "paper"
    let (scissors, s) ← s.required "scissors"
    s.finish
    return ⟨rock, paper, scissors⟩

instance : Lawful Choice := ⟨fun c => by cases c <;> rfl⟩
instance : Lawful Outcome := ⟨fun o => by cases o <;> rfl⟩
instance : Lawful Side := ⟨fun s => by cases s <;> rfl⟩

instance : NeverNull Choice := ⟨fun _ => nofun⟩
instance : NeverNull Outcome := ⟨fun _ => nofun⟩
instance : NeverNull Side := ⟨fun _ => nofun⟩
instance : NeverNull CardCounts := ⟨fun _ => nofun⟩

end Roshambo
