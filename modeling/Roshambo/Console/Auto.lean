import Roshambo.Console.Basic

/-!
# Automatic rounds

Rounds played by the automatic strategy. Every turn takes a card from the player's hand, so the
size of the hand bounds the turns that are left.
-/
namespace Roshambo.Console

/-- Plays on while the round is active, at most so many turns. -/
def playTurns : (turns : Nat) → Console → Except Refusal Unit × Console
  | 0, c => (.ok (), c)
  | turns + 1, c =>
    if c.game.stage ≠ .active then (.ok (), c)
    else
      match bestCounter c.game.table.player (c.game.table.counts .opponent) with
      | none => (.ok (), c)
      | some choice =>
        let (result, game) := c.game.play choice
        let c := { c with game := game }
        match result with
        | .ok turn => playTurns turns (c.sayTurn turn)
        | .error e => (.error e, c)

/-- One round from its deal to its end. -/
def autoRound (c : Console) : Except Refusal Unit × Console :=
  let c := c.start
  playTurns c.game.table.player.length c

/-- So many rounds one after another; a failure ends them all. -/
def autoRounds : (rounds : Nat) → Console → Except Refusal Unit × Console
  | 0, c => (.ok (), c)
  | rounds + 1, c =>
    match c.autoRound with
    | (.ok (), c) => autoRounds rounds c
    | (.error e, c) => (.error e, c)

/-- The whole automatic run, with its total if it succeeds. -/
def autoRun (c : Console) (rounds : UInt32) : Except Refusal Unit × Console :=
  match c.autoRounds rounds.toNat with
  | (.ok (), c) => (.ok (), c.close)
  | (.error e, c) => (.error e, c)

end Roshambo.Console
