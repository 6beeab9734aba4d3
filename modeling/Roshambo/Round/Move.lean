import Roshambo.Round.Game

/-!
# Moves and runs

Everything that can be done to a game, as a value, and what a sequence of moves leaves behind. A
move that is refused belongs to a run like any other. `run_append` cuts a run in two, and
`run_induction` carries a property along a run.
-/
namespace Roshambo

inductive Move where
  | enable (rule : Rule)
  | toggle (rule : Rule)
  | clear
  | start
  | reroll
  | play (choice : Choice)
  deriving DecidableEq

namespace Game

/-- The game that a move leaves. -/
def after (g : Game) : Move → Game
  | .enable rule => (g.enable rule).2
  | .toggle rule => (g.toggle rule).2
  | .clear => g.clear
  | .start => g.start.2
  | .reroll => g.reroll.2
  | .play choice => (g.play choice).2

/-- The game that moves leave, one after another. -/
def run (g : Game) (moves : List Move) : Game := moves.foldl after g

@[simp] theorem run_nil (g : Game) : g.run [] = g := rfl

@[simp] theorem run_cons (g : Game) (move : Move) (moves : List Move) :
    g.run (move :: moves) = (g.after move).run moves := rfl

theorem run_append (g : Game) (first second : List Move) :
    g.run (first ++ second) = (g.run first).run second :=
  List.foldl_append

/-- What holds of a game and is kept by every move holds after every run. -/
theorem run_induction {P : Game → Prop} {g : Game} (base : P g)
    (step : ∀ g move, P g → P (g.after move)) (moves : List Move) : P (g.run moves) := by
  induction moves generalizing g with
  | nil => exact base
  | cons move moves ih => exact ih (step g move base)

end Game

end Roshambo
