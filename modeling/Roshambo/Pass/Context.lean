import Roshambo.Card

/-!
# Context of a pass

What the rules of one pass may look at besides the host, and what they may add to: the score delta
and the line of information. A context is made afresh for every pass.
-/
namespace Roshambo

structure Context where
  choice : Option Choice := none
  outcome : Option Outcome := none
  /-- The current turn, counted from one; zero between turns. -/
  turn : UInt32 := 0
  planned : UInt32 := 0
  isLastTurn : Bool := false
  rerolls : UInt32 := 0
  /-- The running total before this pass. -/
  total : Int64 := 0
  played : List Choice := []
  outcomes : List Outcome := []
  delta : Int64 := 0
  /-- The line to show; the last write of a pass wins. -/
  info : Option String := none
  deriving DecidableEq

namespace Context

/-- The turn is the last one when it is the planned one. -/
def atTurn (turn planned : UInt32) : Context where
  turn := turn
  planned := planned
  isLastTurn := 1 ≤ turn && turn == planned

/-- The completed turns, each as the choice played and its outcome. -/
def turns (c : Context) : List (Choice × Outcome) := c.played.zip c.outcomes

/-- The last `n` turns, if the two histories agree in length and hold that many. -/
def lastTurns? (c : Context) (n : Nat) : Option (List (Choice × Outcome)) :=
  if c.played.length = c.outcomes.length ∧ n ≤ c.played.length then
    some (c.turns.drop (c.played.length - n))
  else none

end Context

end Roshambo
