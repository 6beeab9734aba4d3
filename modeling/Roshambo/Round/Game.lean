import Roshambo.Round.Phases
import Roshambo.Round.Table

/-!
# Games

One player's run of rounds: a table, a referee, the history of the turns played and the log of
events. Starting a round deals and runs its first two phases; a turn runs turn start, draws and
judges, runs settlement, and ends the round when the plan or a hand is used up. An operation
answers beside the game that it leaves, so that what a refused call leaves can be seen.
-/
namespace Roshambo

inductive Refusal where
  | notActive
  | cardNotHeld (choice : Choice)
  | rerollTooLate
  | rerollsUsedUp
  | opponentOutOfCards
  deriving DecidableEq

def Refusal.message : Refusal → String
  | notActive => "round is not active"
  | cardNotHeld choice => "no " ++ choice.name ++ " card left in hand"
  | rerollTooLate => "reroll is only possible before the first card"
  | rerollsUsedUp => "no rerolls left"
  | opponentOutOfCards => "opponent has no cards left"

inductive Stage where
  | idle
  | active
  | finished
  deriving DecidableEq

def Stage.name : Stage → String
  | idle => "Idle"
  | active => "Active"
  | finished => "Finished"

structure Scorecard where
  score : Int64
  wins : UInt32
  draws : UInt32
  losses : UInt32
  turnsPlayed : UInt32
  turnsPlanned : UInt32
  rerolls : UInt32
  /-- What the round-end pass added; the score includes it. -/
  adjustment : Int64
  deriving DecidableEq

structure TurnRecord where
  turn : UInt32
  player : Choice
  opponent : Choice
  outcome : Outcome
  base : Int64
  /-- Added at turn start, before the card was played. -/
  startDelta : Int64
  /-- The delta of the settlement, the base score included. -/
  delta : Int64
  total : Int64
  reports : List PassReport
  finished : Option Scorecard
  deriving DecidableEq

structure Game where
  table : Table
  referee : Referee := {}
  stage : Stage := .idle
  played : List Choice := []
  outcomes : List Outcome := []
  adjustment : Int64 := 0
  events : List Event := []
  deriving DecidableEq

namespace Game

/-- A game before its first round. -/
def ofSeed (setup : RoundSetup) (seed : UInt64) : Game := { table := .ofSeed setup seed }

def emit (g : Game) (event : Event) : Game := { g with events := g.events ++ [event] }

/-- Moves the referee's events to the end of the game's log. -/
def collect (g : Game) : Game :=
  let (events, referee) := g.referee.takeEvents
  { g with referee := referee, events := g.events ++ events }

def takeEvents (g : Game) : List Event × Game := (g.events, { g with events := [] })

def takeLines (g : Game) : List String × Game :=
  let (shown, table) := g.table.takeLines
  (shown, { g with table := table })

/-! ## Contexts -/

/-- What a pass between turns may look at. -/
def betweenTurns (g : Game) : Context :=
  { Context.atTurn 0 g.table.plan with rerolls := g.table.rerolls }

/-- What a pass of a turn may look at. The history holds completed turns; at settlement the
current turn is one of them. -/
def duringTurn (g : Game) (turn : UInt32) : Context :=
  { Context.atTurn turn g.table.plan with
    total := g.table.total
    rerolls := g.table.rerolls
    played := g.played
    outcomes := g.outcomes }

/-- What the pass at the end of the round may look at. -/
def afterTurns (g : Game) : Context :=
  { g.duringTurn (UInt32.ofNat g.played.length) with isLastTurn := true }

/-- Runs a pass over the game's own table. -/
def runPhase (g : Game) (phase : Referee → Table → Referee.PassResult Table) :
    PassReport × Game :=
  let r := phase g.referee g.table
  (r.report, { g with referee := r.referee, table := r.host })

/-! ## Rules -/

def enable (g : Game) (rule : Rule) : Bool × Game :=
  let (added, referee) := g.referee.enable rule
  (added, { g with referee := referee }.collect)

/-- Within a round the rules are checked again, for information only. -/
def toggle (g : Game) (rule : Rule) : (Toggle × Option PassReport) × Game :=
  let (toggle, referee) := g.referee.toggle rule
  let g := { g with referee := referee }
  if g.stage = .active then
    let (report, g) := g.runPhase (·.recheckRules Table.host g.betweenTurns ·)
    ((toggle, some report), g.collect)
  else ((toggle, none), g.collect)

def clear (g : Game) : Game := { g with referee := g.referee.clear }.collect

/-! ## Rounds -/

/-- Deals a new round, prepares it and opens it. -/
def start (g : Game) : List PassReport × Game :=
  let g : Game :=
    { table := g.table.deal, referee := g.referee, stage := .active, events := g.events }
  let (prepare, g) := g.runPhase (·.prepareRound Table.host false g.betweenTurns ·)
  let (start, g) := g.runPhase (·.openRound Table.host true g.betweenTurns ·)
  let g := g.collect
  ([prepare, start],
    g.emit (.roundStarted (g.table.counts .player) (g.table.counts .opponent)
      g.table.plan g.table.rerollsLeft))

/-- Redeals the player's hand before the first card, prepares again and lets the rules change hands
once more. -/
def reroll (g : Game) : Except Refusal (List PassReport) × Game :=
  if g.stage ≠ .active then (.error .notActive, g)
  else if !g.played.isEmpty then (.error .rerollTooLate, g)
  else if g.table.rerollsLeft = 0 then (.error .rerollsUsedUp, g)
  else
    let g := { g with table := g.table.redealPlayer }
    let g := g.emit (.handRerolled (g.table.counts .player) g.table.rerollsLeft)
    let (prepare, g) := g.runPhase (·.prepareRound Table.host true g.betweenTurns ·)
    let g := { g with referee := g.referee.openGate }
    let (start, g) := g.runPhase (·.recheckRules Table.host g.betweenTurns ·)
    (.ok [prepare, start], g.collect)

def summary (g : Game) : Scorecard where
  score := g.table.total
  wins := UInt32.ofNat (g.outcomes.count .win)
  draws := UInt32.ofNat (g.outcomes.count .draw)
  losses := UInt32.ofNat (g.outcomes.count .loss)
  turnsPlayed := UInt32.ofNat g.played.length
  turnsPlanned := g.table.plan
  rerolls := g.table.rerolls
  adjustment := g.adjustment

/-- The plan is used up or a hand is empty. -/
def isOver (g : Game) : Bool :=
  g.table.plan < g.table.turn || g.table.player.isEmpty ||
    g.table.opponent.isEmpty

/-- Runs the round-end pass and adds its adjustment to the total. -/
def finish (g : Game) : (Scorecard × PassReport) × Game :=
  let (report, g) := g.runPhase (·.closeRound Table.host g.afterTurns ·)
  let g : Game :=
    { g with
      adjustment := report.delta
      table := g.table.addScore report.delta
      stage := .finished }
  let g := g.collect.emit (.roundFinished g.table.total report.delta
    (UInt32.ofNat g.played.length) g.table.plan)
  ((g.summary, report), g)

/-! ## Turns -/

/-- Runs the turn-start pass and adds its delta to the total. -/
def beginTurn (g : Game) : PassReport × Game :=
  let (report, g) :=
    g.runPhase (·.openTurn Table.host (g.duringTurn g.table.turn) ·)
  (report, { g with table := g.table.addScore report.delta })

/-- The player's card leaves its hand, then the opponent's card is drawn. -/
def exchange (g : Game) (choice : Choice) : Option Choice × Game :=
  let (_, table) := g.table.discard choice
  let (fromFront, referee) := g.referee.decideDraw
  let (card, table) := table.drawCard fromFront
  (card, { g with table := table, referee := referee })

/-- Enters the turn into the history, runs the settlement pass over its base score and adds the
delta to the total. -/
def settleTurn (g : Game) (choice opponent : Choice) : PassReport × Game :=
  let turn := g.table.turn
  let outcome := judge choice opponent
  let g : Game :=
    { g with played := g.played ++ [choice], outcomes := g.outcomes ++ [outcome] }
  let ctx : Context :=
    { g.duringTurn turn with
      choice := some choice
      outcome := some outcome
      delta := g.table.setup.scores.base outcome }
  let (report, g) := g.runPhase (·.settleTurn Table.host ctx ·)
  let g := { g with table := g.table.addScore report.delta }.collect
  let g :=
    g.emit (.turnResolved turn choice opponent outcome report.delta g.table.total)
  (report, { g with table := g.table.nextTurn })

/-- Plays a card of the choice: a whole turn, and the end of the round when it is over. -/
def play (g : Game) (choice : Choice) : Except Refusal TurnRecord × Game :=
  if g.stage ≠ .active then (.error .notActive, g)
  else if (g.table.counts .player).get choice = 0 then (.error (.cardNotHeld choice), g)
  else if g.table.opponent.isEmpty then (.error .opponentOutOfCards, g.finish.2)
  else
    let turn := g.table.turn
    let (start, g) := g.beginTurn
    match g.exchange choice with
    | (none, g) => (.error .opponentOutOfCards, g)
    | (some opponent, g) =>
      let (settlement, g) := g.settleTurn choice opponent
      let outcome := judge choice opponent
      let result : TurnRecord :=
        { turn := turn
          player := choice
          opponent := opponent
          outcome := outcome
          base := g.table.setup.scores.base outcome
          startDelta := start.delta
          delta := settlement.delta
          total := g.table.total
          reports := [start, settlement]
          finished := none }
      if g.isOver then
        let ((summary, report), g) := g.finish
        (.ok { result with
          total := g.table.total
          reports := result.reports ++ [report]
          finished := some summary }, g)
      else (.ok result, g)

end Game

end Roshambo
