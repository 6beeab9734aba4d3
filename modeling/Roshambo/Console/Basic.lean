import Roshambo.Console.Strategy
import Roshambo.Encoding.Round
import Roshambo.Json.Render
import Roshambo.Rule.Library

/-!
# The console

Play as a player sees it. The console holds a game, the number of the round and the total over
the finished rounds, and collects what it prints. Finished rounds count towards the total once,
when their last turn is printed.
-/
namespace Roshambo

/-- A piece of text for one of the two output streams. -/
inductive Output where
  | out (text : String)
  | err (text : String)
  deriving DecidableEq

structure Console where
  game : Game
  trace : Bool
  round : UInt32 := 0
  total : Int64 := 0
  printed : Array Output := #[]

namespace Console

/-! ## Printing -/

def print (c : Console) (output : Output) : Console := { c with printed := c.printed.push output }

def say (c : Console) (line : String) : Console := c.print (.out (line ++ "\n"))

def sayAll (c : Console) (lines : List String) : Console := lines.foldl say c

def warn (c : Console) (line : String) : Console := c.print (.err (line ++ "\n"))

/-- An integer with its sign, plus for zero. -/
def signed (n : Int64) : String :=
  if n < 0 then toString n.toInt else "+" ++ toString n.toInt

/-- The text with blanks behind it up to a width in characters. -/
def padRight (width : Nat) (s : String) : String :=
  s ++ String.ofList (List.replicate (width - s.toList.length) ' ')

def num (n : UInt32) : String := toString n.toNat

def stateLine (t : Table) : String :=
  let hand := " ".intercalate (t.player.map fun card => String.singleton card.letter)
  let turn := if t.plan < t.turn then t.plan else t.turn
  "turn " ++ num turn ++ "/" ++ num t.plan ++ " | score " ++ toString t.total.toInt ++
    " | rerolls left " ++ num t.rerollsLeft ++ " | hand [" ++ hand ++ "] " ++
    (t.counts .player).text ++ " | opponent " ++ toString t.opponent.length ++ " cards"

def turnLine (r : TurnRecord) : String :=
  "turn " ++ num r.turn ++ ": " ++ r.player.name ++ " vs " ++ r.opponent.name ++ " -> " ++
    r.outcome.name ++ " | base " ++ toString r.base.toInt ++ " | turn " ++
    signed (r.startDelta + r.delta) ++ " | total " ++ toString r.total.toInt

def summaryLine (s : Scorecard) : String :=
  "round over: score " ++ toString s.score.toInt ++ " (final adjustment " ++
    signed s.adjustment ++ ") | W" ++ num s.wins ++ " D" ++ num s.draws ++ " L" ++
    num s.losses ++ " | turns " ++ num s.turnsPlayed ++ "/" ++ num s.turnsPlanned ++
    " | rerolls " ++ num s.rerolls

def eventLine (round : UInt32) (event : Event) : String :=
  (Json.Value.obj [("round", Json.encode round), ("event", Json.encode event)]).render

/-- The rules that fired, and every diagnostic as a warning. -/
def sayReport (c : Console) (report : PassReport) : Console :=
  let c :=
    if report.fired.isEmpty then c
    else c.say ("  " ++ report.phase.name ++ ": " ++ ", ".intercalate report.fired)
  report.diagnostics.foldl (fun c d => c.warn ("rule warning: " ++ d.text)) c

def sayReports (c : Console) (reports : List PassReport) : Console :=
  reports.foldl sayReport c

/-- Prints the lines shown since the last flush and, when tracing, the events. -/
def sayNews (c : Console) : Console :=
  let (shown, game) := c.game.takeLines
  let (events, game) := game.takeEvents
  let c := { c with game := game }.sayAll (shown.map ("  info: " ++ ·))
  if c.trace then c.sayAll (events.map (eventLine c.round)) else c

def sayState (c : Console) : Console := c.say (stateLine c.game.table)

/-- Prints a turn; the score of a round that it ends goes to the total. -/
def sayTurn (c : Console) (r : TurnRecord) : Console :=
  let c := ((c.sayReports r.reports).say (turnLine r)).sayNews
  match r.finished with
  | some summary => { c with total := c.total + summary.score }.say (summaryLine summary)
  | none => c

def pipeline (c : Console) : String := c.game.referee.active.pipeline

def sayPipeline (c : Console) : Console := c.say ("pipeline: " ++ c.pipeline)

/-- One line for each rule of the library, enabled rules marked. -/
def sayRules (c : Console) (library : Library) : Console :=
  (c.sayAll (library.rules.map fun rule =>
    (if c.game.referee.active.contains rule.name then "*" else " ") ++ " " ++
      padRight 26 rule.name ++ " " ++ rule.description)).sayPipeline

def helpLines : List String :=
  ["Commands:",
    "  rock|r  paper|p  scissors|s   play a card",
    "  reroll                         redraw your hand before the first play",
    "  state                          show the table",
    "  rules                          list rules (* = enabled)",
    "  toggle|t <name>                enable or disable a rule",
    "  help|h|?                       show help",
    "  quit|exit|q                    exit"]

/-- The last line of a run. -/
def close (c : Console) : Console :=
  c.say ("total over " ++ num c.round ++ " round(s): " ++ toString c.total.toInt)

/-! ## Playing -/

def start (c : Console) : Console :=
  let c := { c with round := c.round + 1 }
  let c := c.say ("== round " ++ num c.round ++ " | rules: " ++ c.pipeline)
  let (reports, game) := c.game.start
  ({ c with game := game }.sayReports reports).sayNews.sayState

/-- Plays a card of the choice if the game lets it. -/
def play (c : Console) (choice : Choice) : Console :=
  let (result, game) := c.game.play choice
  let c := { c with game := game }
  match result with
  | .ok turn => c.sayTurn turn
  | .error (.cardNotHeld choice) => c.say ("no " ++ choice.name ++ " left in your hand")
  | .error e => c.say ("cannot play: " ++ e.message)

def reroll (c : Console) : Console :=
  let (result, game) := c.game.reroll
  let c := { c with game := game }
  match result with
  | .ok reports => (c.sayReports reports).sayNews.sayState
  | .error e => c.say ("cannot reroll: " ++ e.message)

def toggle (c : Console) (library : Library) (name : String) : Console :=
  match library.find? name with
  | none => c.say ("unknown rule `" ++ name ++ "`")
  | some rule =>
    let ((toggle, report), game) := c.game.toggle rule
    let c := { c with game := game }
    let c :=
      match toggle with
      | .enabled => c.say ("enabled " ++ rule.name)
      | .disabled => c.say ("disabled " ++ rule.name)
    (c.sayReports report.toList).sayNews.sayPipeline

end Console

end Roshambo
