import Roshambo.Pass.Report
import Roshambo.Pass.State
import Roshambo.Rule.Active

/-!
# The referee

The referee holds the active rules and the little that outlives a pass: the draw order, the plan
tally, the hand gate and the events that nobody has taken yet. A pass folds the active rules, in
their order, over the state of the pass.
-/
namespace Roshambo

structure Referee where
  active : ActiveRules := {}
  draw : DrawOrder := {}
  tally : PlanTally := {}
  gate : HandGate := {}
  events : List Event := []
  deriving DecidableEq

namespace Referee

def emit (ref : Referee) (event : Event) : Referee := { ref with events := ref.events ++ [event] }

def takeEvents (ref : Referee) : List Event × Referee := (ref.events, { ref with events := [] })

/-! ## The active rules -/

def enable (ref : Referee) (rule : Rule) : Bool × Referee :=
  match ref.active.enable rule with
  | (true, active) => (true, { ref with active := active }.emit (.ruleToggled rule.name true))
  | (false, active) => (false, { ref with active := active })

def disable (ref : Referee) (name : String) : Bool × Referee :=
  match ref.active.disable name with
  | (true, active) => (true, { ref with active := active }.emit (.ruleToggled name false))
  | (false, active) => (false, { ref with active := active })

def toggle (ref : Referee) (rule : Rule) : Toggle × Referee :=
  let (toggle, active) := ref.active.toggle rule
  (toggle, { ref with active := active }.emit (.ruleToggled rule.name (toggle == Toggle.enabled)))

def clear (ref : Referee) : Referee :=
  { ref with active := ref.active.clear }.emit .rulesCleared

/-- Leaves exactly the given rule active, or none. -/
def setOnly (ref : Referee) : Option Rule → Referee
  | some rule => ({ ref with active := ref.active.clear }.enable rule).2
  | none => ref.clear

/-- The name of the rule enabled most recently, or None. -/
def latestName (ref : Referee) : String :=
  match ref.active.latest? with
  | some rule => rule.name
  | none => "None"

/-- Lets the next round-start pass change hands once more. -/
def openGate (ref : Referee) : Referee := { ref with gate := .opened }

/-- Whether the opponent's next card comes from the front; uses up a pending reveal. -/
def decideDraw (ref : Referee) : Bool × Referee :=
  let (fromFront, draw) := ref.draw.next
  (fromFront, { ref with draw := draw })

/-! ## Passes -/

variable {σ : Type}

/-- What a pass leaves behind. -/
structure PassResult (σ : Type) where
  report : PassReport
  context : Context
  host : σ
  referee : Referee

/-- Runs the active rules over a context and a host. -/
def evaluate (ref : Referee) (setting : PassSetting σ) (ctx : Context) (state : σ) : PassResult σ :=
  let start : PassState σ :=
    { context := ctx, host := state, draw := ref.draw, tally := ref.tally, events := ref.events }
  let s := setting.showLine (setting.applyRules ref.active.rules start)
  { report :=
      { phase := setting.pass.phase
        delta := s.context.delta
        fired := s.fired
        info := s.context.info
        diagnostics := s.diagnostics }
    context := s.context
    host := s.host
    referee := { ref with draw := s.draw, tally := s.tally, events := s.events } }

end Referee

end Roshambo
