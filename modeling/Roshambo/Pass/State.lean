import Roshambo.Pass.PlanTally
import Roshambo.Pass.Switches
import Roshambo.Pass.Verdict
import Roshambo.Round.Event
import Roshambo.Rule.Findings

/-!
# The state of a pass

The state that one pass threads through the rules, and what each effect and each rule does to it.
Scores only ever change through `addScore` and `multiply`, hands only through the host.
-/
namespace Roshambo

/-- What stays fixed during a pass: the host's operations, the pass, and whether hands may
change. -/
structure PassSetting (σ : Type) where
  host : Host σ
  pass : Pass
  handsOpen : Bool

/-- What a pass changes. -/
structure PassState (σ : Type) where
  context : Context
  host : σ
  draw : DrawOrder
  tally : PlanTally
  events : List Event
  fired : List String := []
  diagnostics : List Diagnostic := []

/-- The delta that turns `total + delta` into `factor` times as much. -/
def deltaTimes (total delta factor : Int64) : Int64 :=
  Saturating.sub (Saturating.mul (Saturating.add total delta) factor) total

namespace PassState

variable {σ : Type}

def emit (s : PassState σ) (event : Event) : PassState σ :=
  { s with events := s.events ++ [event] }

def addDiagnostic (s : PassState σ) (d : Diagnostic) : PassState σ :=
  { s with diagnostics := s.diagnostics ++ [d] }

def addScore (s : PassState σ) (amount : Int64) : PassState σ :=
  { s with context :=
      { s.context with delta := Saturating.add s.context.delta amount } }

def multiply (s : PassState σ) (factor : Int64) : PassState σ :=
  { s with context :=
      { s.context with
        delta := deltaTimes s.context.total s.context.delta factor } }

def setInfo (s : PassState σ) (text : String) : PassState σ :=
  { s with context := { s.context with info := some text } }

/-- An operation on the hands of `side` answered `answer`, or is not offered. -/
def noteChange (s : PassState σ) (pass : Pass) (rule : String) (side : Side)
    (choice : Option Choice) (operation : String) (answer : Option UInt32) : PassState σ :=
  match answer with
  | some count => s.emit (.handMutated rule side choice count pass.isRepeat)
  | none => s.addDiagnostic (.notOffered rule .effect operation)

end PassState

/-- The line shown for a rule that brings no text of its own. -/
def Pass.defaultLine (pass : Pass) (rule : String) : String :=
  match pass with
  | .prepare _ => "Rule prepare: " ++ rule
  | _ => "Rule: " ++ rule

namespace PassSetting

variable {σ : Type} (setting : PassSetting σ) (rule : String)

/-- The rock replacement picks among the other cards only; any other one may pick a card that is
already of the choice. -/
def replaceCards (choice : Choice) (count : UInt32) (s : PassState σ) : PassState σ :=
  let (answer, host) :=
    match choice with
    | .rock => setting.host.replaceOthers s.host choice count
    | _ => setting.host.replaceRandomly s.host choice count
  { s with host := host }.noteChange setting.pass rule .opponent (some choice)
    "replace cards" answer

def addCards (side : Side) (choice : Choice) (count : UInt32) (s : PassState σ) : PassState σ :=
  let (answer, host) := setting.host.addCards s.host side choice count
  { s with host := host }.noteChange setting.pass rule side (some choice) "add cards" answer

def addRandomCards (side : Side) (count : UInt32) (s : PassState σ) : PassState σ :=
  let (answer, host) := setting.host.addRandomCards s.host side count
  { s with host := host }.noteChange setting.pass rule side none "add cards" answer

/-- The revealed card is announced, and the next draw comes from the front in any case. -/
def revealNext (s : PassState σ) : PassState σ :=
  let s :=
    match setting.host.firstCard s.host .opponent with
    | some card =>
      (s.setInfo ("Next opponent card (front): " ++ card.name)).emit (.cardRevealed rule card)
    | none => s.addDiagnostic (.notOffered rule .effect "peek the opponent hand")
  { s with draw := s.draw.frontOnce }

def revealFirstAndLast (s : PassState σ) : PassState σ :=
  match setting.host.firstCard s.host .opponent, setting.host.lastCard s.host .opponent with
  | some first, some last =>
    s.setInfo ("Opponent first: " ++ first.name ++ ", last: " ++ last.name)
  | _, _ => s.addDiagnostic (.notOffered rule .effect "peek the opponent hand")

/-- What an effect does in a pass that applies its kind. -/
def perform (effect : Effect) (s : PassState σ) : PassState σ :=
  match effect with
  | .addScore amount => s.addScore amount
  | .showInfo (some text) =>
    s.setInfo (if text.isEmpty then setting.pass.defaultLine rule else text)
  | .showInfo none => s.setInfo (setting.pass.defaultLine rule)
  | .forceOpponentDrawFromFront enabled =>
    if enabled && setting.pass == .roundStart true then
      { s with draw := s.draw.keepFront }.emit (.frontDrawSet rule)
    else s
  | .finalScoreMultiplier factor =>
    if 1 < factor then s.multiply factor
    else if factor < 1 then s.addDiagnostic ⟨rule, some .effect, .tag (factorProblem factor)⟩
    else s
  | .finalTotalMultiplier factor => s.multiply factor
  | .replaceOpponentCards choice count =>
    if setting.handsOpen && count != 0 then setting.replaceCards rule choice count s else s
  | .revealNextOpponentCard => setting.revealNext rule s
  | .revealOpponentFirstAndLast => setting.revealFirstAndLast rule s
  | .modifyPlannedTurns delta =>
    if delta = 0 then s else { s with tally := s.tally.add delta }
  | .addCards side choice count =>
    if setting.handsOpen && count != 0 then setting.addCards rule side choice count s else s
  | .addRandomCards side count =>
    if setting.handsOpen && count != 0 then setting.addRandomCards rule side count s else s
  | .addScorePerCard choice perCard =>
    match setting.host.countOf s.host .player choice with
    | some held => s.addScore (Saturating.mul perCard (Int64.ofNat held.toNat))
    | none => s.addDiagnostic (.notOffered rule .effect "count cards in hand")

/-- What a tag of a rule that fired does: an effect acts if the pass applies its kind and its
filter matches the turn, and an effect that was not understood is reported. -/
def performTag (tag : Tag) (s : PassState σ) : PassState σ :=
  match tag with
  | .effect tagged =>
    if setting.pass.applies tagged.effect &&
        tagged.filter.matches s.context.outcome s.context.choice then
      setting.perform rule tagged.effect s
    else s
  | .invalid tag =>
    if tag.role = some .effect then s.addDiagnostic (.ofInvalid rule tag) else s
  | _ => s

/-- One rule of a pass: if it fires, all its tags act in their order. -/
def applyRule (rule : Rule) (s : PassState σ) : PassState σ :=
  match rule.verdict setting.host s.host s.context setting.pass with
  | .fires =>
    rule.tags.foldl (fun s tag => setting.performTag rule.name tag s)
      ({ s with fired := s.fired ++ [rule.name] }.emit
        (.ruleFired setting.pass.phase rule.name))
  | verdict => { s with diagnostics := s.diagnostics ++ verdict.diagnostics }

/-- All rules of a pass in their order. -/
def applyRules (rules : List Rule) (s : PassState σ) : PassState σ :=
  rules.foldl (fun s rule => setting.applyRule rule s) s

/-- The line of information that stands at the end of a pass is shown. -/
def showLine (s : PassState σ) : PassState σ :=
  match s.context.info with
  | some text => { s with host := setting.host.showInfo s.host text }.emit (.infoShown text)
  | none => s

end PassSetting

end Roshambo
