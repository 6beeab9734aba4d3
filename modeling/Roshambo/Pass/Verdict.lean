import Roshambo.Pass.Basic
import Roshambo.Pass.Context
import Roshambo.Pass.Host
import Roshambo.Rule.Diagnostic

/-!
# Verdicts

Whether the conditions of a rule hold in a pass. Several turn-index tags are alternatives and form
one condition; every other condition tag that the pass answers must hold, and the first one that
does not settles the matter. A tag that was not understood and may have been a condition blocks its
rule, with a diagnostic; so does a condition that the host cannot answer.
-/
namespace Roshambo

namespace Condition

/-- Whether the condition holds, or nothing when the host cannot count the cards it asks for. -/
def holds? {σ : Type} (host : Host σ) (state : σ) (ctx : Context) : Condition → Option Bool
  | outcomeEquals outcome => some (ctx.outcome == some outcome)
  | playerChoiceEquals choice => some (ctx.choice == some choice)
  | playedAtLeast choice count => some (count.toNat ≤ ctx.played.count choice)
  | streak outcome choice count =>
    match ctx.lastTurns? (max count.toNat 1) with
    | some tail => some (tail.all (· == (choice, outcome)))
    | none => some false
  | isLastTurn expected => some (ctx.isLastTurn == expected)
  | playerHasMore choice =>
    match host.countOf state .player choice, host.countOf state .opponent choice with
    | some player, some opponent => some (opponent < player)
    | _, _ => none
  | turnIndexEquals turn => some (ctx.turn == turn)
  | rerollCountEquals count => some (ctx.rerolls == count)
  | playerHolds choice count => (host.countOf state .player choice).map fun held => count ≤ held
  | playedOnTurn choice turn =>
    some (turn != 0 && ctx.played[turn.toNat - 1]? == some choice)
  | winsAtLeast choice count => some (count.toNat ≤ ctx.turns.count (choice, .win))
  | winsOnlyWith choice =>
    let wins := ctx.turns.filter (·.2 == .win)
    some (!wins.isEmpty && wins.all (·.1 == choice))

end Condition

inductive Verdict where
  | fires
  | rests
  /-- The rule cannot fire, for this reason. -/
  | blocked (reason : Diagnostic)
  deriving DecidableEq

namespace Verdict

def diagnostics : Verdict → List Diagnostic
  | blocked reason => [reason]
  | _ => []

end Verdict

/-- A tag that was not understood and is neither a timing nor an effect for sure. -/
def InvalidTag.mayBeCondition (tag : InvalidTag) : Bool :=
  tag.role != some .timing && tag.role != some .effect

section

variable {σ : Type} (host : Host σ) (state : σ) (ctx : Context) (pass : Pass) (rule : String)

/-- The verdict of a list of tags. The alternatives met so far are `none` before the first
turn-index tag, and afterwards say whether one of them hit. -/
def verdictOfTags (alternatives : Option Bool) : List Tag → Verdict
  | [] => if alternatives.getD true then .fires else .rests
  | .condition c :: tags =>
    if pass.evaluates c then
      match c with
      | .turnIndexEquals turn =>
        verdictOfTags (some (alternatives.getD false || ctx.turn == turn)) tags
      | _ =>
        match c.holds? host state ctx with
        | some true => verdictOfTags alternatives tags
        | some false => .rests
        | none => .blocked (.notOffered rule .condition "count cards in hand")
    else verdictOfTags alternatives tags
  | .invalid tag :: tags =>
    if tag.mayBeCondition then .blocked (.ofInvalid rule tag) else verdictOfTags alternatives tags
  | _ :: tags => verdictOfTags alternatives tags

end

/-- Whether a rule fires: its timing names the phase of the pass and its conditions hold. -/
def Rule.verdict {σ : Type} (rule : Rule) (host : Host σ) (state : σ) (ctx : Context)
    (pass : Pass) : Verdict :=
  if rule.firesIn pass.phase then verdictOfTags host state ctx pass rule.name none rule.tags
  else .rests

end Roshambo
