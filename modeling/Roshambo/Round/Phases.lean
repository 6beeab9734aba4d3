import Roshambo.Round.Referee

/-!
# The phases of a round

One function for each phase, each a pass with the bookkeeping around it. Preparing a round
hands the host the difference of planned turns that is still due. Opening a round clears the draw
order and reports what is wrong with the rules; checking them again within the round changes hands
only while the hand gate is open, and closes it.
-/
namespace Roshambo.Referee

variable {σ : Type}

/-- Hands the host the difference of planned turns that is due after a round-prepare pass. A host
that refuses leaves the tally as it was. -/
def settlePlan (host : Host σ) (again : Bool) (r : PassResult σ) : PassResult σ :=
  let delta := r.referee.tally.due
  let settled := { r.referee with tally := r.referee.tally.settle }
  if delta = 0 then { r with referee := settled }
  else
    match host.movePlan r.host delta with
    | (some planned, state) =>
      { r with
        context := { r.context with planned := planned }
        host := state
        referee := settled.emit (.turnsAdjusted delta planned again) }
    | (none, state) =>
      { r with
        host := state
        report :=
          { r.report with
            diagnostics := r.report.diagnostics ++
              [.notOffered "RoundPrepare" .effect "adjust planned turns"] } }

/-- The round-prepare pass; a full one forgets what earlier rounds were granted. -/
def prepareRound (ref : Referee) (host : Host σ) (again : Bool) (ctx : Context) (state : σ) :
    PassResult σ :=
  let tally := if again then ref.tally else {}
  settlePlan host again
    ({ ref with tally := tally.start }.evaluate ⟨host, .prepare again, !again⟩ ctx state)

/-- The round-start pass; the initial one puts the findings about the rules first. -/
def openRound (ref : Referee) (host : Host σ) (initial : Bool) (ctx : Context) (state : σ) :
    PassResult σ :=
  let found := if initial then ref.active.rules.flatMap Rule.findings else []
  let ref := if initial then { ref with draw := {}, gate := .closed } else ref
  let r := ref.evaluate ⟨host, .roundStart initial, initial || ref.gate.isOpen⟩ ctx state
  { r with
    report := { r.report with diagnostics := found ++ r.report.diagnostics }
    referee := { r.referee with gate := .closed } }

/-- The round-start pass once more, after the rules or the player's hand changed. -/
def recheckRules (ref : Referee) (host : Host σ) (ctx : Context) (state : σ) : PassResult σ :=
  ref.openRound host false ctx state

def openTurn (ref : Referee) (host : Host σ) (ctx : Context) (state : σ) : PassResult σ :=
  ref.evaluate ⟨host, .turnStart, false⟩ ctx state

def settleTurn (ref : Referee) (host : Host σ) (ctx : Context) (state : σ) : PassResult σ :=
  ref.evaluate ⟨host, .settlement, false⟩ ctx state

/-- The score delta of the report is the adjustment of the final total. -/
def closeRound (ref : Referee) (host : Host σ) (ctx : Context) (state : σ) : PassResult σ :=
  ref.evaluate ⟨host, .roundEnd, false⟩ ctx state

end Roshambo.Referee
