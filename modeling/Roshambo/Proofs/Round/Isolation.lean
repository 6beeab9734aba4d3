import Roshambo.Proofs.Pass.Past
import Roshambo.Proofs.Round.Invariant
import Roshambo.Proofs.Round.Relog

/-!
# Rounds are isolated

What a round leaves behind is spread over the table, the referee and the histories, and a new round
takes up none of it but the setup, the generator and the rules. The deal resets the table, the full
preparing pass the tally and the opening pass the draw order; the pass in between can set the draw
order but never looks at it. So two games that agree in those three answer a start, and whatever is
asked of them after it, in the same way.
-/
namespace Roshambo

namespace Referee

variable {σ : Type}

theorem settlePlan_redrawn (host : Host σ) (again : Bool) (r : PassResult σ) (draw : DrawOrder) :
    settlePlan host again { r with referee := { r.referee with draw := draw } } =
      { settlePlan host again r with
        referee := { (settlePlan host again r).referee with draw := draw } } := by
  simp only [settlePlan]
  split
  · rfl
  · split <;> rfl

variable (ref : Referee) (host : Host σ) (ctx : Context) (state : σ)

/-- A full preparing pass resets the tally and hands the draw order on. -/
theorem prepareRound_redrawn (draw : DrawOrder) (tally : PlanTally) :
    ∃ draw', prepareRound { ref with draw := draw, tally := tally } host false ctx state =
      { ref.prepareRound host false ctx state with
        referee := { (ref.prepareRound host false ctx state).referee with draw := draw' } } := by
  obtain ⟨draw', eq⟩ := evaluate_redrawn { ref with tally := {} } ⟨host, .prepare false, true⟩ ctx
    state draw
  refine ⟨draw', ?_⟩
  exact (congrArg (settlePlan host false) eq).trans (settlePlan_redrawn host false _ draw')

end Referee

namespace Game

/-- A start takes up neither the draw order nor the tally. -/
theorem start_redrawn (g : Game) (draw : DrawOrder) (tally : PlanTally) :
    start { g with referee := { g.referee with draw := draw, tally := tally } } = g.start := by
  let ctx : Context :=
    { Context.atTurn 0 g.table.deal.plan with rerolls := g.table.deal.rerolls }
  obtain ⟨draw', eq⟩ :=
    g.referee.prepareRound_redrawn Table.host ctx g.table.deal draw tally
  simp only [start, runPhase, betweenTurns]
  rw [eq]
  rfl

variable {config config' : RoundSetup} {g h : Game}

theorem start_congr (deal : g.table.deal = h.table.deal) (referee : g.referee = h.referee)
    (events : g.events = h.events) : g.start = h.start := by
  simp only [start, deal, referee, events]

/-- With their logs taken, two games with the same setup, generator and rules start alike. -/
theorem Sound.start_eq_start (sound : g.Sound config) (sound' : h.Sound config')
    (setup : g.table.setup = h.table.setup) (random : g.table.random = h.table.random)
    (active : g.referee.active = h.referee.active) :
    g.takeEvents.2.start = h.takeEvents.2.start := by
  have deal : g.table.deal = h.table.deal := by
    simp only [Table.deal, setup, random]
  have referee : g.referee =
      { h.referee with draw := g.referee.draw, tally := g.referee.tally } := by
    show g.referee = ⟨h.referee.active, g.referee.draw, g.referee.tally, h.referee.gate,
      h.referee.events⟩
    rw [← active, sound'.gate, sound'.queue, ← sound.gate, ← sound.queue]
  rw [← start_redrawn h.takeEvents.2 g.referee.draw g.referee.tally]
  exact start_congr deal referee rfl

/-- From here on the games answer alike, add the same to their logs, which were `old` and `old'`,
and are left the same but for these. -/
structure OneFuture (old old' : List Event) (g h : Game) : Prop where
  answers : ∀ requests, g.answers requests = h.answers requests
  news : ∀ requests, ∃ news, g.log requests = old ++ news ∧ h.log requests = old' ++ news
  summary : ∀ requests, (g.served requests).summary = (h.served requests).summary
  left : ∀ requests, (g.served requests).takeEvents.2 = (h.served requests).takeEvents.2

theorem oneFuture_relog (old old' : List Event) (g : Game) :
    OneFuture old old' (g.relog old) (g.relog old') := by
  have left : ∀ requests, ((g.relog old).served requests).takeEvents.2 =
      ((g.relog old').served requests).takeEvents.2 := by
    intro requests
    obtain ⟨kept, eq⟩ := g.served_relog old requests
    obtain ⟨kept', eq'⟩ := g.served_relog old' requests
    rw [eq, eq']
    rfl
  refine ⟨fun requests => ?_, fun requests => ?_, fun requests => ?_, left⟩
  · rw [answers_relog, answers_relog]
  · exact ⟨g.log requests, g.log_relog old requests, g.log_relog old' requests⟩
  · have same := congrArg summary (left requests)
    exact same

/-- However different the rounds before were, games with the same setup, generator and rules answer
a start alike, and have one future after it. -/
theorem start_isolated (reached : Reached config g) (reached' : Reached config' h)
    (setup : g.table.setup = h.table.setup) (random : g.table.random = h.table.random)
    (active : g.referee.active = h.referee.active) :
    g.start.1 = h.start.1 ∧ OneFuture g.events h.events g.start.2 h.start.2 := by
  have same := reached.sound.start_eq_start reached'.sound setup random active
  have relogged (g : Game) : g.start = g.takeEvents.2.start.map id (relog g.events) := by
    rw [← start_relog, relog_takeEvents]
  rw [relogged g, relogged h, same]
  exact ⟨rfl, oneFuture_relog _ _ _⟩

/-- A game in the middle of a round and one at its end, with cards drawn from the front so that the
generator is the same. -/
theorem start_isolated_from_front :
    let rule : Rule :=
      { name := "Foresight"
        tags := [.timing .roundPrepare, .timing .roundStart, .timing .turnSettlement,
          .effect { effect := .modifyPlannedTurns 1 },
          .effect { effect := .forceOpponentDrawFromFront true },
          .effect { effect := .revealNextOpponentCard },
          .effect { effect := .addScore 5 }] }
    let config : RoundSetup :=
      ⟨1, 0, ⟨2, 2, 0, 0⟩, ⟨2, 0, 1, 1⟩, .standard⟩
    let g := (ofSeed config 3).run [.enable rule, .start]
    let h := (ofSeed config 3).run [.enable rule, .start, .play .rock, .play .rock]
    (g.stage = .active ∧ h.stage = .finished ∧ g.referee.draw ≠ h.referee.draw) ∧
      (g.table.setup = h.table.setup ∧ g.table.random = h.table.random ∧
        g.referee.active = h.referee.active) ∧
      g.start.1 = h.start.1 ∧ OneFuture g.events h.events g.start.2 h.start.2 := by
  intro rule config g h
  have reached : Reached config g := (Reached.ofSeed 3).run _
  have reached' : Reached config h := (Reached.ofSeed 3).run _
  have setup : g.table.setup = h.table.setup :=
    reached.sound.setup.trans reached'.sound.setup.symm
  have random : g.table.random = h.table.random := by decide +kernel
  have active : g.referee.active = h.referee.active := by decide +kernel
  exact ⟨by decide +kernel, ⟨setup, random, active⟩,
    start_isolated reached reached' setup random active⟩

end Game

end Roshambo
