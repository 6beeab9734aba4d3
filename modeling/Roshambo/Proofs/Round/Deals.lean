import Roshambo.Proofs.Round.Entry
import Roshambo.Proofs.Round.RuleMoves

/-!
# Dealing a round

A start deals both hands and a reroll the player's. The passes that follow only add cards, so each
dealt hand keeps its size at least, and the hand gate is closed again when the call returns.
-/
namespace Roshambo

namespace Log

theorem quiet_turnsAdjusted (delta : Int64) (planned : UInt32) (again : Bool) :
    Quiet [.turnsAdjusted delta planned again] := by
  simp [Quiet, Event.revealed?, Event.drawn?]

end Log

namespace Referee

variable {σ : Type} (ref : Referee) (host : Host σ) (ctx : Context) (state : σ)

theorem settlePlan_quiet (again : Bool) (r : PassResult σ) :
    ∃ news, (settlePlan host again r).referee.events = r.referee.events ++ news ∧
      Log.Quiet news := by
  have silent : Log.Quiet [] := by simp [Log.Quiet]
  by_cases due : r.referee.tally.due = 0
  · exact ⟨[], by simp [settlePlan, due], silent⟩
  · simp only [settlePlan, if_neg due]
    split
    · exact ⟨[_], rfl, Log.quiet_turnsAdjusted _ _ _⟩
    · exact ⟨[], by simp, silent⟩

theorem prepareRound_quiet (again : Bool) :
    ∃ news, (ref.prepareRound host again ctx state).referee.events = ref.events ++ news ∧
      Log.Quiet news := by
  obtain ⟨news, added, quiet, -⟩ := (ref.preparing again).quiet_evaluate
    ⟨host, .prepare again, !again⟩ (by cases again <;> rfl) ctx state
  obtain ⟨more, added', quiet'⟩ :=
    settlePlan_quiet host again (ref.unsettled host ctx state again)
  refine ⟨news ++ more, ?_, quiet.append quiet'⟩
  rw [← List.append_assoc]
  exact added'.trans (congrArg (· ++ more) added)

theorem openRound_quiet (initial : Bool) :
    ∃ news, (ref.openRound host initial ctx state).referee.events = ref.events ++ news ∧
      Log.Quiet news := by
  cases initial with
  | false =>
    obtain ⟨news, added, quiet, -⟩ := ref.recheckRules_quiet host ctx state
    exact ⟨news, added, quiet⟩
  | true =>
    obtain ⟨news, added, quiet, -⟩ := Referee.quiet_evaluate
      { ref with draw := {}, gate := .closed } ⟨host, .roundStart true, true⟩ rfl ctx state
    exact ⟨news, added, quiet⟩

/-- The two passes that follow a deal: preparing the round on the table as it was dealt, then
opening it. -/
structure DealPasses (ref : Referee) (again : Bool) (t : Table)
    (first second : PassResult Table) : Prop where
  prepared : ∃ ctx : Context, ctx.choice = none ∧ ctx.outcome = none ∧ ctx.delta = 0 ∧
    ref.prepareRound Table.host again ctx t = first
  opened : ∃ (gate : HandGate) (ctx : Context), ctx.delta = 0 ∧
    { first.referee with gate := gate }.openRound Table.host (!again) ctx first.host = second

namespace DealPasses

variable {ref : Referee} {again : Bool} {t : Table} {first second : PassResult Table}

theorem grows (h : ref.DealPasses again t first second) : t.Grows second.host := by
  obtain ⟨ctx, -, -, -, prepared⟩ := h.prepared
  obtain ⟨gate, ctx', -, opened⟩ := h.opened
  rw [← opened]
  refine Table.Grows.trans ?_ (grows_openRound _ ctx' first.host (!again))
  rw [← prepared]
  exact ref.grows_prepareRound ctx t again

theorem active (h : ref.DealPasses again t first second) : second.referee.active = ref.active := by
  obtain ⟨ctx, -, -, -, prepared⟩ := h.prepared
  obtain ⟨_, ctx', -, opened⟩ := h.opened
  rw [← opened]
  refine (active_enter _ (.openRound (!again)) Table.host ctx' first.host).trans ?_
  rw [← prepared]
  exact ref.active_enter (.prepareRound again) Table.host ctx t

theorem gate (h : ref.DealPasses again t first second) : second.referee.gate = .closed := by
  obtain ⟨gate, ctx, -, opened⟩ := h.opened
  rw [← opened]
  rfl

theorem quiet (h : ref.DealPasses again t first second) (queue : ref.events = []) :
    Log.Quiet second.referee.events := by
  obtain ⟨ctx, -, -, -, prepared⟩ := h.prepared
  obtain ⟨gate, ctx', -, opened⟩ := h.opened
  obtain ⟨news, added, quiet⟩ := ref.prepareRound_quiet Table.host ctx t again
  obtain ⟨more, added', quiet'⟩ := Referee.openRound_quiet { first.referee with gate := gate }
    Table.host ctx' first.host (!again)
  rw [prepared, queue, List.nil_append] at added
  rw [opened, added] at added'
  rw [added']
  exact quiet.append quiet'

end DealPasses

end Referee

theorem Table.length_deal (t : Table) (side : Side) :
    (t.deal.hand side).length = (t.setup.hand side).size.toNat := by
  cases side <;> exact length_dealHand _ _

theorem Table.length_redealPlayer (t : Table) :
    t.redealPlayer.player.length = t.setup.player.size.toNat :=
  length_dealHand _ _

namespace Game

structure Started (g g' : Game) : Prop where
  setup : g'.table.setup = g.table.setup
  turn : g'.table.turn = 1
  total : g'.table.total = 0
  rerolls : g'.table.rerolls = 0
  dealt : ∀ side, (g.table.setup.hand side).size.toNat ≤ (g'.table.hand side).length
  bounded : ∀ side,
    (g'.table.hand side).length ≤ max handLimit (g.table.setup.hand side).size.toNat
  stage : g'.stage = .active
  played : g'.played = []
  outcomes : g'.outcomes = []
  adjustment : g'.adjustment = 0
  gate : g'.referee.gate = .closed
  queue : g'.referee.events = []
  log : ∃ news, g'.events = g.events ++ news ∧ Log.Quiet news ∧ news.any Event.startsRound = true

/-- What a start answers and leaves, in terms of its two passes. -/
theorem start_eq (g : Game) : ∃ first second,
    g.referee.DealPasses false g.table.deal first second ∧
    g.start = ([first.report, second.report], {
      table := second.host
      referee := { second.referee with events := [] }
      stage := .active
      events := g.events ++ second.referee.events ++ [.roundStarted (second.host.counts .player)
        (second.host.counts .opponent) second.host.plan second.host.rerollsLeft] }) := by
  let dealt : Game :=
    { table := g.table.deal, referee := g.referee, stage := .active, events := g.events }
  let first := g.referee.prepareRound Table.host false dealt.betweenTurns g.table.deal
  let opening := Game.betweenTurns { dealt with table := first.host }
  refine ⟨first, first.referee.openRound Table.host true opening first.host,
    ⟨⟨_, rfl, rfl, rfl, rfl⟩, first.referee.gate, opening, rfl, rfl⟩, ?_⟩
  simp only [start, runPhase, collect, Referee.takeEvents, emit]
  rfl

theorem started_start {g : Game} (queue : g.referee.events = []) : g.Started g.start.2 := by
  obtain ⟨first, second, passes, eq⟩ := g.start_eq
  have grown := passes.grows
  rw [eq]
  refine ⟨grown.setup, grown.turn, grown.total, grown.rerolls, ?_, ?_, rfl, rfl, rfl, rfl,
    passes.gate, rfl, second.referee.events ++ [_], List.append_assoc _ _ _, ?_, ?_⟩
  · intro side
    exact g.table.length_deal side ▸ grown.keeps side
  · intro side
    exact g.table.length_deal side ▸ grown.bounded side
  · exact (passes.quiet queue).append (by simp [Log.Quiet, Event.revealed?, Event.drawn?])
  · simp [Event.startsRound]

/-- What a reroll that is not refused leaves. -/
structure Rerolled (g g' : Game) : Prop where
  setup : g'.table.setup = g.table.setup
  turn : g'.table.turn = g.table.turn
  total : g'.table.total = g.table.total
  rerolls : g'.table.rerolls = g.table.rerolls + 1
  dealt : g.table.setup.player.size.toNat ≤ g'.table.player.length
  keeps : g.table.opponent.length ≤ g'.table.opponent.length
  boundedPlayer : g'.table.player.length ≤ max handLimit g.table.setup.player.size.toNat
  boundedOpponent : g'.table.opponent.length ≤ max handLimit g.table.opponent.length
  stage : g'.stage = g.stage
  played : g'.played = g.played
  outcomes : g'.outcomes = g.outcomes
  adjustment : g'.adjustment = g.adjustment
  gate : g'.referee.gate = .closed
  queue : g'.referee.events = []
  log : ∃ news, g'.events = g.events ++ news ∧ Log.Quiet news

/-- What a reroll that is not refused answers and leaves, in terms of its two passes. -/
theorem reroll_eq {g : Game} (active : g.stage = .active) (fresh : g.played = [])
    (left : g.table.rerollsLeft ≠ 0) : ∃ first second,
    g.referee.DealPasses true g.table.redealPlayer first second ∧
    g.reroll = (.ok [first.report, second.report], { g with
      table := second.host
      referee := { second.referee with events := [] }
      events := g.events ++ [.handRerolled (g.table.redealPlayer.counts .player)
        g.table.redealPlayer.rerollsLeft] ++ second.referee.events }) := by
  let logged : Game := Game.emit { g with table := g.table.redealPlayer }
    (.handRerolled (g.table.redealPlayer.counts .player) g.table.redealPlayer.rerollsLeft)
  let first := g.referee.prepareRound Table.host true logged.betweenTurns g.table.redealPlayer
  let opening := Game.betweenTurns { logged with table := first.host }
  refine ⟨first, first.referee.openGate.openRound Table.host false opening first.host,
    ⟨⟨_, rfl, rfl, rfl, rfl⟩, .opened, opening, rfl, rfl⟩, ?_⟩
  rw [reroll, if_neg (fun h => h active), if_neg (by simp [fresh]), if_neg left]
  simp only [runPhase, collect, Referee.takeEvents, emit]
  rfl

theorem rerolled_reroll {g : Game} (queue : g.referee.events = []) (active : g.stage = .active)
    (fresh : g.played = []) (left : g.table.rerollsLeft ≠ 0) :
    ∃ reports g', g.reroll = (.ok reports, g') ∧ g.Rerolled g' := by
  obtain ⟨first, second, passes, eq⟩ := reroll_eq active fresh left
  have grown := passes.grows
  refine ⟨_, _, eq, grown.setup, grown.turn, grown.total, grown.rerolls, ?_,
    grown.keeps .opponent, ?_, grown.bounded .opponent, rfl, rfl, rfl, rfl, passes.gate, rfl,
    [_] ++ second.referee.events, List.append_assoc _ _ _, ?_⟩
  · exact g.table.length_redealPlayer ▸ grown.keeps .player
  · exact g.table.length_redealPlayer ▸ grown.bounded .player
  · exact .append (by simp [Log.Quiet, Event.revealed?, Event.drawn?]) (passes.quiet queue)

/-- A reroll is refused for one of three reasons, which are looked at in this order. -/
theorem reroll_cases {g : Game} (queue : g.referee.events = []) :
    (g.stage ≠ .active ∧ g.reroll = (.error .notActive, g)) ∨
    (g.stage = .active ∧ g.played ≠ [] ∧ g.reroll = (.error .rerollTooLate, g)) ∨
    (g.stage = .active ∧ g.played = [] ∧ g.table.rerollsLeft = 0 ∧
      g.reroll = (.error .rerollsUsedUp, g)) ∨
    (g.stage = .active ∧ g.played = [] ∧ g.table.rerollsLeft ≠ 0 ∧
      ∃ reports g', g.reroll = (.ok reports, g') ∧ g.Rerolled g') := by
  by_cases active : g.stage = .active
  · by_cases fresh : g.played = []
    · by_cases used : g.table.rerollsLeft = 0
      · refine .inr (.inr (.inl ⟨active, fresh, used, ?_⟩))
        simp [reroll, active, fresh, used]
      · refine .inr (.inr (.inr ⟨active, fresh, used, ?_⟩))
        exact rerolled_reroll queue active fresh used
    · refine .inr (.inl ⟨active, fresh, ?_⟩)
      simp [reroll, active, fresh]
  · refine .inl ⟨active, ?_⟩
    simp [reroll, active]

/-- A reroll is refused and changes nothing, or `reroll_eq` says what it does. -/
theorem reroll_refused_or {g : Game} (queue : g.referee.events = []) :
    (∃ refusal, g.reroll = (.error refusal, g)) ∨
      (g.stage = .active ∧ g.played = [] ∧ g.table.rerollsLeft ≠ 0) := by
  rcases reroll_cases queue with ⟨_, eq⟩ | ⟨_, _, eq⟩ | ⟨_, _, _, eq⟩ | ⟨active, fresh, left, -⟩
  · exact .inl ⟨_, eq⟩
  · exact .inl ⟨_, eq⟩
  · exact .inl ⟨_, eq⟩
  · exact .inr ⟨active, fresh, left⟩

end Game
end Roshambo
