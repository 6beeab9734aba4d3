import Roshambo.Round.Request

/-!
# The log is never read

A game only ever writes to its log. With other events put before those of its log it answers every
request as before, and leaves the same game with these events put before. `answers_relog`,
`log_relog` and `served_relog` say so of any sequence of requests.
-/
namespace Roshambo.Game

/-- The game with these events before those of its log. -/
def relog (old : List Event) (g : Game) : Game := { g with events := old ++ g.events }

variable (old : List Event) (g : Game)

@[simp] theorem table_relog : (g.relog old).table = g.table := rfl

@[simp] theorem stage_relog : (g.relog old).stage = g.stage := rfl

theorem isOver_relog : (g.relog old).isOver = g.isOver := rfl

theorem relog_takeEvents : g.takeEvents.2.relog g.events = g := by
  simp [relog, takeEvents]

theorem collect_relog : (g.relog old).collect = g.collect.relog old := by
  simp [relog, collect, Referee.takeEvents]

/-! ## Rules and deals -/

theorem enable_relog (rule : Rule) :
    (g.relog old).enable rule = (g.enable rule).map id (relog old) :=
  Prod.ext rfl (collect_relog old { g with referee := (g.referee.enable rule).2 })

theorem toggle_relog (rule : Rule) :
    (g.relog old).toggle rule = (g.toggle rule).map id (relog old) := by
  by_cases active : g.stage = .active
  · simp only [toggle, relog, if_pos active, collect, runPhase, Referee.takeEvents,
      List.append_assoc]
    rfl
  · simp only [toggle, relog, if_neg active, collect, Referee.takeEvents, List.append_assoc]
    rfl

theorem clear_relog : (g.relog old).clear = g.clear.relog old :=
  collect_relog old { g with referee := g.referee.clear }

theorem start_relog : (g.relog old).start = g.start.map id (relog old) := by
  simp only [start, relog, collect, emit, runPhase, Referee.takeEvents, List.append_assoc]
  rfl

theorem reroll_relog : (g.relog old).reroll = g.reroll.map id (relog old) := by
  simp only [reroll, relog, collect, emit, runPhase, Referee.takeEvents, List.append_assoc]
  split
  · rfl
  split
  · rfl
  split
  · rfl
  · simp only [Prod.map, relog]
    rfl

/-! ## Turns -/

theorem beginTurn_relog : (g.relog old).beginTurn = g.beginTurn.map id (relog old) := rfl

theorem exchange_relog (choice : Choice) :
    (g.relog old).exchange choice = (g.exchange choice).map id (relog old) := rfl

theorem settleTurn_relog (choice opponent : Choice) :
    (g.relog old).settleTurn choice opponent =
      (g.settleTurn choice opponent).map id (relog old) := by
  simp only [settleTurn, relog, collect, emit, runPhase, Referee.takeEvents, List.append_assoc]
  rfl

theorem finish_relog : (g.relog old).finish = g.finish.map id (relog old) := by
  simp only [finish, relog, collect, emit, runPhase, Referee.takeEvents, List.append_assoc]
  rfl

theorem play_relog (choice : Choice) :
    (g.relog old).play choice = (g.play choice).map id (relog old) := by
  rcases exchanged : g.beginTurn.2.exchange choice with ⟨card?, paired⟩
  have exchanged' : (g.relog old).beginTurn.2.exchange choice = (card?, paired.relog old) := by
    rw [beginTurn_relog, Prod.map_snd, exchange_relog, exchanged]
    rfl
  simp only [play, exchanged, exchanged', stage_relog, table_relog, finish_relog]
  -- Three refusals, of which the last ends the round, then the turn itself.
  split
  · rfl
  split
  · rfl
  split
  · rfl
  cases card? with
  | none => rfl
  | some card =>
    simp only [settleTurn_relog, Prod.map, isOver_relog]
    split
    · simp only [finish_relog]
      rfl
    · rfl

/-! ## Requests -/

theorem answerTo_relog (move : Move) : (g.relog old).answerTo move = g.answerTo move := by
  cases move <;>
    simp only [answerTo, enable_relog, toggle_relog, start_relog, reroll_relog, play_relog,
      Prod.map_fst, id]

theorem after_relog (move : Move) : (g.relog old).after move = (g.after move).relog old := by
  cases move <;>
    simp only [after, enable_relog, toggle_relog, clear_relog, start_relog, reroll_relog,
      play_relog, Prod.map_snd]

/-- A request either leaves both logs with the old events in front, or takes both. -/
theorem serve_relog (request : Request) :
    ∃ kept, (g.relog old).serve request = (g.serve request).relog kept ∧
      (g.relog old).eventsFor request ++ kept = old ++ g.eventsFor request := by
  cases request with
  | make move => exact ⟨old, g.after_relog old move, (List.append_nil old).symm⟩
  | takeEvents => exact ⟨[], rfl, List.append_nil _⟩
  | takeLines => exact ⟨old, rfl, (List.append_nil old).symm⟩

theorem answer?_relog (request : Request) : (g.relog old).answer? request = g.answer? request := by
  cases request with
  | make move => exact congrArg some (g.answerTo_relog old move)
  | takeEvents => rfl
  | takeLines => rfl

theorem answers_relog (requests : List Request) :
    (g.relog old).answers requests = g.answers requests := by
  induction requests generalizing old g with
  | nil => rfl
  | cons request requests ih =>
    obtain ⟨kept, left, -⟩ := g.serve_relog old request
    rw [answers_cons, answers_cons, answer?_relog, left, ih]

theorem log_relog (requests : List Request) :
    (g.relog old).log requests = old ++ g.log requests := by
  induction requests generalizing old g with
  | nil => rfl
  | cons request requests ih =>
    obtain ⟨kept, left, events⟩ := g.serve_relog old request
    rw [log_cons, log_cons, left, ih, ← List.append_assoc, events, List.append_assoc]

theorem served_relog (requests : List Request) :
    ∃ kept, (g.relog old).served requests = (g.served requests).relog kept := by
  induction requests generalizing old g with
  | nil => exact ⟨old, rfl⟩
  | cons request requests ih =>
    obtain ⟨kept, left, -⟩ := g.serve_relog old request
    rw [served_cons, served_cons, left]
    exact ih kept _

end Roshambo.Game
