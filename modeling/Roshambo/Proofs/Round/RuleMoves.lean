import Roshambo.Proofs.Pass.News
import Roshambo.Proofs.Round.Growth
import Roshambo.Round.Move

/-!
# Changing the rules of a game

Enabling, toggling and clearing rules change which rules are active and what is shown and logged.
Within a round a toggle checks the rules again; with the hand gate closed neither the hands nor the
draw order notice.
-/
namespace Roshambo

namespace Referee

/-- Besides its rules the referee only learned quiet news. -/
structure Learns (ref ref' : Referee) : Prop where
  draw : ref'.draw = ref.draw
  tally : ref'.tally = ref.tally
  gate : ref'.gate = ref.gate
  news : ∃ news, ref'.events = ref.events ++ news ∧ Log.Quiet news ∧ Log.WithinTurn news

theorem Learns.trans {ref₁ ref₂ ref₃ : Referee} (h : ref₁.Learns ref₂) (h' : ref₂.Learns ref₃) :
    ref₁.Learns ref₃ := by
  obtain ⟨news, added, quiet, within⟩ := h.news
  obtain ⟨more, added', quiet', within'⟩ := h'.news
  refine ⟨h'.draw.trans h.draw, h'.tally.trans h.tally, h'.gate.trans h.gate, news ++ more, ?_,
    quiet.append quiet', within.append within'⟩
  rw [added', added, List.append_assoc]

variable (ref : Referee) (rule : Rule)

theorem learns_same (active : ActiveRules) : ref.Learns { ref with active := active } :=
  ⟨rfl, rfl, rfl, [], by simp, by simp [Log.Quiet], by simp [Log.WithinTurn]⟩

theorem learns_toggled (active : ActiveRules) (name : String) (enabled : Bool) :
    ref.Learns ({ ref with active := active }.emit (.ruleToggled name enabled)) :=
  ⟨rfl, rfl, rfl, [.ruleToggled name enabled], rfl,
    by simp [Log.Quiet, Event.revealed?, Event.drawn?],
    by simp [Log.WithinTurn, Event.drawn?, Event.startsRound]⟩

theorem learns_enable : ref.Learns (ref.enable rule).2 := by
  unfold enable
  split
  · exact ref.learns_toggled _ _ _
  · exact ref.learns_same _

theorem learns_toggle : ref.Learns (ref.toggle rule).2 :=
  ref.learns_toggled _ _ _

theorem learns_clear : ref.Learns ref.clear :=
  ⟨rfl, rfl, rfl, [.rulesCleared], rfl, by simp [Log.Quiet, Event.revealed?, Event.drawn?],
    by simp [Log.WithinTurn, Event.drawn?, Event.startsRound]⟩

variable {σ : Type} (host : Host σ) (ctx : Context) (state : σ)

theorem recheckRules_eq : ref.recheckRules host ctx state =
    { ref.evaluate ⟨host, .roundStart false, ref.gate.isOpen⟩ ctx state with
      referee := { (ref.evaluate ⟨host, .roundStart false, ref.gate.isOpen⟩ ctx state).referee with
        gate := .closed } } := by
  simp [recheckRules, openRound]

/-- Checking the rules again reveals nothing and sets no switch but the gate. -/
theorem recheckRules_quiet :
    ∃ news, (ref.recheckRules host ctx state).referee.events = ref.events ++ news ∧
      Log.Quiet news ∧ Log.WithinTurn news := by
  rw [recheckRules_eq]
  exact ref.quiet_evaluate ⟨host, .roundStart false, ref.gate.isOpen⟩ rfl ctx state

theorem learns_recheckRules (closed : ref.gate = .closed) :
    ref.Learns (ref.recheckRules host ctx state).referee where
  gate := by rw [recheckRules_eq, closed]
  draw := by
    rw [recheckRules_eq]
    exact (ref.hears_evaluate ⟨host, .roundStart false, ref.gate.isOpen⟩
      (fun _ => rfl) ctx state).draw (fun h => by cases h) rfl
  tally := by
    rw [recheckRules_eq]
    exact ref.tally_evaluate_of_unplanned _ ctx state (by simp [Pass.effectKinds])
  news := ref.recheckRules_quiet host ctx state

theorem recheckRules_host_closed (closed : ref.gate = .closed) (t : Table) :
    ∃ lines, (ref.recheckRules Table.host ctx t).host = { t with shown := lines } := by
  rw [recheckRules_eq, closed]
  exact ref.host_evaluate_closed (.roundStart false) ctx t

end Referee

namespace Game

/-- The round goes on as before: only rules, lines and log may differ. -/
structure SameRound (g g' : Game) : Prop where
  table : ∃ lines, g'.table = { g.table with shown := lines }
  stage : g'.stage = g.stage
  played : g'.played = g.played
  outcomes : g'.outcomes = g.outcomes
  adjustment : g'.adjustment = g.adjustment
  draw : g'.referee.draw = g.referee.draw
  tally : g'.referee.tally = g.referee.tally
  gate : g'.referee.gate = g.referee.gate
  queue : g'.referee.events = []
  log : ∃ news, g'.events = g.events ++ news ∧ Log.Quiet news ∧ Log.WithinTurn news

variable {g : Game} (rule : Rule)

theorem sameRound_collect {ref : Referee} {table : Table} (queue : g.referee.events = [])
    (learns : g.referee.Learns ref) (shows : ∃ lines, table = { g.table with shown := lines }) :
    g.SameRound { g with table := table, referee := ref : Game }.collect := by
  obtain ⟨news, added, quiet, within⟩ := learns.news
  refine ⟨shows, rfl, rfl, rfl, rfl, learns.draw, learns.tally, learns.gate, rfl, news, ?_, quiet,
    within⟩
  show g.events ++ ref.events = _
  rw [added, queue, List.nil_append]

theorem sameRound_enable (queue : g.referee.events = []) : g.SameRound (g.enable rule).2 :=
  sameRound_collect queue (g.referee.learns_enable rule) ⟨_, rfl⟩

theorem sameRound_clear (queue : g.referee.events = []) : g.SameRound g.clear :=
  sameRound_collect queue g.referee.learns_clear ⟨_, rfl⟩

theorem sameRound_toggle (queue : g.referee.events = []) (closed : g.referee.gate = .closed) :
    g.SameRound (g.toggle rule).2 := by
  have learns := g.referee.learns_toggle rule
  by_cases active : g.stage = .active
  · simp only [toggle, if_pos active]
    have shut : (g.referee.toggle rule).2.gate = .closed := learns.gate.trans closed
    exact sameRound_collect queue (learns.trans (Referee.learns_recheckRules _ _ _ _ shut))
      (Referee.recheckRules_host_closed _ _ shut _)
  · simp only [toggle, if_neg active]
    exact sameRound_collect queue learns ⟨_, rfl⟩

end Game

/-- The move changes the rules and leaves cards alone. -/
def Move.changesRules : Move → Bool
  | .enable _ => true
  | .toggle _ => true
  | .clear => true
  | _ => false

theorem Game.sameRound_after {g : Game} {move : Move} (changes : move.changesRules = true)
    (queue : g.referee.events = []) (closed : g.referee.gate = .closed) :
    g.SameRound (g.after move) := by
  cases move with
  | enable rule => exact g.sameRound_enable rule queue
  | toggle rule => exact g.sameRound_toggle rule queue closed
  | clear => exact g.sameRound_clear queue
  | start => cases changes
  | reroll => cases changes
  | play choice => cases changes

end Roshambo
