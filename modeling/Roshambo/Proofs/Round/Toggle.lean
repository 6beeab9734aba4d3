import Roshambo.Proofs.Round.Accounts

/-!
# Toggling a rule

Within a round, a toggle runs a whole round-start pass over every active rule, and the pass works
on the table itself. In a game that calls can lead to, the hand gate is closed by then, so that no
rule turns cards or fixes the draw: a toggle leaves everything as it was but the active rules, the
lines shown and the log.
-/
namespace Roshambo.Game

variable {config : RoundSetup} {g g' : Game}

/-- What goes on as before is the same game up to rules, lines and log. -/
theorem SameRound.exists_eq (same : g.SameRound g') (queue : g.referee.events = []) :
    ∃ lines news, g' = { g with
      table := { g.table with shown := lines }
      referee := { g.referee with active := g'.referee.active }
      events := g.events ++ news } := by
  obtain ⟨⟨lines, table⟩, stage, played, outcomes, adjustment, draw, tally, gate, empty, news, log,
    -⟩ := same
  refine ⟨lines, news, ?_⟩
  obtain ⟨_, ⟨_, _, _, _, _⟩, _, _, _, _, _⟩ := g'
  obtain ⟨_, ⟨_, _, _, _, _⟩, _, _, _, _, _⟩ := g
  simp only at *
  subst_vars
  rfl

theorem answer_toggle (g : Game) (rule : Rule) :
    (g.toggle rule).1.1 = (g.referee.active.toggle rule).1 ∧
      ((g.toggle rule).1.2.isSome = true ↔ g.stage = .active) ∧
      (g.toggle rule).2.referee.active = (g.referee.active.toggle rule).2 := by
  by_cases active : g.stage = .active
  · simp only [toggle, if_pos active]
    exact ⟨rfl, iff_of_true rfl active, rfl⟩
  · simp only [toggle, if_neg active]
    exact ⟨rfl, iff_of_false Bool.false_ne_true active, rfl⟩

/-- A toggle is for information only, whatever effects the rule and the other active ones carry. It
answers with a report just while a round is active, and the report scores nothing. -/
theorem toggle_of_reached (h : Reached config g) (rule : Rule) :
    (∃ lines news, (g.toggle rule).2 = { g with
      table := { g.table with shown := lines }
      referee := { g.referee with active := (g.referee.active.toggle rule).2 }
      events := g.events ++ news }) ∧
    (g.toggle rule).1.1 = (g.referee.active.toggle rule).1 ∧
    ((g.toggle rule).1.2.isSome = true ↔ g.stage = .active) ∧
    ∀ report ∈ (g.toggle rule).1.2, report.delta = 0 := by
  obtain ⟨answer, reports, active⟩ := g.answer_toggle rule
  have same := sameRound_toggle rule h.sound.queue h.sound.gate
  obtain ⟨lines, news, eq⟩ := same.exists_eq h.sound.queue
  rw [active] at eq
  exact ⟨⟨lines, news, eq⟩, answer, reports, g.toggle_unscored rule⟩

/-- A rule that would turn cards and fix the draw at the start of a round, enabled too late. -/
theorem toggle_of_reached_landslide :
    let landslide : Rule := { name := "Landslide", tags :=
      [.timing .roundStart, .effect ⟨.replaceOpponentCards .rock 2, {}⟩,
        .effect ⟨.forceOpponentDrawFromFront true, {}⟩] }
    let g := (ofSeed .standard 7).run [.start]
    Reached .standard g ∧
      (∃ lines news, (g.toggle landslide).2 = { g with
        table := { g.table with shown := lines }
        referee := { g.referee with active := (g.referee.active.toggle landslide).2 }
        events := g.events ++ news }) ∧
      (g.toggle landslide).1.2.isSome = true := by
  intro landslide g
  have reached : Reached .standard g := (Reached.ofSeed 7).after .start
  have active : g.stage = .active := (started_start (g := ofSeed .standard 7) rfl).stage
  obtain ⟨same, -, reports, -⟩ := toggle_of_reached reached landslide
  exact ⟨reached, same, reports.2 active⟩

end Roshambo.Game
