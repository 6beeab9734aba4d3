import Roshambo.Proofs.Round.Growth
import Roshambo.Round.Game

/-!
# The course of a turn

A turn that is not refused is turn start, exchange and settlement in a row, and then the end of the
round if it is over. `course_of_play` tells a turn from its record, so that later results follow
the parts of the turn and not its code. Each of the parts adds the delta of its own report to the
total.
-/
namespace Roshambo.Game

/-- How the turn went that answered with the record; `paired` is the game in which both cards of the
turn have left their hands. -/
structure Course (g : Game) (choice : Choice) (record : TurnRecord) (g' paired : Game) : Prop where
  drawn : g.beginTurn.2.exchange choice = (some record.opponent, paired)
  startDelta : record.startDelta = g.beginTurn.1.delta
  delta : record.delta = (paired.settleTurn choice record.opponent).1.delta
  closing : ∃ settlement settled, paired.settleTurn choice record.opponent = (settlement, settled) ∧
    ((settled.isOver = false ∧ g' = settled ∧ record.finished = none ∧
        record.reports = [g.beginTurn.1, settlement]) ∨
      (settled.isOver = true ∧ g' = settled.finish.2 ∧
        record.finished = some settled.finish.1.1 ∧
        record.reports = [g.beginTurn.1, settlement, settled.finish.1.2]))

variable {g g' paired : Game} {choice : Choice} {record : TurnRecord}

theorem exists_course (played : g.play choice = (.ok record, g')) :
    record.player = choice ∧ record.turn = g.table.turn ∧
      ∃ paired, g.Course choice record g' paired := by
  -- The record is that of the one branch in which no check refuses and a card is drawn.
  unfold play at played
  split at played
  · cases played
  · split at played
    · cases played
    · split at played
      · cases played
      · rcases exchanged : g.beginTurn.2.exchange choice with ⟨_ | card, paired⟩
        · simp only [exchanged] at played
          cases played
        · simp only [exchanged] at played
          split at played
          · rename_i ended
            cases played
            exact ⟨rfl, rfl, paired, exchanged, rfl, rfl, _, _, rfl, .inr ⟨ended, rfl, rfl, rfl⟩⟩
          · rename_i ended
            cases played
            exact ⟨rfl, rfl, paired, exchanged, rfl, rfl, _, _, rfl,
              .inl ⟨Bool.eq_false_iff.2 ended, rfl, rfl, rfl⟩⟩

theorem course_of_play (played : g.play choice = (.ok record, g')) :
    ∃ paired, g.Course choice record g' paired :=
  (exists_course played).2.2

/-- The record of a turn names the card that was asked for. -/
theorem player_of_play (played : g.play choice = (.ok record, g')) : record.player = choice :=
  (exists_course played).1

theorem turn_of_play (played : g.play choice = (.ok record, g')) : record.turn = g.table.turn :=
  (exists_course played).2.1

theorem Course.paired_eq (course : g.Course choice record g' paired) :
    paired = (g.beginTurn.2.exchange choice).2 := by
  rw [course.drawn]

/-! ## The total -/

theorem total_beginTurn (g : Game) :
    g.beginTurn.2.table.total = Saturating.add g.table.total g.beginTurn.1.delta :=
  congrArg (Saturating.add · g.beginTurn.1.delta)
    (g.referee.grows_evaluate .turnStart false (g.duringTurn g.table.turn) g.table).total

theorem total_exchange (g : Game) (choice : Choice) :
    (g.exchange choice).2.table.total = g.table.total := by
  have discarded : ∀ t : Table, (t.discard choice).2.total = t.total := by
    intro t
    unfold Table.discard
    split <;> rfl
  have drawn : ∀ (t : Table) (fromFront : Bool), (t.drawCard fromFront).2.total = t.total := by
    intro t fromFront
    unfold Table.drawCard
    split
    · rfl
    · split <;> rfl
  exact (drawn _ _).trans (discarded g.table)

theorem total_settleTurn (g : Game) (choice opponent : Choice) :
    (g.settleTurn choice opponent).2.table.total =
      Saturating.add g.table.total (g.settleTurn choice opponent).1.delta :=
  congrArg (Saturating.add · (g.settleTurn choice opponent).1.delta)
    (g.referee.grows_evaluate .settlement false _ g.table).total

theorem total_finish (g : Game) :
    g.finish.2.table.total = Saturating.add g.table.total g.finish.1.2.delta :=
  congrArg (Saturating.add · g.finish.1.2.delta)
    (g.referee.grows_evaluate .roundEnd false g.afterTurns g.table).total

theorem Course.total_paired (course : g.Course choice record g' paired) :
    paired.table.total = Saturating.add g.table.total g.beginTurn.1.delta := by
  rw [course.paired_eq, total_exchange, total_beginTurn]

end Roshambo.Game
