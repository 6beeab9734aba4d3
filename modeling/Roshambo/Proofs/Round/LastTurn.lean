import Roshambo.Proofs.Round.Course
import Roshambo.Proofs.Round.Schedule

/-!
# The last turn

A rule may ask whether the turn at hand is the last one. Both passes of a turn are told the same,
and what they are told follows the plan: the planned turn is announced, and the round does end with
it. A hand that empties before ends the round without notice.
-/
namespace Roshambo.Game

/-- What the rules may look at when a turn opens. -/
def openingContext (g : Game) : Context := g.duringTurn g.table.turn

/-- What the rules may look at when both cards of a turn have left their hands. -/
def settlingContext (g : Game) (choice opponent : Choice) : Context :=
  let outcome := judge choice opponent
  let entered : Game :=
    { g with played := g.played ++ [choice], outcomes := g.outcomes ++ [outcome] }
  { entered.duringTurn g.table.turn with
    choice := some choice
    outcome := some outcome
    delta := g.table.setup.scores.base outcome }

variable {config : RoundSetup} {g g' paired : Game} {choice : Choice} {record : TurnRecord}

/-- The reports on turn start and settlement are of passes with these contexts. -/
theorem Course.reports_eq (course : g.Course choice record g' paired) :
    record.reports.take 2 =
      [(g.referee.openTurn Table.host g.openingContext g.table).report,
        (paired.referee.settleTurn Table.host (paired.settlingContext choice record.opponent)
          paired.table).report] := by
  obtain ⟨settlement, settled, eq, ⟨_, _, _, reports⟩ | ⟨_, _, _, reports⟩⟩ := course.closing
  all_goals
    have second : settlement = (paired.settleTurn choice record.opponent).1 := by rw [eq]
    rw [reports, second]
    rfl

/-- From the opening of a turn to its settlement neither the plan nor the turn counter moves. -/
theorem Course.clock_paired (course : g.Course choice record g' paired) :
    paired.table.turn = g.table.turn ∧ paired.table.plan = g.table.plan := by
  have discarded : ∀ t : Table, (t.discard choice).2.turn = t.turn ∧
      (t.discard choice).2.plan = t.plan := by
    intro t
    unfold Table.discard
    split <;> exact ⟨rfl, rfl⟩
  have drawn : ∀ (t : Table) (fromFront : Bool), (t.drawCard fromFront).2.turn = t.turn ∧
      (t.drawCard fromFront).2.plan = t.plan := by
    intro t fromFront
    unfold Table.drawCard
    split
    · exact ⟨rfl, rfl⟩
    · split <;> exact ⟨rfl, rfl⟩
  obtain ⟨lines, total, ref, begun, -⟩ := g.beginTurn_frame
  rw [course.paired_eq, begun]
  exact ⟨(drawn _ _).1.trans (discarded _).1, (drawn _ _).2.trans (discarded _).2⟩

theorem openingContext_isLastTurn :
    g.openingContext.isLastTurn = true ↔ 1 ≤ g.table.turn ∧ g.table.turn = g.table.plan := by
  simp [openingContext, duringTurn, Context.atTurn]

theorem Course.isLastTurn_settling (course : g.Course choice record g' paired) :
    (paired.settlingContext choice record.opponent).isLastTurn = g.openingContext.isLastTurn := by
  obtain ⟨turn, plan⟩ := course.clock_paired
  show (1 ≤ paired.table.turn && paired.table.turn == paired.table.plan) =
    (1 ≤ g.table.turn && g.table.turn == g.table.plan)
  rw [turn, plan]

/-- The turn that is announced as the last one is the one that uses up the plan. -/
theorem OnSchedule.isLastTurn_iff (h : g.OnSchedule config) (active : g.stage = .active)
    (taken : g.TurnTaken choice record.opponent g') :
    g.openingContext.isLastTurn = true ↔ g'.played.length = g'.table.plan.toNat := by
  have turn := h.turn active
  have played : g'.played.length = g.table.turn.toNat := by simp [taken.played, turn]
  rw [openingContext_isLastTurn, played, taken.plan_eq, UInt32.le_iff_toNat_le,
    ← UInt32.toNat_inj, UInt32.toNat_one]
  omega

theorem OnSchedule.finished_iff (h : g.OnSchedule config) (active : g.stage = .active)
    (held : choice ∈ g.table.player) (taken : g.TurnTaken choice record.opponent g') :
    g'.stage = .finished ↔ g.openingContext.isLastTurn = true ∨ g'.table.player = [] ∨
      g'.table.opponent = [] := by
  have ended : g'.stage = .finished ↔ g'.isOver = true := by
    rw [taken.stage]
    split <;> simp_all
  have ahead := h.ahead active
  have first := h.turn active
  rw [ended, isOver_iff, openingContext_isLastTurn, taken.plan_eq, taken.turn,
    List.length_eq_zero_iff, List.length_eq_zero_iff, UInt32.le_iff_toNat_le, ← UInt32.toNat_inj,
    UInt32.toNat_one]
  by_cases emptied : g'.table.player = []
  · simp [emptied]
  · rw [h.toNat_next_of_stocked active held taken emptied]
    have reason : g.table.plan.toNat < g.table.turn.toNat + 1 ↔
        1 ≤ g.table.turn.toNat ∧ g.table.turn.toNat = g.table.plan.toNat := by omega
    rw [reason]

/-- What the passes of a turn are told about the last turn is the same in both, and true of the turn
that uses up the plan. The round ends with that turn, and before it only with a hand that is
empty. -/
theorem lastTurn_of_play (reached : Reached config g)
    (played : g.play choice = (.ok record, g')) :
    let told := g.openingContext.isLastTurn
    ∃ paired, g.beginTurn.2.exchange choice = (some record.opponent, paired) ∧
      record.reports.take 2 =
        [(g.referee.openTurn Table.host g.openingContext g.table).report,
          (paired.referee.settleTurn Table.host (paired.settlingContext choice record.opponent)
            paired.table).report] ∧
      (paired.settlingContext choice record.opponent).isLastTurn = told ∧
      (told = true ↔ g'.played.length = g'.table.plan.toNat) ∧
      (g'.stage = .finished ↔
        told = true ∨ g'.table.player = [] ∨ g'.table.opponent = []) := by
  obtain ⟨active, held, taken⟩ := reached.sound.taken_of_play played
  obtain ⟨paired, course⟩ := course_of_play played
  exact ⟨paired, course.drawn, course.reports_eq, course.isLastTurn_settling,
    reached.onSchedule.isLastTurn_iff active taken,
    reached.onSchedule.finished_iff active held taken⟩

/-- The one turn of a round that is planned for one turn. -/
theorem lastTurn_of_play_only :
    let config : RoundSetup := ⟨1, 0, ⟨3, 1, 1, 1⟩, ⟨3, 1, 1, 1⟩, .standard⟩
    let g := (ofSeed config 3).run [.start]
    ∃ record g', Reached config g ∧ g.play .rock = (.ok record, g') ∧
      g.openingContext.isLastTurn = true ∧ g'.stage = .finished := by
  intro config g
  have reached : Reached config g := (Reached.ofSeed 3).run _
  have told : g.openingContext.isLastTurn = true := by decide +kernel
  have answered : (g.play .rock).1.isOk = true := by decide +kernel
  rcases played : g.play .rock with ⟨_ | record, g'⟩
  · rw [played] at answered
    cases answered
  · obtain ⟨_, _, _, _, _, finished⟩ := lastTurn_of_play reached played
    exact ⟨record, g', reached, rfl, told, finished.2 (.inl told)⟩

/-- Five turns are planned, but there are cards for one. -/
theorem lastTurn_unannounced :
    let config : RoundSetup := ⟨5, 0, ⟨1, 1, 0, 0⟩, ⟨1, 1, 0, 0⟩, .standard⟩
    let g := (ofSeed config 3).run [.start]
    let paired := (g.beginTurn.2.exchange .rock).2
    Reached config g ∧ g.stage = .active ∧ (g.play .rock).1.isOk = true ∧
      (g.play .rock).2.stage = .finished ∧ g.openingContext.isLastTurn = false ∧
      (paired.settlingContext .rock .rock).isLastTurn = false := by
  intro config g paired
  have reached : Reached config g := (Reached.ofSeed 3).run _
  exact ⟨reached, by decide +kernel, by decide +kernel, by decide +kernel, by decide +kernel,
    by decide +kernel⟩

end Roshambo.Game
