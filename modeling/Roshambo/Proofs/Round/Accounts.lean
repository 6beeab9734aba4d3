import Mathlib.Algebra.GroupWithZero.Nat
import Mathlib.Algebra.Ring.Int.Defs
import Roshambo.Proofs.Pass.Score
import Roshambo.Proofs.Round.Course
import Roshambo.Proofs.Round.Schedule

/-!
# The accounts of a round

Every call answers with the reports of its passes, and a turn with a record besides. Nothing moves
the total of a round but the deltas of these reports, each of them once: `booked_run` follows the
total, saturating as the game does, through any moves after a start. Where nothing is cut to a
word, the sums of the accounts can be read off it.
-/
namespace Roshambo

namespace Saturating

/-- Added to the sum one after another, the numbers never leave the range of words. -/
def SumsFit : Int → List Int → Prop
  | _, [] => True
  | sum, n :: ns => Fits (sum + n) ∧ SumsFit (sum + n) ns

instance decidableSumsFit : ∀ sum ns, Decidable (SumsFit sum ns)
  | _, [] => .isTrue trivial
  | _, _ :: _ => @instDecidableAnd _ _ _ (decidableSumsFit _ _)

theorem toInt_foldl_add {total : Int64} {deltas : List Int64}
    (fits : SumsFit total.toInt (deltas.map Int64.toInt)) :
    (deltas.foldl add total).toInt = total.toInt + (deltas.map Int64.toInt).sum := by
  induction deltas generalizing total with
  | nil => simp
  | cons delta deltas ih =>
    have first : (add total delta).toInt = total.toInt + delta.toInt := by
      rw [toInt_add, clamp_of_fits fits.1]
    rw [List.foldl_cons, ih (first ▸ fits.2), first, List.map_cons, List.sum_cons]
    omega

end Saturating

/-- The passes of a deal do not score. -/
theorem Referee.DealPasses.unscored {ref : Referee} {again : Bool} {t : Table}
    {first second : Referee.PassResult Table} (passes : ref.DealPasses again t first second) :
    first.report.delta = 0 ∧ second.report.delta = 0 := by
  obtain ⟨ctx, -, -, zero, prepared⟩ := passes.prepared
  obtain ⟨gate, ctx', zero', opened⟩ := passes.opened
  constructor
  · rw [← prepared, ref.delta_prepareRound, zero]
  · rw [← opened, Referee.delta_openRound, zero']

namespace TurnRecord

/-- What the turn itself added to the score. -/
def gain (record : TurnRecord) : Int := record.startDelta.toInt + record.delta.toInt

/-- The deltas of the record are those of its reports on turn start and settlement. -/
def Itemized (record : TurnRecord) : Prop :=
  ∃ opening settlement rest, record.reports = opening :: settlement :: rest ∧
    opening.phase = .turnStart ∧ settlement.phase = .turnSettlement ∧
    record.startDelta = opening.delta ∧ record.delta = settlement.delta

/-- The turn ended the round with this scorecard, after a third report that adjusted the score. -/
def Closes (record : TurnRecord) (card : Scorecard) : Prop :=
  record.finished = some card ∧ ∃ opening settlement closing,
    record.reports = [opening, settlement, closing] ∧ closing.phase = .roundEnd ∧
      card.adjustment = closing.delta

end TurnRecord

namespace Game

/-- The reports that the answer to a move holds. -/
def reportsOf (g : Game) : Move → List PassReport
  | .toggle rule => (g.toggle rule).1.2.toList
  | .start => g.start.1
  | .reroll =>
    match g.reroll.1 with
    | .ok reports => reports
    | .error _ => []
  | .play choice =>
    match (g.play choice).1 with
    | .ok record => record.reports
    | .error _ => []
  | _ => []

/-- The record that the answer to a move holds, if it is a turn that was not refused. -/
def recordOf? (g : Game) : Move → Option TurnRecord
  | .play choice => (g.play choice).1.toOption
  | _ => none

/-- All reports of a run in their order. -/
def reports (g : Game) : List Move → List PassReport
  | [] => []
  | move :: moves => g.reportsOf move ++ (g.after move).reports moves

def records (g : Game) : List Move → List TurnRecord
  | [] => []
  | move :: moves => (g.recordOf? move).toList ++ (g.after move).records moves

variable {config : RoundSetup} {g g' paired : Game} {choice : Choice} {record : TurnRecord}
  {reports : List PassReport} {records : List TurnRecord}

/-! ## What a turn books -/

namespace Course

variable (course : g.Course choice record g' paired)
include course

theorem total : g'.table.total =
    (record.reports.map (·.delta)).foldl Saturating.add g.table.total := by
  obtain ⟨settlement, settled, eq, closing⟩ := course.closing
  have total := total_settleTurn paired choice record.opponent
  rw [course.total_paired, eq] at total
  rcases closing with ⟨-, rfl, -, items⟩ | ⟨-, rfl, -, items⟩ <;> rw [items]
  · exact total
  · rw [total_finish, total]
    simp only [List.map_cons, List.map_nil, List.foldl_cons, List.foldl_nil]

theorem phases : ∀ report ∈ record.reports,
    ¬ (report.phase = .roundPrepare ∨ report.phase = .roundStart) := by
  obtain ⟨settlement, settled, eq, closing⟩ := course.closing
  have opening : g.beginTurn.1.phase = .turnStart := rfl
  have settles : settlement.phase = .turnSettlement := (congrArg (·.1.phase) eq).symm
  have closes : settled.finish.1.2.phase = .roundEnd := rfl
  rcases closing with ⟨-, -, -, items⟩ | ⟨-, -, -, items⟩ <;> rw [items]
  · simp [opening, settles]
  · simp [opening, settles, closes]

theorem itemized : record.Itemized := by
  obtain ⟨settlement, settled, eq, closing⟩ := course.closing
  have settles : settlement.phase = .turnSettlement := (congrArg (·.1.phase) eq).symm
  have delta := course.delta
  rw [eq] at delta
  rcases closing with ⟨-, -, -, items⟩ | ⟨-, -, -, items⟩ <;>
    exact ⟨_, _, _, items, rfl, settles, course.startDelta, delta⟩

/-- The reports of a turn add up to its gain and to the adjustment, if it ended the round. -/
theorem balance (fresh : g.adjustment = 0) :
    (record.reports.map (·.delta.toInt)).sum = record.gain + g'.adjustment.toInt := by
  obtain ⟨settlement, settled, eq, closing⟩ := course.closing
  have gain : record.gain = g.beginTurn.1.delta.toInt + settlement.delta.toInt := by
    rw [TurnRecord.gain, course.startDelta, course.delta, eq]
  have kept : settled.adjustment = 0 := by
    have same : settled.adjustment = paired.adjustment := (congrArg (·.2.adjustment) eq).symm
    rw [same, course.paired_eq]
    exact fresh
  have adjusted : settled.finish.2.adjustment = settled.finish.1.2.delta := rfl
  rcases closing with ⟨-, rfl, -, items⟩ | ⟨-, rfl, -, items⟩ <;> rw [items, gain]
  · simp [kept]
  · simp [adjusted, Int.add_assoc]

theorem finished (active : g.stage = .active) :
    (g'.stage = .active ∧ record.finished = none) ∨
      (g'.stage = .finished ∧ record.Closes g'.summary) := by
  obtain ⟨settlement, settled, eq, closing⟩ := course.closing
  rcases closing with ⟨-, rfl, finished, -⟩ | ⟨-, rfl, finished, items⟩
  · have same : g'.stage = paired.stage := (congrArg (·.2.stage) eq).symm
    refine .inl ⟨?_, finished⟩
    rw [same, course.paired_eq]
    exact active
  · exact .inr ⟨rfl, finished, _, _, _, items, rfl, rfl⟩

end Course

/-! ## The books -/

/-- The books of a round that has come to `g`: the reports and the records since its start. -/
structure Booked (g : Game) (reports : List PassReport) (records : List TurnRecord) : Prop where
  folded : g.table.total = (reports.map (·.delta)).foldl Saturating.add 0
  balance : (reports.map (·.delta.toInt)).sum =
    (records.map TurnRecord.gain).sum + g.adjustment.toInt
  unscored : ∀ report ∈ reports, report.phase = .roundPrepare ∨ report.phase = .roundStart →
    report.delta = 0
  itemized : ∀ record ∈ records, record.Itemized
  going : g.stage = .active → ∀ record ∈ records, record.finished = none
  closed : g.stage = .finished → ∃ record ∈ records.getLast?, record.Closes g.summary

namespace Booked

/-- A report without a delta does not show in the sums. -/
theorem note (h : g.Booked reports records) {report : PassReport} (unscored : report.delta = 0) :
    g.Booked (reports ++ [report]) records where
  folded := by
    rw [List.map_append, List.foldl_append, ← h.folded]
    exact (unscored ▸ Saturating.add_zero g.table.total).symm
  balance := by
    rw [List.map_append, List.sum_append, h.balance]
    simp [unscored]
  unscored := by
    intro other mem
    rcases List.mem_append.1 mem with old | new
    · exact h.unscored other old
    · exact fun _ => List.mem_singleton.1 new ▸ unscored
  itemized := h.itemized
  going := h.going
  closed := h.closed

theorem of_sameRound (h : g.Booked reports records) (same : g.SameRound g') :
    g'.Booked reports records := by
  have plan := same.plan_eq
  obtain ⟨lines, table⟩ := same.table
  have total : g'.table.total = g.table.total := by rw [table]
  have rerolls : g'.table.rerolls = g.table.rerolls := by rw [table]
  have summary : g'.summary = g.summary := by
    simp only [Game.summary, plan, total, rerolls, same.outcomes, same.played, same.adjustment]
  refine ⟨total.trans h.folded, same.adjustment ▸ h.balance, h.unscored, h.itemized,
    same.stage ▸ h.going, ?_⟩
  rw [same.stage, summary]
  exact h.closed

theorem of_rerolled (h : g.Booked reports records) (active : g.stage = .active)
    (rerolled : g.Rerolled g') : g'.Booked reports records := by
  refine ⟨rerolled.total.trans h.folded, rerolled.adjustment ▸ h.balance, h.unscored, h.itemized,
    rerolled.stage ▸ h.going, ?_⟩
  rw [rerolled.stage, active]
  exact fun finished => by cases finished

theorem play (h : g.Booked reports records) (active : g.stage = .active) (fresh : g.adjustment = 0)
    (course : g.Course choice record g' paired) :
    g'.Booked (reports ++ record.reports) (records ++ [record]) where
  folded := by
    rw [course.total, List.map_append, List.foldl_append, ← h.folded]
  balance := by
    have before := h.balance
    have turn := course.balance fresh
    rw [fresh] at before
    simp only [List.map_append, List.sum_append, List.map_cons, List.map_nil, List.sum_singleton,
      Int64.toInt_zero] at before ⊢
    omega
  unscored := by
    intro report mem
    rcases List.mem_append.1 mem with old | new
    · exact h.unscored report old
    · exact fun phase => absurd phase (course.phases report new)
  itemized := by
    intro other mem
    rcases List.mem_append.1 mem with old | new
    · exact h.itemized other old
    · exact List.mem_singleton.1 new ▸ course.itemized
  going := by
    intro still other mem
    rcases course.finished active with ⟨-, going⟩ | ⟨ended, -⟩
    · rcases List.mem_append.1 mem with old | new
      · exact h.going active other old
      · exact List.mem_singleton.1 new ▸ going
    · rw [still] at ended
      cases ended
  closed := by
    intro ended
    rcases course.finished active with ⟨still, -⟩ | ⟨-, closes⟩
    · rw [still] at ended
      cases ended
    · exact ⟨record, by simp, closes⟩

end Booked

theorem toggle_unscored (g : Game) (rule : Rule) :
    ∀ report ∈ (g.toggle rule).1.2, report.delta = 0 := by
  intro report mem
  by_cases active : g.stage = .active
  · simp only [toggle, if_pos active, Option.mem_def, Option.some.injEq] at mem
    rw [← mem]
    exact Referee.delta_openRound _ _ _ _ false
  · simp only [toggle, if_neg active] at mem
    cases mem

theorem booked_start (g : Game) : g.start.2.Booked g.start.1 [] := by
  obtain ⟨first, second, passes, eq⟩ := g.start_eq
  obtain ⟨prepared, opened⟩ := passes.unscored
  have total : second.host.total = 0 := passes.grows.total
  have empty : Booked { table := second.host, stage := .active } [] [] :=
    ⟨total, rfl, by simp, by simp, by simp, fun finished => by cases finished⟩
  have noted := (empty.note prepared).note opened
  rw [eq]
  exact ⟨noted.folded, noted.balance, noted.unscored, by simp, by simp,
    fun finished => by cases finished⟩

/-- Every move but a start is booked as it answers. -/
theorem Booked.after (h : g.Booked reports records) (sound : g.Sound config) {move : Move}
    (goes : move ≠ .start) : (g.after move).Booked (reports ++ g.reportsOf move)
      (records ++ (g.recordOf? move).toList) := by
  have refused : g.Booked (reports ++ []) (records ++ []) := by simpa using h
  cases move with
  | enable rule => exact refused.of_sameRound (sameRound_enable rule sound.queue)
  | clear => exact refused.of_sameRound (sameRound_clear sound.queue)
  | start => exact absurd rfl goes
  | toggle rule =>
    have same := sameRound_toggle rule sound.queue sound.gate
    have unscored := g.toggle_unscored rule
    show (g.toggle rule).2.Booked (reports ++ (g.toggle rule).1.2.toList) (records ++ [])
    rw [List.append_nil]
    cases answer : (g.toggle rule).1.2 with
    | none => simpa using h.of_sameRound same
    | some report => exact (h.of_sameRound same).note (unscored report answer)
  | reroll =>
    rcases reroll_refused_or sound.queue with ⟨refusal, eq⟩ | ⟨active, fresh, left⟩
    · simpa [Game.after, reportsOf, recordOf?, eq] using h
    · obtain ⟨answer, g', eq, rerolled⟩ := rerolled_reroll sound.queue active fresh left
      obtain ⟨first, second, passes, eq'⟩ := reroll_eq active fresh left
      obtain ⟨prepared, opened⟩ := passes.unscored
      cases (Prod.mk.inj (eq.symm.trans eq')).1
      simpa [Game.after, reportsOf, recordOf?, eq] using
        ((h.of_rerolled active rerolled).note prepared).note opened
  | play choice =>
    rcases play_cases choice sound.queue with ⟨_, eq⟩ | ⟨_, _, eq⟩ | ⟨active, _, empty, _⟩ |
      ⟨active, _, record, g', eq, _⟩
    · simpa [Game.after, reportsOf, recordOf?, eq, Except.toOption] using h
    · simpa [Game.after, reportsOf, recordOf?, eq, Except.toOption] using h
    · exact absurd empty (sound.stocked active .opponent)
    · obtain ⟨paired, course⟩ := course_of_play eq
      simpa [Game.after, reportsOf, recordOf?, eq, Except.toOption] using
        h.play active (sound.fresh active) course

theorem booked_run {moves : List Move} (within : Move.start ∉ moves) (sound : g.Sound config)
    (h : g.Booked reports records) :
    (g.run moves).Booked (reports ++ g.reports moves) (records ++ g.records moves) := by
  -- The books are open at both ends: what was booked before the run stays in front.
  induction moves generalizing g reports records with
  | nil => simpa [Game.reports, Game.records] using h
  | cons move moves ih =>
    rw [List.mem_cons, not_or] at within
    have next := h.after sound (Ne.symm within.1)
    have rest := ih within.2 (sound.of_step (sound.step move)) next
    rwa [List.append_assoc, List.append_assoc] at rest

/-! ## The sums -/

/-- The accounts of a round that has come to `g`. They are those of its books, and nothing is lost
in them to the range of words. -/
structure Accounts (g : Game) (reports : List PassReport) (records : List TurnRecord) : Prop
    extends g.Booked reports records where
  total : g.table.total.toInt = (reports.map (·.delta.toInt)).sum
  score : g.summary.score.toInt =
    (records.map TurnRecord.gain).sum + g.summary.adjustment.toInt

theorem Booked.toInt_total (h : g.Booked reports records)
    (fits : Saturating.SumsFit 0 (reports.map (·.delta.toInt))) :
    g.table.total.toInt = (reports.map (·.delta.toInt)).sum := by
  have deltas : reports.map (·.delta.toInt) = (reports.map (·.delta)).map Int64.toInt := by
    rw [List.map_map]
    rfl
  have zero : (0 : Int64).toInt = 0 := Int64.toInt_zero
  rw [deltas] at fits ⊢
  rw [h.folded, Saturating.toInt_foldl_add (zero.symm ▸ fits), zero, Int.zero_add]

/-- Whatever is done to a round after its start, its total is the sum of all deltas reported since,
as long as this sum never leaves the range of words on the way. The moves may stop anywhere, so the
accounts are right at every point of the round. -/
theorem accounts_run (config : RoundSetup) (seed : UInt64) (earlier moves : List Move)
    (within : Move.start ∉ moves)
    (unsaturated : Saturating.SumsFit 0
      ((((ofSeed config seed).run earlier).reports (.start :: moves)).map (·.delta.toInt))) :
    let g := (ofSeed config seed).run earlier
    (g.run (.start :: moves)).Accounts (g.reports (.start :: moves))
      (g.records (.start :: moves)) := by
  intro g
  have sound : g.start.2.Sound config :=
    (sound_run config seed earlier).of_step ((sound_run config seed earlier).step .start)
  have booked := booked_run within sound g.booked_start
  have total := booked.toInt_total unsaturated
  exact ⟨booked, total, total.trans booked.balance⟩

/-- A bonus for a rock played and a bonus toggled on within the round are in the score. -/
theorem accounts_run_bonus :
    let check : Rule := { name := "Rock bonus", tags := [.timing .roundEnd,
      .condition (.playedAtLeast .rock 1), .effect { effect := .addScore 20 }] }
    let late : Rule := { name := "Late bonus", tags := [.timing .turnStart,
      .effect { effect := .addScore 2 }] }
    let config : RoundSetup := { RoundSetup.standard with
      player := ⟨1, 1, 0, 0⟩, opponent := ⟨1, 1, 0, 0⟩ }
    let moves : List Move := [.toggle late, .play .rock]
    let g := (ofSeed config 8).run [.enable check]
    Move.start ∉ moves ∧
      Saturating.SumsFit 0 ((g.reports (.start :: moves)).map (·.delta.toInt)) ∧
      (g.run (.start :: moves)).Accounts (g.reports (.start :: moves))
        (g.records (.start :: moves)) ∧
      (g.run (.start :: moves)).stage = .finished ∧
      (g.run (.start :: moves)).summary.score = 25 := by
  intro check late config moves g
  have within : Move.start ∉ moves := by decide
  have deltas : (g.reports (.start :: moves)).map (·.delta.toInt) = [0, 0, 0, 2, 3, 20] := by
    decide +kernel
  have unsaturated : Saturating.SumsFit 0 ((g.reports (.start :: moves)).map (·.delta.toInt)) := by
    rw [deltas]
    decide
  refine ⟨within, unsaturated, accounts_run config 8 [.enable check] moves within unsaturated,
    ?_, ?_⟩
  · decide +kernel
  · decide +kernel

end Game
end Roshambo
