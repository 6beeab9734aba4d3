import Mathlib.Algebra.GroupWithZero.Nat
import Mathlib.Algebra.Ring.Int.Defs
import Roshambo.Proofs.Round.Course
import Roshambo.Proofs.Round.Length

/-!
# Rounds and their score cards

A round ends with the request that takes the stage from active to finished, and what the game then
sums up is the score card of that round. If rounds are only started when none is active, then every
round that was started has its score card, except for one that is still active
(`starts_add_inPlay`).
-/
namespace Roshambo

/-- The move that the request makes. -/
def Request.move? : Request → Option Move
  | make move => some move
  | _ => none

namespace Game

/-! ## Requests one by one -/

/-- Every move among the requests has the property, seen from the game in which it is made. -/
def Along (P : Game → Move → Prop) (g : Game) : List Request → Prop
  | [] => True
  | request :: requests => (∀ move ∈ request.move?, P g move) ∧ (g.serve request).Along P requests

/-- The score card of a round that the request ends. -/
def scorecard? (g : Game) (request : Request) : Option Scorecard :=
  if g.stage = .active ∧ (g.serve request).stage = .finished then some (g.serve request).summary
  else none

/-- The score cards of all rounds that the requests end, in their order. -/
def scorecards (g : Game) : List Request → List Scorecard
  | [] => []
  | request :: requests => (g.scorecard? request).toList ++ (g.serve request).scorecards requests

/-- The sum of the scores of all rounds that the requests end. -/
def scored (g : Game) (requests : List Request) : Int :=
  ((g.scorecards requests).map (·.score.toInt)).sum

/-- How many rounds the requests start. -/
def starts (requests : List Request) : Nat := requests.count (.make .start)

/-- The rounds that are active, at most one. -/
def inPlay (g : Game) : Nat := if g.stage = .active then 1 else 0

/-- A round is started when none is active, and nothing else is done then. -/
def InTurn (g : Game) (move : Move) : Prop := move = .start ↔ g.stage ≠ .active

variable {config : RoundSetup} {P Q : Game → Move → Prop} {g g' : Game}

theorem Along.mono (weaker : ∀ g move, P g move → Q g move) {requests : List Request}
    (h : g.Along P requests) : g.Along Q requests := by
  induction requests generalizing g with
  | nil => trivial
  | cons request requests ih => exact ⟨fun move mem => weaker g move (h.1 move mem), ih h.2⟩

theorem along_append (first second : List Request) :
    g.Along P (first ++ second) ↔ g.Along P first ∧ (g.served first).Along P second := by
  induction first generalizing g with
  | nil => simp [Along]
  | cons request first ih => rw [List.cons_append, Along, ih, Along, and_assoc, served_cons]

theorem along_of_silent {requests : List Request} (silent : requests.filterMap Request.move? = []) :
    g.Along P requests := by
  induction requests generalizing g with
  | nil => trivial
  | cons request requests ih =>
    rw [List.filterMap_cons] at silent
    split at silent
    · rename_i none
      exact ⟨fun move mem => absurd (none.symm.trans mem) (by simp), ih silent⟩
    · cases silent

theorem scorecards_append (g : Game) (first second : List Request) :
    g.scorecards (first ++ second) = g.scorecards first ++ (g.served first).scorecards second := by
  induction first generalizing g with
  | nil => rfl
  | cons request first ih =>
    rw [List.cons_append, scorecards, ih, ← List.append_assoc]
    rfl

theorem scored_append (g : Game) (first second : List Request) :
    g.scored (first ++ second) = g.scored first + (g.served first).scored second := by
  simp [scored, scorecards_append]

theorem starts_append (first second : List Request) :
    starts (first ++ second) = starts first + starts second :=
  List.count_append

/-- Taking the news leaves everything but the news. -/
theorem served_of_silent {requests : List Request}
    (silent : requests.filterMap Request.move? = []) :
    ∃ lines events, g.served requests =
      { g with table := { g.table with shown := lines }, events := events } := by
  induction requests generalizing g with
  | nil => exact ⟨g.table.shown, g.events, rfl⟩
  | cons request requests ih =>
    cases request with
    | make move => cases silent
    | takeEvents =>
      obtain ⟨lines, events, left⟩ := ih (g := g.takeEvents.2) silent
      exact ⟨lines, events, left⟩
    | takeLines =>
      obtain ⟨lines, events, left⟩ := ih (g := g.takeLines.2) silent
      exact ⟨lines, events, left⟩

theorem starts_of_silent {requests : List Request}
    (silent : requests.filterMap Request.move? = []) : starts requests = 0 := by
  refine List.count_eq_zero.2 fun start => ?_
  have none := List.filterMap_eq_nil_iff.1 silent (.make .start) start
  cases none

/-! ## Which requests end a round -/

theorem scorecard?_of_stage_eq {request : Request} (same : (g.serve request).stage = g.stage) :
    g.scorecard? request = none := by
  refine if_neg fun ends => ?_
  rw [same, ends.1] at ends
  cases ends.2

theorem scorecards_of_silent {requests : List Request}
    (silent : requests.filterMap Request.move? = []) : g.scorecards requests = [] := by
  induction requests generalizing g with
  | nil => rfl
  | cons request requests ih =>
    cases request with
    | make move => cases silent
    | takeEvents =>
      rw [scorecards, scorecard?_of_stage_eq rfl, ih silent]
      rfl
    | takeLines =>
      rw [scorecards, scorecard?_of_stage_eq rfl, ih silent]
      rfl

/-- A turn ends the round just when its record says so, and with the same score card. -/
theorem Sound.scorecard?_play {choice : Choice} {record : TurnRecord} (h : g.Sound config)
    (played : g.play choice = (.ok record, g')) :
    g.scorecard? (.make (.play choice)) = record.finished := by
  obtain ⟨active, -, taken⟩ := h.taken_of_play played
  obtain ⟨paired, course⟩ := course_of_play played
  obtain ⟨settlement, settled, -, closing⟩ := course.closing
  have left : g.serve (.make (.play choice)) = g' := congrArg Prod.snd played
  rw [scorecard?, left]
  rcases closing with ⟨ends, rfl, finished, -⟩ | ⟨-, rfl, finished, -⟩
  · have stage : g'.stage = .active := by simp [taken.stage, ends]
    rw [finished, if_neg (by simp [stage])]
  · rw [finished, if_pos ⟨active, stage_finish settled⟩]
    rfl

/-- Only turns end rounds. -/
theorem Sound.scorecard?_of_not_play {move : Move} (h : g.Sound config)
    (other : ∀ choice, move ≠ .play choice) : g.scorecard? (.make move) = none := by
  have step := h.step move
  rw [scorecard?, if_neg]
  rintro ⟨active, finished⟩
  simp only [serve] at finished
  generalize left : g.after move = g' at step finished
  cases step with
  | refused => simp [active] at finished
  | rules _ same => simp [same.stage, active] at finished
  | start started => simp [started.stage] at finished
  | reroll _ _ _ rerolled => simp [rerolled.stage, active] at finished
  | play => exact other _ rfl

/-- A refused turn ends no round. -/
theorem Sound.scorecard?_of_refused {choice : Choice} {refusal : Refusal} (h : g.Sound config)
    (refused : (g.play choice).1 = .error refusal) :
    g.scorecard? (.make (.play choice)) = none :=
  scorecard?_of_stage_eq (congrArg stage ((h.playAnswers choice).refused refusal refused))

/-! ## Rounds and score cards -/

theorem Sound.stage_serve_ne_idle (h : g.Sound config) (request : Request)
    (begun : g.stage ≠ .idle) : (g.serve request).stage ≠ .idle := by
  cases request with
  | make move => exact (h.step move).stage_ne_idle begun
  | takeEvents => exact begun
  | takeLines => exact begun

theorem Reached.stage_served_ne_idle (h : Reached config g) (begun : g.stage ≠ .idle)
    (requests : List Request) : (g.served requests).stage ≠ .idle := by
  induction requests generalizing g with
  | nil => exact begun
  | cons request requests ih =>
    exact ih (h.serve request) (h.sound.stage_serve_ne_idle request begun)

/-- The one request that starts a round makes it active; any other leaves it active or ends it. -/
theorem Sound.starts_serve {request : Request} (h : g.Sound config)
    (inTurn : ∀ move ∈ request.move?, g.InTurn move) :
    starts [request] + g.inPlay =
      (g.scorecard? request).toList.length + (g.serve request).inPlay := by
  by_cases starting : request = .make .start
  · subst starting
    have resting : g.stage ≠ .active := (inTurn .start rfl).1 rfl
    have opened : (g.serve (.make .start)).stage = .active := (started_start h.queue).stage
    simp [starts, inPlay, scorecard?, resting, opened]
  · have none : starts [request] = 0 := by simp [starts, starting]
    by_cases active : g.stage = .active
    · have begun := h.stage_serve_ne_idle request (by simp [active])
      cases stage : (g.serve request).stage with
      | idle => exact absurd stage begun
      | active => simp [none, inPlay, scorecard?, active, stage]
      | finished => simp [none, inPlay, scorecard?, active, stage]
    · have same : (g.serve request).stage = g.stage := by
        cases request with
        | make move =>
          have start : move = .start := (inTurn move rfl).2 active
          exact absurd (congrArg Request.make start) starting
        | takeEvents => rfl
        | takeLines => rfl
      simp [none, inPlay, scorecard?_of_stage_eq same, same, active]

/-- Every round that was active or is started has its score card in the end or is active still. -/
theorem Reached.starts_add_inPlay {requests : List Request} (h : Reached config g)
    (inTurn : g.Along InTurn requests) :
    starts requests + g.inPlay = (g.scorecards requests).length + (g.served requests).inPlay := by
  induction requests generalizing g with
  | nil => simp [starts, scorecards]
  | cons request requests ih =>
    have first := h.sound.starts_serve inTurn.1
    have rest := ih (h.serve request) inTurn.2
    have split : starts (request :: requests) = starts [request] + starts requests :=
      starts_append [request] requests
    rw [split, scorecards, List.length_append, served_cons]
    omega

end Game
end Roshambo
