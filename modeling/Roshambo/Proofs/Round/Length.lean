import Roshambo.Proofs.Round.Refusals
import Roshambo.Proofs.Round.Schedule

/-!
# The length of a round

How many turns are left in a round is fixed by its plan and its hands when its last deal is done.
Rules change none of them any more, and every turn that is not refused takes one off, so the round
is over after exactly that many turns.
-/
namespace Roshambo

/-- The move plays a card or changes the rules, and deals no cards. -/
def Move.dealsNothing : Move → Bool
  | .play _ => true
  | move => move.changesRules

namespace Game

/-- The move is a turn that is not refused. -/
def takesTurn (g : Game) : Move → Bool
  | .play choice => (g.play choice).1.isOk
  | _ => false

/-- How many of the moves are turns that are not refused. -/
def turnsTaken (g : Game) : List Move → Nat
  | [] => 0
  | move :: moves => (g.takesTurn move).toNat + (g.after move).turnsTaken moves

/-- Turns are left as long as neither the plan nor a hand is used up. -/
def turnsLeft (g : Game) : Nat :=
  if g.stage = .active then
    min (g.table.plan.toNat - g.table.turn.toNat + 1)
      (min g.table.player.length g.table.opponent.length)
  else 0

variable {config : RoundSetup} {g g' : Game}

theorem turnsLeft_of_active (active : g.stage = .active) :
    g.turnsLeft = min (g.table.plan.toNat - g.table.turn.toNat + 1)
      (min g.table.player.length g.table.opponent.length) :=
  if_pos active

theorem turnsLeft_pos_iff (sound : g.Sound config) : 0 < g.turnsLeft ↔ g.stage = .active := by
  constructor
  · intro left
    unfold turnsLeft at left
    split at left
    · assumption
    · exact absurd left (Nat.lt_irrefl 0)
  · intro active
    have player := List.length_pos_iff.2 (sound.stocked active .player)
    have opponent := List.length_pos_iff.2 (sound.stocked active .opponent)
    simp only [Table.hand] at player opponent
    rw [turnsLeft_of_active active]
    omega

theorem SameRound.turnsLeft_eq (same : g.SameRound g') : g'.turnsLeft = g.turnsLeft := by
  obtain ⟨lines, table⟩ := same.table
  have player : g'.table.player = g.table.player := by rw [table]
  have opponent : g'.table.opponent = g.table.opponent := by rw [table]
  rw [turnsLeft, turnsLeft, same.stage, same.plan_eq, same.turn_eq, player, opponent]

theorem TurnTaken.turnsLeft_add_one {choice card : Choice} (h : g.OnSchedule config)
    (countable : config.Countable) (active : g.stage = .active) (held : choice ∈ g.table.player)
    (taken : g.TurnTaken choice card g') : g'.turnsLeft + 1 = g.turnsLeft := by
  have turn : g'.table.turn.toNat = g.table.turn.toNat + 1 := by
    rw [taken.turn, h.toNat_next countable active]
  have plan := taken.plan_eq
  have ahead := h.ahead active
  have player := taken.length_hand held .player
  have opponent := taken.length_hand held .opponent
  simp only [Table.hand] at player opponent
  have ended := isOver_iff (g := g')
  rw [plan, turn] at ended
  rw [turnsLeft_of_active active]
  cases ends : g'.isOver with
  | true =>
    have stage : g'.stage ≠ .active := by
      rw [taken.stage, if_pos ends]
      decide
    rw [turnsLeft, if_neg stage]
    have reason := ended.1 ends
    omega
  | false =>
    have stage : g'.stage = .active := by simp [taken.stage, ends]
    rw [turnsLeft_of_active stage, plan, turn]
    have none := mt ended.2 (Bool.eq_false_iff.1 ends)
    omega

theorem turnsLeft_after {move : Move} (h : g.OnSchedule config) (countable : config.Countable)
    (deals : move.dealsNothing = true) :
    (g.after move).turnsLeft + (g.takesTurn move).toNat = g.turnsLeft := by
  by_cases changes : move.changesRules = true
  · have turnless : g.takesTurn move = false := by
      cases move <;> first | rfl | cases changes
    rw [turnless, (sameRound_after changes h.queue h.gate).turnsLeft_eq]
    rfl
  · cases move with
    | play choice =>
      show (g.play choice).2.turnsLeft + (g.play choice).1.isOk.toNat = g.turnsLeft
      rcases play_cases choice h.queue with ⟨_, eq⟩ | ⟨_, _, eq⟩ | ⟨active, _, empty, _⟩ |
        ⟨active, held, _, g', eq, taken⟩
      · rw [eq]
        rfl
      · rw [eq]
        rfl
      · exact absurd empty (h.stocked active .opponent)
      · rw [eq]
        exact taken.turnsLeft_add_one h countable active (Table.mem_of_counts_ne_zero held)
    | _ => exact absurd deals changes

theorem Step.stage_ne_idle {move : Move} (step : g.Step move g') (begun : g.stage ≠ .idle) :
    g'.stage ≠ .idle := by
  cases step with
  | refused => exact begun
  | rules _ same => exact same.stage ▸ begun
  | start started => simp [started.stage]
  | reroll _ _ _ rerolled => exact rerolled.stage ▸ begun
  | play _ _ taken =>
    rw [taken.stage]
    split <;> decide

/-- Every turn that is taken was one of those left. -/
theorem turnsLeft_run {moves : List Move} (h : g.OnSchedule config) (countable : config.Countable)
    (begun : g.stage ≠ .idle) (deals : ∀ move ∈ moves, move.dealsNothing = true) :
    (g.run moves).turnsLeft + g.turnsTaken moves = g.turnsLeft ∧
      (g.run moves).OnSchedule config ∧ (g.run moves).stage ≠ .idle := by
  induction moves generalizing g with
  | nil => exact ⟨rfl, h, begun⟩
  | cons move moves ih =>
    have first := turnsLeft_after h countable (deals move List.mem_cons_self)
    have step := h.toSound.step move
    obtain ⟨rest, reached, stage⟩ := ih (h.of_step step) (step.stage_ne_idle begun)
      (fun other mem => deals other (List.mem_cons_of_mem move mem))
    refine ⟨?_, reached, stage⟩
    rw [run_cons, turnsTaken]
    omega

/-- While a round is active some card can be played. -/
theorem exists_takesTurn (sound : g.Sound config) (active : g.stage = .active) :
    ∃ choice, g.takesTurn (.play choice) = true := by
  obtain ⟨choice, held⟩ := List.exists_mem_of_ne_nil _ (sound.stocked active .player)
  obtain ⟨record, answer⟩ := (sound.playAnswers choice).ok.2 ⟨active, held⟩
  refine ⟨choice, ?_⟩
  simp only [takesTurn, answer]
  rfl

/-- The round is active until this many turns are taken, and finished once they are. -/
structure Lasts (g : Game) (turns : Nat) (moves : List Move) : Prop where
  taken : g.turnsTaken moves ≤ turns
  active : (g.run moves).stage = .active ↔ g.turnsTaken moves < turns
  finished : (g.run moves).stage = .finished ↔ g.turnsTaken moves = turns
  playable : g.turnsTaken moves < turns → ∃ choice, (g.run moves).takesTurn (.play choice) = true

theorem OnSchedule.lasts {moves : List Move} (h : g.OnSchedule config)
    (countable : config.Countable) (active : g.stage = .active)
    (deals : ∀ move ∈ moves, move.dealsNothing = true) : g.Lasts g.turnsLeft moves := by
  have begun : g.stage ≠ .idle := by
    rw [active]
    decide
  obtain ⟨total, reached, stage⟩ := turnsLeft_run h countable begun deals
  have left := turnsLeft_pos_iff reached.toSound
  have still : (g.run moves).stage = .active ↔ g.turnsTaken moves < g.turnsLeft := by
    rw [← left]
    omega
  have ended : (g.run moves).stage = .finished ↔ ¬ (g.run moves).stage = .active := by
    cases eq : (g.run moves).stage with
    | idle => exact absurd eq stage
    | active => simp
    | finished => simp
  refine ⟨by omega, still, ?_, fun more => exists_takesTurn reached.toSound (still.2 more)⟩
  rw [ended, still]
  omega

/-- Whatever the rules are, an active round lasts as many turns as its plan and its hands leave. -/
theorem round_lasts (config : RoundSetup) (countable : config.Countable) (seed : UInt64)
    (moves : List Move) (active : ((ofSeed config seed).run moves).stage = .active)
    (more : List Move) (deals : ∀ move ∈ more, move.dealsNothing = true) :
    let g := (ofSeed config seed).run moves
    g.Lasts (min (g.table.plan.toNat - g.table.turn.toNat + 1)
      (min g.table.player.length g.table.opponent.length)) more := by
  intro g
  rw [← turnsLeft_of_active active]
  exact (onSchedule_run seed moves).lasts countable active deals

theorem round_lasts_standard :
    let g := (ofSeed .standard 7).run [.start]
    let more : List Move := [.play .rock, .clear, .play .paper]
    RoundSetup.standard.Countable ∧ g.stage = .active ∧
      (∀ move ∈ more, move.dealsNothing = true) ∧
      g.Lasts (min (g.table.plan.toNat - g.table.turn.toNat + 1)
        (min g.table.player.length g.table.opponent.length)) more := by
  intro g more
  have countable := RoundSetup.countable_standard
  have active : g.stage = .active := (started_start (g := ofSeed .standard 7) rfl).stage
  have deals : ∀ move ∈ more, move.dealsNothing = true := by decide
  exact ⟨countable, active, deals, round_lasts .standard countable 7 [.start] active more deals⟩

end Game
end Roshambo
