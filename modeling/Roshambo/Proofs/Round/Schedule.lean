import Roshambo.Proofs.Round.Invariant

/-!
# The schedule of a round

While a round is active its turn counter is one ahead of the turns played and has not passed the
plan. The counter is a word, but a turn takes a card from each hand, and the round is over before
the counter can wrap. Only the turn that ends the round may take the counter past the largest word,
and not even that one if the hands have fewer cards.
-/
namespace Roshambo

theorem HandSetup.size_normalized (setup : HandSetup) :
    setup.normalized.size = if setup.size = 0 then 1 else setup.size := rfl

/-- Both hands have fewer cards than the largest word. -/
def RoundSetup.Countable (config : RoundSetup) : Prop :=
  ∀ side, (config.hand side).size.toNat < UInt32.size - 1

theorem RoundSetup.countable_standard : RoundSetup.standard.Countable := by
  intro side
  cases side <;> decide

theorem RoundSetup.Countable.handLimit_lt {config : RoundSetup} (h : config.Countable)
    (side : Side) : max handLimit (config.normalized.hand side).size.toNat < UInt32.size - 1 := by
  have sized : ∀ setup : HandSetup, setup.size.toNat < UInt32.size - 1 →
      max handLimit setup.normalized.size.toNat < UInt32.size - 1 := by
    intro setup small
    rw [HandSetup.size_normalized]
    split
    · decide
    · exact Nat.max_lt.2 ⟨by decide, small⟩
  cases side
  · exact sized _ (h .player)
  · exact sized _ (h .opponent)

namespace Table

theorem one_le_plan (t : Table) : 1 ≤ t.plan.toNat :=
  Saturating.one_le_positiveWord _

theorem plan_congr {t t' : Table} (setup : t'.setup = t.setup)
    (offset : t'.planOffset = t.planOffset) : t'.plan = t.plan := by
  rw [plan, plan, setup, offset]

end Table

namespace Game

variable {config : RoundSetup} {g g' : Game}

/-- The invariant with the part of it that counts turns. -/
structure OnSchedule (config : RoundSetup) (g : Game) : Prop extends g.Sound config where
  turn : g.stage = .active → g.table.turn.toNat = g.played.length + 1
  ahead : g.stage = .active → g.table.turn.toNat ≤ g.table.plan.toNat
  within : g.stage = .finished → g.played.length ≤ g.table.plan.toNat

theorem SameRound.plan_eq (same : g.SameRound g') : g'.table.plan = g.table.plan := by
  obtain ⟨lines, table⟩ := same.table
  rw [table]
  rfl

theorem SameRound.turn_eq (same : g.SameRound g') : g'.table.turn = g.table.turn := by
  obtain ⟨lines, table⟩ := same.table
  rw [table]

theorem OnSchedule.of_sameRound (h : g.OnSchedule config) (same : g.SameRound g') :
    g'.OnSchedule config := by
  refine ⟨h.toSound.of_sameRound same, ?_, ?_, ?_⟩
  · rw [same.stage, same.turn_eq, same.played]
    exact h.turn
  · rw [same.stage, same.turn_eq, same.plan_eq]
    exact h.ahead
  · rw [same.stage, same.played, same.plan_eq]
    exact h.within

/-- The round is over when the turn counter passes the plan or a hand is empty. -/
theorem isOver_iff : g.isOver = true ↔
    g.table.plan.toNat < g.table.turn.toNat ∨ g.table.player.length = 0 ∨
      g.table.opponent.length = 0 := by
  simp [isOver, UInt32.lt_iff_toNat_lt, or_assoc]

/-- Before its first turn a round is on schedule with any plan. -/
theorem onSchedule_of_first (sound : g.Sound config) (turn : g.table.turn = 1)
    (played : g.played = []) : g.OnSchedule config where
  toSound := sound
  turn _ := by
    rw [turn, played]
    rfl
  ahead _ := by
    rw [turn]
    exact g.table.one_le_plan
  within _ := by
    rw [played]
    exact Nat.zero_le _

/-- The turn counter does not wrap while cards are left to play. -/
theorem OnSchedule.toNat_next (h : g.OnSchedule config) (countable : config.Countable)
    (active : g.stage = .active) : (g.table.turn + 1).toNat = g.table.turn.toNat + 1 := by
  have held := List.length_pos_iff.2 (h.stocked active .player)
  have hands := h.hands .player
  have limit := countable.handLimit_lt .player
  have turn := h.turn active
  rw [UInt32.toNat_add, UInt32.toNat_one]
  simp only [UInt32.size] at limit
  omega

/-- Nor does it wrap in a turn that leaves a card to play. -/
theorem OnSchedule.toNat_next_of_stocked {choice card : Choice} (h : g.OnSchedule config)
    (active : g.stage = .active) (held : choice ∈ g.table.player)
    (taken : g.TurnTaken choice card g') (stocked : g'.table.hand .player ≠ []) :
    (g.table.turn + 1).toNat = g.table.turn.toNat + 1 := by
  have left : 1 ≤ (g'.table.hand .player).length := List.length_pos_iff.2 stocked
  have before := taken.length_hand held .player
  have hands := h.hands .player
  have limit : max handLimit (config.normalized.hand .player).size.toNat < UInt32.size :=
    Nat.max_lt.2 ⟨by decide, UInt32.toNat_lt _⟩
  have turn := h.turn active
  rw [UInt32.toNat_add, UInt32.toNat_one]
  simp only [UInt32.size] at limit
  omega

theorem TurnTaken.plan_eq {choice card : Choice} (taken : g.TurnTaken choice card g') :
    g'.table.plan = g.table.plan :=
  Table.plan_congr taken.setup taken.planOffset

theorem OnSchedule.of_turnTaken {choice card : Choice} (h : g.OnSchedule config)
    (active : g.stage = .active) (held : choice ∈ g.table.player)
    (taken : g.TurnTaken choice card g') : g'.OnSchedule config := by
  have length : g'.played.length = g.played.length + 1 := by simp [taken.played]
  refine ⟨h.toSound.of_turnTaken active held taken, ?_, ?_, ?_⟩
  · intro still
    have stocked := stocked_of_not_isOver (taken.isOver_of_active still) .player
    rw [taken.turn, h.toNat_next_of_stocked active held taken stocked, length, h.turn active]
  · intro still
    have ended := taken.isOver_of_active still
    simp only [isOver, Bool.or_eq_false_iff, decide_eq_false_iff_not] at ended
    exact UInt32.le_iff_toNat_le.1 (UInt32.not_lt.1 ended.1.1)
  · intro _
    rw [taken.plan_eq, length, ← h.turn active]
    exact h.ahead active

theorem OnSchedule.of_step {move : Move} (h : g.OnSchedule config) (step : g.Step move g') :
    g'.OnSchedule config := by
  have sound := h.toSound.of_step step
  cases step with
  | refused => exact h
  | rules _ same => exact h.of_sameRound same
  | start started => exact onSchedule_of_first sound started.turn started.played
  | reroll active fresh _ rerolled =>
    have turn := h.turn active
    rw [fresh] at turn
    exact onSchedule_of_first sound (rerolled.turn.trans (UInt32.toNat_inj.1 turn))
      (rerolled.played.trans fresh)
  | play active held taken => exact h.of_turnTaken active held taken

theorem Reached.onSchedule (reached : Reached config g) : g.OnSchedule config := by
  induction reached with
  | ofSeed seed => exact onSchedule_of_first (sound_ofSeed config seed) rfl rfl
  | after _ move ih => exact ih.of_step (ih.toSound.step move)
  | takeEvents _ ih => exact ⟨ih.toSound.takeEvents, ih.turn, ih.ahead, ih.within⟩
  | takeLines _ ih => exact ⟨ih.toSound.takeLines, ih.turn, ih.ahead, ih.within⟩

theorem onSchedule_run (seed : UInt64) (moves : List Move) :
    ((ofSeed config seed).run moves).OnSchedule config :=
  ((Reached.ofSeed seed).run moves).onSchedule

/-! ## The scorecard -/

theorem count_outcomes (outcomes : List Outcome) :
    outcomes.count .win + outcomes.count .draw + outcomes.count .loss = outcomes.length := by
  induction outcomes with
  | nil => rfl
  | cons outcome outcomes ih => cases outcome <;> simp <;> omega

/-- The counters of the scorecard add up when a word can count the turns played. -/
theorem summary_counts (histories : g.played.length = g.outcomes.length)
    (small : g.played.length < UInt32.size) :
    g.summary.turnsPlayed.toNat = g.played.length ∧
      g.summary.wins.toNat + g.summary.draws.toNat + g.summary.losses.toNat =
        g.summary.turnsPlayed.toNat := by
  have total := count_outcomes g.outcomes
  have exactly : ∀ n, n ≤ g.played.length → (UInt32.ofNat n).toNat = n := fun n le =>
    UInt32.toNat_ofNat_of_lt' (Nat.lt_of_le_of_lt le small)
  refine ⟨exactly _ (Nat.le_refl _), ?_⟩
  simp only [summary]
  rw [exactly _ (by omega), exactly _ (by omega), exactly _ (by omega), exactly _ (by omega)]
  omega

/-! ## The whole invariant -/

/-- How the parts of a game agree with its stage and with each other. -/
structure Consistent (config : RoundSetup) (g : Game) : Prop where
  stocked : g.stage = .active → g.table.player ≠ [] ∧ g.table.opponent ≠ []
  turn : g.stage = .active →
    g.table.turn.toNat = g.played.length + 1 ∧ g.table.turn ≤ g.table.plan
  unadjusted : g.stage = .active → g.adjustment = 0
  finished : g.stage = .finished →
    1 ≤ g.played.length ∧ g.played.length ≤ g.table.plan.toNat
  histories : g.played.length = g.outcomes.length
  scorecard : g.summary.turnsPlayed.toNat = g.played.length ∧
    g.summary.wins.toNat + g.summary.draws.toNat + g.summary.losses.toNat =
      g.summary.turnsPlayed.toNat
  rerolls : g.table.rerolls ≤ config.maxRerolls
  plan : 1 ≤ g.table.plan
  hands : ∀ side, (g.table.hand side).length ≤
    max handLimit (config.normalized.hand side).size.toNat
  gate : g.referee.gate = .closed
  queue : g.referee.events = []

/-- Every game that moves can lead to is consistent. -/
theorem consistent_run (config : RoundSetup)
    (countable : config.Countable) (seed : UInt64) (moves : List Move) :
    ((ofSeed config seed).run moves).Consistent config := by
  have reached : ((ofSeed config seed).run moves).OnSchedule config := onSchedule_run seed moves
  obtain ⟨g, eq⟩ : ∃ g, (ofSeed config seed).run moves = g := ⟨_, rfl⟩
  rw [eq] at reached ⊢
  have hands := reached.hands .player
  have limit := countable.handLimit_lt .player
  refine ⟨?_, ?_, reached.fresh, ?_, reached.histories, ?_, reached.rerolls, ?_, ?_, reached.gate,
    reached.queue⟩
  · exact fun active => ⟨reached.stocked active .player, reached.stocked active .opponent⟩
  · exact fun active => ⟨reached.turn active, UInt32.le_iff_toNat_le.2 (reached.ahead active)⟩
  · exact fun finished =>
      ⟨List.length_pos_iff.2 (reached.finished finished), reached.within finished⟩
  · exact summary_counts reached.histories (by omega)
  · exact UInt32.le_iff_toNat_le.2 g.table.one_le_plan
  · intro side
    exact Nat.le_trans (Nat.le_add_right _ _) (reached.hands side)

theorem consistent_run_standard :
    RoundSetup.standard.Countable ∧
      ((ofSeed .standard 7).run [.start, .reroll, .play .rock]).Consistent .standard :=
  ⟨RoundSetup.countable_standard,
    consistent_run .standard RoundSetup.countable_standard 7 [.start, .reroll, .play .rock]⟩

end Game
end Roshambo
