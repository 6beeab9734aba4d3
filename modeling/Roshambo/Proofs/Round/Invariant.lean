import Roshambo.Proofs.Round.Turns
import Roshambo.Round.Request

/-!
# The invariant of a game

Whatever is done to a game, and in whatever order, its hands, histories and switches stay in
agreement with its stage (`sound_run`). That the turn counter keeps up with the turns played is
`Reached.onSchedule`.
-/
namespace Roshambo

theorem RoundSetup.one_le_size_normalized (setup : RoundSetup) (side : Side) :
    1 ≤ (setup.normalized.hand side).size.toNat := by
  have sized : ∀ size : UInt32, 1 ≤ (if size = 0 then 1 else size).toNat := by
    intro size
    split
    · decide
    · rename_i nonzero
      exact Nat.one_le_iff_ne_zero.2 fun zero => nonzero (UInt32.toNat_inj.1 zero)
  cases side <;> exact sized _

namespace Game

/-- What a move can make of a game. -/
inductive Step (g : Game) : Move → Game → Prop where
  | refused (move : Move) : Step g move g
  | rules {move : Move} {g' : Game} (changes : move.changesRules = true) (h : g.SameRound g') :
      Step g move g'
  | start {g' : Game} (h : g.Started g') : Step g .start g'
  | reroll {g' : Game} (active : g.stage = .active) (fresh : g.played = [])
      (left : g.table.rerollsLeft ≠ 0) (h : g.Rerolled g') : Step g .reroll g'
  | play {choice card : Choice} {g' : Game} (active : g.stage = .active)
      (held : choice ∈ g.table.player) (h : g.TurnTaken choice card g') :
      Step g (.play choice) g'

/-- The part of the invariant that holds for every setup. -/
structure Sound (config : RoundSetup) (g : Game) : Prop where
  setup : g.table.setup = config.normalized
  gate : g.referee.gate = .closed
  queue : g.referee.events = []
  histories : g.played.length = g.outcomes.length
  rerolls : g.table.rerolls ≤ config.maxRerolls
  /-- The cards still held and those played came from a hand of this size. -/
  hands : ∀ side, (g.table.hand side).length + g.played.length ≤
    max handLimit (config.normalized.hand side).size.toNat
  idle : g.stage = .idle → g.played = []
  stocked : g.stage = .active → ∀ side, g.table.hand side ≠ []
  fresh : g.stage = .active → g.adjustment = 0
  finished : g.stage = .finished → g.played ≠ []

variable {config : RoundSetup} {g g' : Game}

theorem Sound.step (h : g.Sound config) (move : Move) : g.Step move (g.after move) := by
  cases move with
  | enable rule => exact .rules rfl (sameRound_enable rule h.queue)
  | toggle rule => exact .rules rfl (sameRound_toggle rule h.queue h.gate)
  | clear => exact .rules rfl (sameRound_clear h.queue)
  | start => exact .start (started_start h.queue)
  | reroll =>
    show g.Step .reroll g.reroll.2
    rcases reroll_cases h.queue with ⟨_, eq⟩ | ⟨_, _, eq⟩ | ⟨_, _, _, eq⟩ |
      ⟨active, fresh, left, _, g', eq, rerolled⟩ <;> rw [eq]
    · exact .refused _
    · exact .refused _
    · exact .refused _
    · exact .reroll active fresh left rerolled
  | play choice =>
    show g.Step (.play choice) (g.play choice).2
    rcases play_cases choice h.queue with ⟨_, eq⟩ | ⟨_, _, eq⟩ | ⟨active, _, empty, eq⟩ |
      ⟨active, held, _, g', eq, taken⟩ <;> rw [eq]
    · exact .refused _
    · exact .refused _
    · exact absurd empty (h.stocked active .opponent)
    · exact .play active (Table.mem_of_counts_ne_zero held) taken

theorem Sound.of_sameRound (h : g.Sound config) (same : g.SameRound g') : g'.Sound config := by
  obtain ⟨lines, table⟩ := same.table
  have hand : ∀ side, g'.table.hand side = g.table.hand side := by
    intro side
    cases side <;> simp [table, Table.hand]
  refine ⟨?_, same.gate.trans h.gate, same.queue, ?_, ?_, ?_, ?_, ?_, ?_, ?_⟩
  · rw [table]
    exact h.setup
  · rw [same.played, same.outcomes]
    exact h.histories
  · rw [table]
    exact h.rerolls
  · intro side
    rw [hand, same.played]
    exact h.hands side
  · rw [same.stage, same.played]
    exact h.idle
  · intro active side
    rw [hand]
    exact h.stocked (same.stage ▸ active) side
  · rw [same.stage, same.adjustment]
    exact h.fresh
  · rw [same.stage, same.played]
    exact h.finished

theorem Sound.of_started (h : g.Sound config) (started : g.Started g') : g'.Sound config := by
  have dealt := started.dealt
  have bounded := started.bounded
  rw [h.setup] at dealt bounded
  refine ⟨started.setup.trans h.setup, started.gate, started.queue, ?_, ?_, ?_, ?_, ?_, ?_, ?_⟩
  · rw [started.played, started.outcomes]
    rfl
  · rw [started.rerolls]
    exact UInt32.zero_le
  · intro side
    rw [started.played]
    exact bounded side
  · exact fun _ => started.played
  · intro _ side
    exact List.ne_nil_of_length_pos
      (Nat.lt_of_lt_of_le (config.one_le_size_normalized side) (dealt side))
  · exact fun _ => started.adjustment
  · rw [started.stage]
    exact fun finished => by cases finished

/-- A reroll that is left makes one more, within the limit. -/
theorem rerolls_of_left {t : Table} (left : t.rerollsLeft ≠ 0) :
    t.rerolls + 1 ≤ t.setup.maxRerolls := by
  rw [UInt32.le_iff_toNat_le, Table.toNat_rerolls_of_left left]
  exact UInt32.lt_iff_toNat_lt.1 (t.rerollsLeft_ne_zero_iff.1 left)

theorem Sound.of_rerolled (h : g.Sound config) (active : g.stage = .active)
    (fresh : g.played = []) (left : g.table.rerollsLeft ≠ 0) (rerolled : g.Rerolled g') :
    g'.Sound config := by
  have played : g'.played = [] := rerolled.played.trans fresh
  have stage : g'.stage = .active := rerolled.stage.trans active
  refine ⟨rerolled.setup.trans h.setup, rerolled.gate, rerolled.queue, ?_, ?_, ?_, fun _ => played,
    ?_, ?_, ?_⟩
  · rw [rerolled.played, rerolled.outcomes]
    exact h.histories
  · rw [rerolled.rerolls]
    have within := rerolls_of_left left
    rw [h.setup] at within
    exact within
  · intro side
    rw [played]
    cases side with
    | player =>
      have bounded := rerolled.boundedPlayer
      rw [h.setup] at bounded
      exact bounded
    | opponent =>
      have before := h.hands .opponent
      have bounded := rerolled.boundedOpponent
      rw [fresh] at before
      simp only [Table.hand, List.length_nil, Nat.add_zero] at before ⊢
      omega
  · intro _ side
    refine List.ne_nil_of_length_pos ?_
    cases side with
    | player =>
      have dealt := rerolled.dealt
      rw [h.setup] at dealt
      exact Nat.lt_of_lt_of_le (config.one_le_size_normalized .player) dealt
    | opponent =>
      exact Nat.lt_of_lt_of_le (List.length_pos_iff.2 (h.stocked active .opponent)) rerolled.keeps
  · rw [rerolled.adjustment]
    exact fun _ => h.fresh active
  · rw [stage]
    exact fun finished => by cases finished

/-- A turn takes one card out of each hand. -/
theorem Settled.length_hand {choice card : Choice} (settled : g.Settled choice card g')
    (held : choice ∈ g.table.player) (side : Side) :
    (g'.table.hand side).length + 1 = (g.table.hand side).length := by
  cases side with
  | player =>
    have positive : 0 < g.table.player.length := List.length_pos_of_mem held
    simp only [Table.hand, settled.player, List.length_erase_of_mem held]
    omega
  | opponent =>
    obtain ⟨place, found, left⟩ := settled.drawn
    have inside : place < g.table.opponent.length := (List.getElem?_eq_some_iff.1 found).1
    simp only [Table.hand, left, List.length_eraseIdx_of_lt inside]
    omega

theorem stocked_of_not_isOver (h : g.isOver = false) (side : Side) : g.table.hand side ≠ [] := by
  simp only [isOver, Bool.or_eq_false_iff, List.isEmpty_eq_false_iff] at h
  cases side with
  | player => exact h.1.2
  | opponent => exact h.2

theorem TurnTaken.isOver_of_active {choice card : Choice} (taken : g.TurnTaken choice card g')
    (active : g'.stage = .active) : g'.isOver = false := by
  refine Bool.eq_false_iff.2 fun ended => ?_
  have stage := taken.stage
  rw [if_pos ended, active] at stage
  cases stage

theorem Sound.of_turnTaken {choice card : Choice} (h : g.Sound config) (active : g.stage = .active)
    (held : choice ∈ g.table.player) (taken : g.TurnTaken choice card g') : g'.Sound config := by
  refine ⟨taken.setup.trans h.setup, taken.gate.trans h.gate, taken.queue, ?_, ?_, ?_, ?_, ?_, ?_,
    ?_⟩
  · simp [taken.played, taken.outcomes, h.histories]
  · rw [taken.rerolls]
    exact h.rerolls
  · intro side
    have fewer := taken.length_hand held side
    have before := h.hands side
    rw [taken.played, List.length_append, List.length_singleton]
    omega
  · intro idle
    have stage := taken.stage
    rw [idle] at stage
    split at stage <;> cases stage
  · exact fun still => stocked_of_not_isOver (taken.isOver_of_active still)
  · intro still
    rw [taken.adjustment still]
    exact h.fresh active
  · simp [taken.played]

theorem Sound.taken_of_play {choice : Choice} {record : TurnRecord} (h : g.Sound config)
    (played : g.play choice = (.ok record, g')) :
    g.stage = .active ∧ choice ∈ g.table.player ∧ g.TurnTaken choice record.opponent g' := by
  rcases play_cases choice h.queue with ⟨_, eq⟩ | ⟨_, _, eq⟩ | ⟨_, _, _, eq⟩ |
    ⟨active, held, _, _, eq, taken⟩ <;> rw [eq] at played <;> cases played
  exact ⟨active, Table.mem_of_counts_ne_zero held, taken⟩

theorem Sound.of_step {move : Move} (h : g.Sound config) (step : g.Step move g') :
    g'.Sound config := by
  cases step with
  | refused => exact h
  | rules _ same => exact h.of_sameRound same
  | start started => exact h.of_started started
  | reroll active fresh left rerolled => exact h.of_rerolled active fresh left rerolled
  | play active held taken => exact h.of_turnTaken active held taken

theorem sound_ofSeed (config : RoundSetup) (seed : UInt64) :
    (ofSeed config seed).Sound config where
  setup := rfl
  gate := rfl
  queue := rfl
  histories := rfl
  rerolls := UInt32.zero_le
  hands side := by cases side <;> exact Nat.zero_le _
  idle _ := rfl
  stocked active := by cases active
  fresh active := by cases active
  finished finished := by cases finished

theorem sound_run (config : RoundSetup) (seed : UInt64) (moves : List Move) :
    ((ofSeed config seed).run moves).Sound config :=
  run_induction (sound_ofSeed config seed) (fun _ move h => h.of_step (h.step move)) moves

/-- What holds before the first round and is kept by every step of a sound game holds after every
run. -/
theorem step_induction {P : Game → Prop} {seed : UInt64} (base : P (ofSeed config seed))
    (step : ∀ g g' move, g.Sound config → P g → g.Step move g' → P g') (moves : List Move) :
    P ((ofSeed config seed).run moves) := by
  have both := run_induction (P := fun g => g.Sound config ∧ P g)
    ⟨sound_ofSeed config seed, base⟩
    (fun g move h => ⟨h.1.of_step (h.1.step move), step g _ move h.1 h.2 (h.1.step move)⟩) moves
  exact both.2

/-! ## Reachable games -/

/-- Whatever calls can make of a new game. The log and the lines may be taken at any time. -/
inductive Reached (config : RoundSetup) : Game → Prop where
  | ofSeed (seed : UInt64) : Reached config (ofSeed config seed)
  | after {g : Game} (h : Reached config g) (move : Move) : Reached config (g.after move)
  | takeEvents {g : Game} (h : Reached config g) : Reached config g.takeEvents.2
  | takeLines {g : Game} (h : Reached config g) : Reached config g.takeLines.2

theorem Sound.takeEvents (h : g.Sound config) : g.takeEvents.2.Sound config :=
  ⟨h.setup, h.gate, h.queue, h.histories, h.rerolls, h.hands, h.idle, h.stocked, h.fresh,
    h.finished⟩

theorem Sound.takeLines (h : g.Sound config) : g.takeLines.2.Sound config where
  setup := h.setup
  gate := h.gate
  queue := h.queue
  histories := h.histories
  rerolls := h.rerolls
  hands side := by
    cases side with
    | player => exact h.hands .player
    | opponent => exact h.hands .opponent
  idle := h.idle
  stocked active side := by
    cases side with
    | player => exact h.stocked active .player
    | opponent => exact h.stocked active .opponent
  fresh := h.fresh
  finished := h.finished

theorem Reached.sound (h : Reached config g) : g.Sound config := by
  induction h with
  | ofSeed seed => exact sound_ofSeed config seed
  | after _ move ih => exact ih.of_step (ih.step move)
  | takeEvents _ ih => exact ih.takeEvents
  | takeLines _ ih => exact ih.takeLines

theorem Reached.run (h : Reached config g) (moves : List Move) : Reached config (g.run moves) :=
  run_induction h (fun _ move reached => reached.after move) moves

theorem Reached.serve (h : Reached config g) (request : Request) :
    Reached config (g.serve request) := by
  cases request with
  | make move => exact h.after move
  | takeEvents => exact h.takeEvents
  | takeLines => exact h.takeLines

theorem Reached.served (h : Reached config g) (requests : List Request) :
    Reached config (g.served requests) := by
  induction requests generalizing g with
  | nil => exact h
  | cons request requests ih => exact ih (h.serve request)

end Game
end Roshambo
