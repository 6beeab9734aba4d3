import Mathlib.Data.List.Induction
import Roshambo.Proofs.Pass.Plan
import Roshambo.Proofs.Round.Refusals

/-!
# Planning a round again

A reroll prepares the round again for the new hand, and what becomes of the plan does not depend on
how it came about. From the deal on the tally accounts for the whole offset of the plan. Neither
rules that come and go nor turns that are played touch the two, so a reroll brings them to just what
the active rules ask for.
-/
namespace Roshambo

namespace Referee

variable (ref : Referee) (ctx : Context) (t : Table)

/-- The player's hand stays as it is in a pass that adds no cards to it. -/
theorem player_evaluate {pass : Pass} (handsOpen : Bool)
    (cards : .addCardsToPlayerHand ∉ pass.effectKinds)
    (random : .addRandomCardsToPlayerHand ∉ pass.effectKinds) :
    (ref.evaluate ⟨Table.host, pass, handsOpen⟩ ctx t).host.player = t.player := by
  refine ref.host_evaluate _ ctx t (R := fun state => state.player = t.player) rfl ?_
    (fun _ _ same => same)
  rintro - effect state applies same
  have kind := List.contains_iff_mem.1 applies
  cases effect with
  | replaceOpponentCards choice count => cases choice <;> exact same
  | addCards side choice count =>
    cases side with
    | player => exact absurd kind cards
    | opponent => exact same
  | addRandomCards side count =>
    cases side with
    | player => exact absurd kind random
    | opponent => exact same
  | _ => exact same

theorem tally_openRound {σ : Type} (host : Host σ) (initial : Bool) (state : σ) :
    (ref.openRound host initial ctx state).referee.tally = ref.tally := by
  cases initial <;> exact tally_evaluate_of_unplanned _ _ ctx state (by simp [Pass.effectKinds])

theorem planOffset_openRound (initial : Bool) :
    (ref.openRound Table.host initial ctx t).host.planOffset = t.planOffset :=
  planOffset_evaluate _ ctx t (.roundStart initial) _

namespace DealPasses

variable {ref : Referee} {again : Bool} {t : Table} {first second : PassResult Table}

theorem backs (h : ref.DealPasses again t first second)
    (backs : (if again then ref.tally else {}).Backs t.planOffset)
    (small : ref.active.reach < 2 ^ 62) : second.referee.tally.Backs second.host.planOffset := by
  obtain ⟨ctx, -, -, -, prepared⟩ := h.prepared
  obtain ⟨gate, ctx', -, opened⟩ := h.opened
  rw [← opened, tally_openRound, planOffset_openRound, ← prepared]
  exact ref.prepareRound_backs ctx again backs small

theorem granted (h : ref.DealPasses true t first second)
    (hand : t.player.length < UInt32.size) (backs : ref.tally.Backs t.planOffset)
    (small : ref.active.reach < 2 ^ 62) :
    second.referee.tally.granted.toInt = ref.active.turnsOn t.player := by
  obtain ⟨ctx, choice, outcome, -, prepared⟩ := h.prepared
  obtain ⟨gate, ctx', -, opened⟩ := h.opened
  rw [← opened, tally_openRound, ← prepared]
  exact ref.toInt_granted_prepareRound_again outcome choice hand backs small

/-- After a reroll rules may change the opponent's hand, and leave the player the one dealt. -/
theorem player (h : ref.DealPasses true t first second) : second.host.player = t.player := by
  obtain ⟨ctx, -, -, -, prepared⟩ := h.prepared
  obtain ⟨gate, ctx', -, opened⟩ := h.opened
  have kept : second.host.player = first.host.player := by
    rw [← opened]
    exact player_evaluate _ ctx' first.host _ (by decide) (by decide)
  rw [kept, ← prepared]
  exact (hand_settlePlan true _ .player).trans
    (player_evaluate _ ctx t _ (by decide) (by decide))

end DealPasses

end Referee

/-- The plan, on the integers. -/
theorem Table.toNat_plan (t : Table) :
    (t.plan.toNat : Int) =
      max 1 (min (t.setup.turns.toNat + t.planOffset.toInt) (UInt32.size - 1)) := by
  have turns : (Int64.ofNat t.setup.turns.toNat).toInt = t.setup.turns.toNat :=
    Int64.toInt_ofNat_of_lt (Nat.lt_trans t.setup.turns.toNat_lt (by decide))
  have low := t.planOffset.minValue_le_toInt
  have high := t.planOffset.toInt_le
  rw [plan, Saturating.toInt_add, turns, Saturating.toNat_positiveWord]
  simp only [Saturating.clamp, Int64.toInt_minValue, Int64.toInt_maxValue, UInt32.size] at low high ⊢
  omega

namespace Game

/-- The tally of the referee accounts for the offset of the plan. -/
def PlanBacked (g : Game) : Prop := g.referee.tally.Backs g.table.planOffset

variable {config : RoundSetup} {g g' : Game}

theorem planBacked_start (small : g.referee.active.reach < 2 ^ 62) : g.start.2.PlanBacked := by
  obtain ⟨first, second, passes, eq⟩ := g.start_eq
  rw [eq]
  exact passes.backs PlanTally.backs_zero small

theorem active_start (g : Game) : g.start.2.referee.active = g.referee.active := by
  obtain ⟨first, second, passes, eq⟩ := g.start_eq
  rw [eq]
  exact passes.active

/-- Every move but a start keeps the account. -/
theorem PlanBacked.after (h : g.PlanBacked) (sound : g.Sound config)
    (small : g.referee.active.reach < 2 ^ 62) {move : Move} (goes : move ≠ .start) :
    (g.after move).PlanBacked := by
  by_cases rerolls : move = .reroll
  · subst rerolls
    show g.reroll.2.PlanBacked
    rcases reroll_refused_or sound.queue with ⟨refusal, eq⟩ | ⟨active, fresh, left⟩
    · rwa [eq]
    · obtain ⟨first, second, passes, eq⟩ := reroll_eq active fresh left
      rw [eq]
      exact passes.backs h small
  · have step := sound.step move
    unfold PlanBacked at h ⊢
    generalize g.after move = g' at step ⊢
    cases step with
    | refused => exact h
    | rules _ same =>
      obtain ⟨lines, table⟩ := same.table
      rw [same.tally, table]
      exact h
    | start started => exact absurd rfl goes
    | reroll _ _ _ rerolled => exact absurd rfl rerolls
    | play _ _ taken =>
      rw [taken.tally, taken.planOffset]
      exact h

/-! ## Within a round -/

/-- Of the games that the moves go through, all since the last start are of this kind. -/
def DuringRound (P : Game → Prop) (g : Game) (moves : List Move) : Prop :=
  ∀ before since, moves = before ++ since → Move.start ∉ since → P (g.run before)

theorem DuringRound.last {P : Game → Prop} {moves : List Move} (h : DuringRound P g moves) :
    P (g.run moves) :=
  h moves [] (List.append_nil _).symm List.not_mem_nil

/-- A start forgets what was before it. -/
theorem duringRound_append_singleton {P : Game → Prop} {moves : List Move} {move : Move} :
    DuringRound P g (moves ++ [move]) ↔
      P (g.run (moves ++ [move])) ∧ (move = .start ∨ DuringRound P g moves) := by
  constructor
  · intro h
    refine ⟨h.last, or_iff_not_imp_left.2 fun goes before since cut within => ?_⟩
    refine h before (since ++ [move]) (by rw [cut, List.append_assoc]) fun mem => ?_
    rcases List.mem_append.1 mem with earlier | now
    · exact within earlier
    · exact goes (List.mem_singleton.1 now).symm
  · rintro ⟨now, earlier⟩ before since cut within
    rcases List.eq_nil_or_concat since with rfl | ⟨since, last, rfl⟩
    · rw [List.append_nil] at cut
      rwa [← cut]
    · rw [List.concat_eq_append] at cut within
      rw [← List.append_assoc] at cut
      obtain ⟨shorter, same⟩ := List.append_inj' cut rfl
      cases same
      refine earlier.elim (fun starts => ?_) fun h => ?_
      · exact absurd (List.mem_append_right since (List.mem_singleton.2 starts.symm)) within
      · exact h before since shorter fun mem => within (List.mem_append_left _ mem)

/-- The account is right after every run, if since the last start the rules never could move the
plan beyond the range of words. -/
theorem planBacked_run (config : RoundSetup) (seed : UInt64) (moves : List Move)
    (small : DuringRound (·.referee.active.reach < 2 ^ 62) (ofSeed config seed) moves) :
    ((ofSeed config seed).run moves).PlanBacked := by
  induction moves using List.reverseRecOn with
  | nil => exact PlanTally.backs_zero
  | append_singleton moves move ih =>
    obtain ⟨now, earlier⟩ := duringRound_append_singleton.1 small
    rw [run_append] at now ⊢
    by_cases starts : move = .start
    · -- A start opens a new account, so nothing is asked of the moves before it.
      subst starts
      have same := active_start ((ofSeed config seed).run moves)
      exact planBacked_start (same ▸ now)
    · have within := earlier.resolve_left starts
      exact (ih within).after (sound_run config seed moves) within.last starts

/-- What a reroll makes of the plan: the configured turns, moved by what the active rules ask for on
the hand just dealt, within the range of plans. -/
structure Replanned (config : RoundSetup) (g g' : Game) : Prop where
  hand : g'.table.player = g.table.redealPlayer.player
  granted : g'.referee.tally.granted.toInt = g.referee.active.turnsOn g'.table.player
  plan : (g'.table.plan.toNat : Int) =
    max 1 (min (config.normalized.turns.toNat + g.referee.active.turnsOn g'.table.player)
      (UInt32.size - 1))

theorem PlanBacked.replanned (h : g.PlanBacked) (sound : g.Sound config)
    (small : g.referee.active.reach < 2 ^ 62) {reports : List PassReport}
    (answer : g.reroll.1 = .ok reports) : g.Replanned config g.reroll.2 := by
  rcases reroll_refused_or sound.queue with ⟨refusal, eq⟩ | ⟨active, fresh, left⟩
  · simp [eq] at answer
  · obtain ⟨first, second, passes, eq⟩ := reroll_eq active fresh left
    have dealt : g.table.redealPlayer.player.length < UInt32.size :=
      g.table.length_redealPlayer ▸ g.table.setup.player.size.toNat_lt
    have granted := passes.granted dealt h small
    have backed := passes.backs h small
    have offset : second.host.planOffset.toInt = g.referee.active.turnsOn second.host.player := by
      rw [← backed.granted, granted, passes.player]
    have setup : second.host.setup = config.normalized :=
      passes.grows.setup.trans sound.setup
    rw [eq]
    refine ⟨passes.player, granted.trans (passes.player ▸ rfl), ?_⟩
    have plan := second.host.toNat_plan
    rwa [offset, setup] at plan

/-- Whatever rules were enabled, toggled or cleared and however often the hand was dealt again since
the round started, a reroll plans the round as if there had been nothing before it. -/
theorem replanned_run (config : RoundSetup) (seed : UInt64) (moves : List Move)
    (small : DuringRound (·.referee.active.reach < 2 ^ 62) (ofSeed config seed) moves)
    (reports : List PassReport)
    (answer : ((ofSeed config seed).run moves).reroll.1 = .ok reports) :
    ((ofSeed config seed).run moves).Replanned config ((ofSeed config seed).run moves).reroll.2 :=
  (planBacked_run config seed moves small).replanned (sound_run config seed moves) small.last answer

/-- A rule that asks for one more turn when the player holds three rocks keeps asking for one. -/
theorem replanned_run_survey :
    let survey : Rule := { name := "Rock survey", tags := [.timing .roundPrepare,
      .condition (.playerHolds .rock 3), .effect { effect := .modifyPlannedTurns 1 }] }
    let config : RoundSetup :=
      { RoundSetup.standard with player := ⟨3, 3, 0, 0⟩, opponent := ⟨1, 1, 0, 0⟩ }
    let g := (ofSeed config 2).run [.enable survey, .start, .reroll]
    DuringRound (·.referee.active.reach < 2 ^ 62) (ofSeed config 2)
        [.enable survey, .start, .reroll] ∧
      (∃ reports, g.reroll.1 = .ok reports) ∧ g.Replanned config g.reroll.2 ∧
      g.reroll.2.table.plan = 6 := by
  intro survey config g
  have started : DuringRound (·.referee.active.reach < 2 ^ 62) (ofSeed config 2)
      ([.enable survey] ++ [.start]) :=
    duringRound_append_singleton.2 ⟨by decide +kernel, .inl rfl⟩
  have small : DuringRound (·.referee.active.reach < 2 ^ 62) (ofSeed config 2)
      ([.enable survey, .start] ++ [.reroll]) :=
    duringRound_append_singleton.2 ⟨by decide +kernel, .inr started⟩
  have answers := (sound_run config 2 [.enable survey, .start, .reroll]).rerollAnswers
  obtain ⟨reports, answer⟩ := answers.ok.2 (by decide +kernel)
  have planned := replanned_run config 2 _ small reports answer
  refine ⟨small, ⟨reports, answer⟩, planned, ?_⟩
  decide +kernel

end Game
end Roshambo
