import Roshambo.Proofs.Round.Board
import Roshambo.Proofs.Round.Changes
import Roshambo.Proofs.Round.Dealing
import Roshambo.Proofs.Round.Plan
import Roshambo.Proofs.Round.Resting

/-!
# What a reroll may touch

A reroll deals the player's hand afresh, and no rule adds a card to it. Of the opponent's hand it
may turn cards, each into what a replacement of a rule that fires asks for. The score, the histories,
the draw order and the active rules stay as they are, and the counter of rerolls, which every reroll
moves on by one, keeps them within the limit of the round.
-/
namespace Roshambo

/-- Every opponent card is the one held before, or what a replacement of one of the rules makes. -/
def Table.TurnedBy (rules : List Rule) (t t' : Table) : Prop :=
  ∀ place : Nat, t'.opponent[place]? = t.opponent[place]? ∨
    ∃ rule ∈ rules, ∃ choice count filter,
      .effect ⟨.replaceOpponentCards choice count, filter⟩ ∈ rule.tags ∧
        t'.opponent[place]? = some choice

namespace Table

variable {rules : List Rule} {t t' t'' : Table}

/-- A card that is turned is turned into the choice. -/
theorem TurnedBy.of_turned {rule : Rule} {choice : Choice} {count changed wanted : UInt32}
    {filter : TurnFilter} {pool : List Nat} (h : t.TurnedBy rules t') (mem : rule ∈ rules)
    (tag : .effect ⟨.replaceOpponentCards choice count, filter⟩ ∈ rule.tags)
    (turned : t'.Turned choice pool wanted changed t'') : t.TurnedBy rules t'' := by
  obtain ⟨picks, -, -, -, cards⟩ := turned.picked
  intro place
  rw [cards place]
  split
  · exact .inr ⟨rule, mem, choice, count, filter, tag, rfl⟩
  · exact h place

/-- So it goes with every effect that a round-start pass applies. -/
theorem TurnedBy.changeHands {rule : Rule} {tagged : GuardedEffect} {initial : Bool}
    (h : t.TurnedBy rules t') (mem : rule ∈ rules) (tag : .effect tagged ∈ rule.tags)
    (applies : (Pass.roundStart initial).applies tagged.effect = true) :
    t.TurnedBy rules (Table.host.changeHands tagged.effect t') := by
  obtain ⟨effect, filter⟩ := tagged
  cases effect with
  | replaceOpponentCards choice count =>
    cases choice
    · exact TurnedBy.of_turned h mem tag (t'.turned_replaceOthers .rock count).1
    · exact TurnedBy.of_turned h mem tag (t'.turned_replaceRandomly .paper count).1
    · exact TurnedBy.of_turned h mem tag (t'.turned_replaceRandomly .scissors count).1
  | addCards side choice count => cases Pass.applies_addCards.1 applies
  | addRandomCards side count => cases Pass.applies_addRandomCards.1 applies
  | _ => exact h

end Table

namespace Referee.DealPasses

variable {ref : Referee} {t : Table} {first second : PassResult Table}

/-- Preparing the round again leaves the opponent's hand alone, and the rules that fire when it is
opened again may turn its cards. -/
theorem turnedBy (h : ref.DealPasses true t first second) :
    ∃ firing : List Rule, firing.Sublist ref.active.rules ∧
      second.report.fired = firing.map (·.name) ∧ t.TurnedBy firing second.host := by
  obtain ⟨ctx, -, -, -, prepared⟩ := h.prepared
  obtain ⟨gate, ctx', -, opened⟩ := h.opened
  have same : first.host.opponent = t.opponent := by
    obtain ⟨lines, left⟩ := (ref.preparing true).host_evaluate_closed (.prepare true) ctx t
    have kept : (ref.unsettled Table.host ctx t true).host = { t with shown := lines } := left
    have settled := hand_settlePlan true (ref.unsettled Table.host ctx t true) .opponent
    rw [kept] at settled
    rw [← prepared]
    exact settled
  have active : first.referee.active = ref.active := by
    rw [← prepared]
    exact ref.active_enter (.prepareRound true) Table.host ctx t
  let judge : Referee := { first.referee with gate := gate }
  let firing := judge.firingAt (.openRound false) Table.host ctx' first.host
  -- The pass keeps `TurnedBy` from effect to effect; it holds at first because nothing was turned.
  have turned : t.TurnedBy firing second.host := by
    rw [← opened]
    refine judge.host_evaluate_firing (R := t.TurnedBy firing)
      ⟨Table.host, .roundStart false, gate.isOpen⟩ ctx' first.host ?_ ?_ ?_
    · exact fun place => .inl (congrArg (·[place]?) same)
    · exact fun _ rule mem tagged tag applies state h => h.changeHands mem tag applies
    · exact fun state text h => h
  refine ⟨firing, ?_, ?_, turned⟩
  · rw [← active]
    exact judge.firingAt_sublist (.openRound false) Table.host ctx' first.host
  · rw [← opened]
    exact judge.fired_eq_firingAt (.openRound false) Table.host ctx' first.host

/-- Neither of the two passes after a reroll sets how the opponent's cards are drawn. -/
theorem draw (h : ref.DealPasses true t first second) : second.referee.draw = ref.draw := by
  obtain ⟨ctx, -, -, -, prepared⟩ := h.prepared
  obtain ⟨gate, ctx', -, opened⟩ := h.opened
  have before : first.referee.draw = ref.draw := by
    obtain ⟨_, _, _, _, _, settled⟩ :=
      settlePlan_eq Table.host true (ref.unsettled Table.host ctx t true)
    have heard := (ref.preparing true).hears_evaluate ⟨Table.host, .prepare true, false⟩
      (fun isOpen => by cases isOpen) ctx t
    rw [← prepared]
    exact (congrArg (·.referee.draw) settled).trans (heard.draw (by decide) (by decide))
  have heard := Referee.hears_evaluate { first.referee with gate := gate }
    ⟨Table.host, .roundStart false, gate.isOpen⟩ (fun _ => rfl) ctx' first.host
  rw [← before, ← opened]
  exact heard.draw (by simp) rfl

end Referee.DealPasses

/-- The reroll was not refused. -/
def Answer.rerolls : Answer → Bool
  | rerolled (.ok _) => true
  | _ => false

namespace Game

/-- What a reroll leaves whose round-start pass reported `opening`. -/
structure Redealt (g : Game) (opening : PassReport) (g' : Game) : Prop extends g.Rerolled g' where
  counted : g'.table.rerolls.toNat = g.table.rerolls.toNat + 1
  /-- The player's cards are those just dealt, and no others. -/
  player : g'.table.player = (dealHand g.table.random g.table.setup.player).1
  deals : g.table.setup.player.Deals g'.table.player
  opponent : g'.table.opponent.length = g.table.opponent.length
  turned : ∃ firing : List Rule, firing.Sublist g.referee.active.rules ∧
    opening.fired = firing.map (·.name) ∧ g.table.TurnedBy firing g'.table
  draw : g'.referee.draw = g.referee.draw
  active : g'.referee.active = g.referee.active

variable {config : RoundSetup} {g g' : Game}

theorem Sound.redealt (h : g.Sound config) {reports : List PassReport}
    (rerolled : g.reroll = (.ok reports, g')) :
    ∃ preparation opening, reports = [preparation, opening] ∧ g.Redealt opening g' := by
  rcases reroll_refused_or h.queue with ⟨refusal, eq⟩ | ⟨active, fresh, left⟩
  · rw [eq] at rerolled
    cases rerolled
  obtain ⟨first, second, passes, eq⟩ := reroll_eq active fresh left
  obtain ⟨_, _, eq', frame⟩ := rerolled_reroll h.queue active fresh left
  rw [rerolled] at eq eq'
  cases eq'
  cases eq
  refine ⟨first.report, second.report, rfl, frame, ?_, passes.player, ?_, passes.length_opponent,
    passes.turnedBy, passes.draw, passes.active⟩
  · rw [frame.rerolls]
    exact Table.toNat_rerolls_of_left left
  · show g.table.setup.player.Deals second.host.player
    rw [passes.player]
    exact deals_dealHand _ _

/-! ## The limit of a round -/

/-- Within a round the counter moves on with every reroll that is not refused, and with nothing
else. -/
theorem Sound.rerolls_after (h : g.Sound config) {move : Move} (goes : move ≠ .start) :
    (g.after move).table.rerolls.toNat =
      g.table.rerolls.toNat + [g.answerTo move].countP Answer.rerolls := by
  have kept {g' : Game} (same : g.SameRound g') :
      g'.table.rerolls.toNat = g.table.rerolls.toNat := by
    obtain ⟨lines, table⟩ := same.table
    rw [table]
  cases move with
  | enable rule => exact kept (sameRound_enable rule h.queue)
  | toggle rule => exact kept (sameRound_toggle rule h.queue h.gate)
  | clear => exact kept (sameRound_clear h.queue)
  | start => exact absurd rfl goes
  | reroll =>
    simp only [Game.after, answerTo]
    cases answer : g.reroll.1 with
    | error refusal => simp [h.rerollAnswers.refused refusal answer, Answer.rerolls]
    | ok reports =>
      obtain ⟨_, _, -, redealt⟩ := h.redealt (Prod.ext answer rfl)
      simpa [Answer.rerolls] using redealt.counted
  | play choice =>
    have step := h.step (.play choice)
    generalize g.after (.play choice) = g' at step ⊢
    cases step with
    | refused => rfl
    | rules changes _ => cases changes
    | play _ _ taken => exact congrArg UInt32.toNat taken.rerolls

theorem Reached.rerolls_served (h : Reached config g) {requests : List Request}
    (goes : .make .start ∉ requests) :
    (g.served requests).table.rerolls.toNat =
      g.table.rerolls.toNat + (g.answers requests).countP Answer.rerolls := by
  induction requests generalizing g with
  | nil => rfl
  | cons request requests ih =>
    rw [List.mem_cons, not_or] at goes
    obtain ⟨first, rest⟩ := goes
    have later := ih (h.serve request) rest
    rw [served_cons, answers_cons, List.countP_append, ← Nat.add_assoc, later]
    congr 1
    cases request with
    | make move => exact h.sound.rerolls_after fun same => first (congrArg Request.make same.symm)
    | takeEvents => rfl
    | takeLines => rfl

/-- What a reroll that is not refused leaves, whatever led to it, and how many there can be from one
start of a round to the next. -/
theorem reroll_keeps (reached : Reached config g) :
    (∀ reports g', g.reroll = (.ok reports, g') →
      ∃ preparation opening, reports = [preparation, opening] ∧ g.Redealt opening g') ∧
    ∀ requests : List Request, .make .start ∉ requests →
      ((g.after .start).answers requests).countP Answer.rerolls ≤ config.maxRerolls.toNat := by
  refine ⟨fun reports g' => reached.sound.redealt, fun requests goes => ?_⟩
  have started : Reached config (g.after .start) := reached.after .start
  have counted := started.rerolls_served goes
  have limit := UInt32.le_iff_toNat_le.1 (started.served requests).sound.rerolls
  omega

/-- A rule that turns a card into a rock does so again after the reroll, and a third reroll is one
too many. -/
theorem reroll_keeps_landslide :
    let landslide : Rule := { name := "Landslide", tags :=
      [.timing .roundStart, .effect ⟨.replaceOpponentCards .rock 1, {}⟩] }
    let config : RoundSetup := ⟨3, 2, ⟨2, 1, 0, 0⟩, ⟨4, 0, 2, 2⟩, .standard⟩
    let g := (ofSeed config 5).run [.enable landslide, .start]
    let again : List Request := [.make .reroll, .make .reroll, .make .reroll]
    g.table.opponent.count .rock < g.reroll.2.table.opponent.count .rock ∧
      (∃ preparation opening, g.reroll.1 = .ok [preparation, opening] ∧
        g.Redealt opening g.reroll.2) ∧
      ((g.after .start).answers again).countP Answer.rerolls ≤ config.maxRerolls.toNat := by
  intro landslide config g again
  have reached : Reached config g := (Reached.ofSeed 5).run _
  have left : g.stage = .active ∧ g.played = [] ∧ g.table.rerolls < config.maxRerolls := by
    decide +kernel
  have turned : g.table.opponent.count .rock < g.reroll.2.table.opponent.count .rock := by
    decide +kernel
  have silent : .make .start ∉ again := by simp [again]
  -- From here on the game is one that moves led to, and nothing evaluates it again.
  clear_value g
  obtain ⟨reports, ok⟩ := reached.sound.rerollAnswers.ok.2 left
  rcases rerolled : g.reroll with ⟨answer, g'⟩
  rw [rerolled] at ok turned
  cases ok
  obtain ⟨preparation, opening, rfl, redealt⟩ := (reroll_keeps reached).1 reports g' rerolled
  exact ⟨turned, ⟨preparation, opening, rfl, redealt⟩, (reroll_keeps reached).2 again silent⟩

end Game

end Roshambo
