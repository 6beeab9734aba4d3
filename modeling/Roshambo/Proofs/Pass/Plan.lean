import Mathlib.Algebra.GroupWithZero.Nat
import Mathlib.Algebra.Ring.Int.Defs
import Roshambo.Proofs.Pass.Acts
import Roshambo.Round.Table

/-!
# The plan of a round-prepare pass

The rules that a round-prepare pass fires ask for planned turns, and the table is handed the
difference to what it was granted before. As long as the asked numbers are small, `Backs` says that
the tally accounts for the whole offset of the plan; a pass that runs again then brings the offset
to just what the rules ask for on the hand it finds.
-/
namespace Roshambo

namespace Saturating

theorem natAbs_clamp_le (n : Int) : (clamp n).natAbs ≤ n.natAbs := by
  simp only [clamp, Int64.toInt_minValue, Int64.toInt_maxValue]
  omega

theorem clamp_of_small {n : Int} (small : n.natAbs < 2 ^ 63) : clamp n = n := by
  simp only [clamp, Int64.toInt_minValue, Int64.toInt_maxValue]
  omega

end Saturating

/-! ## What rules ask for -/

/-- The planned turns that the effect asks for. -/
def Effect.turns : Effect → Int
  | modifyPlannedTurns delta => delta.toInt
  | _ => 0

namespace Tag

/-- What the tag asks for when its rule fires. Between turns there is no outcome and no choice, so
an effect with a filter asks for nothing. -/
def turns : Tag → Int
  | effect ⟨asked, ⟨none, none⟩⟩ => asked.turns
  | _ => 0

/-- How far the tag can move a plan, whatever its filter. -/
def reach : Tag → Nat
  | effect tagged => tagged.effect.turns.natAbs
  | _ => 0

/-- The tag does not keep its rule from preparing a round on this hand. -/
def preparesOn (hand : List Choice) : Tag → Bool
  | condition (.playerHolds choice count) => count.toNat ≤ hand.count choice
  | invalid tag => tag.role == some .timing || tag.role == some .effect
  | _ => true

end Tag

namespace Rule

def turns (rule : Rule) : Int := (rule.tags.map Tag.turns).sum

def reach (rule : Rule) : Nat := (rule.tags.map Tag.reach).sum

/-- The rule has its say when a round is prepared again and the player holds this hand. -/
def preparesOn (rule : Rule) (hand : List Choice) : Bool :=
  rule.tags.contains (.timing .roundPrepare) && rule.tags.all (Tag.preparesOn hand)

end Rule

namespace ActiveRules

/-- The planned turns that the rules ask for when the player holds this hand. -/
def turnsOn (active : ActiveRules) (hand : List Choice) : Int :=
  ((active.rules.filter (·.preparesOn hand)).map Rule.turns).sum

def reach (active : ActiveRules) : Nat := (active.rules.map Rule.reach).sum

end ActiveRules

/-! ## Counting what is asked for -/

namespace Effect

theorem toInt_asked_tallyAfter (tally : PlanTally) (effect : Effect) :
    (effect.tallyAfter tally).asked.toInt =
      Saturating.clamp (tally.asked.toInt + effect.turns) := by
  cases effect with
  | modifyPlannedTurns delta => exact Saturating.toInt_add _ _
  | _ =>
    show tally.asked.toInt = Saturating.clamp (tally.asked.toInt + 0)
    rw [← Int64.toInt_zero, ← Saturating.toInt_add, Saturating.add_zero]

theorem granted_tallyAfter (tally : PlanTally) (effect : Effect) :
    (effect.tallyAfter tally).granted = tally.granted := by
  cases effect <;> rfl

theorem toInt_asked_foldl (effects : List Effect) (tally : PlanTally)
    (small : tally.asked.toInt.natAbs + (effects.map (·.turns.natAbs)).sum < 2 ^ 63) :
    (effects.foldl tallyAfter tally).asked.toInt =
      tally.asked.toInt + (effects.map turns).sum := by
  induction effects generalizing tally with
  | nil => simp
  | cons effect effects ih =>
    rw [List.map_cons, List.sum_cons] at small
    have first : (effect.tallyAfter tally).asked.toInt = tally.asked.toInt + effect.turns := by
      rw [toInt_asked_tallyAfter, Saturating.clamp_of_small (by omega)]
    rw [List.foldl_cons, ih _ (by rw [first]; omega), first, List.map_cons, List.sum_cons]
    omega

end Effect

namespace Tag

variable {pass : Pass} {ctx : Context} {tag : Tag} {effect : Effect}

theorem reach_of_act? (acts : tag.act? pass ctx = some effect) :
    tag.reach = effect.turns.natAbs := by
  cases tag with
  | effect tagged =>
    simp only [act?] at acts
    split at acts
    · cases acts
      rfl
    · cases acts
  | _ => cases acts

/-- A pass that prepares again applies requests for turns and nothing else. -/
theorem applies_prepare_iff (effect : Effect) :
    (Pass.prepare true).applies effect = true ↔ effect.kind = .modifyPlannedTurnsDelta := by
  simp [Pass.applies, Pass.effectKinds]

theorem turns_act? (outcome : ctx.outcome = none) (choice : ctx.choice = none) (tag : Tag) :
    ((tag.act? (.prepare true) ctx).toList.map Effect.turns).sum = tag.turns := by
  cases tag with
  | effect tagged =>
    obtain ⟨effect, filter⟩ := tagged
    by_cases asks : effect.kind = .modifyPlannedTurnsDelta
    · have applies := (applies_prepare_iff effect).2 asks
      rcases filter with ⟨_ | _, _ | _⟩ <;>
        simp [act?, applies, outcome, choice, TurnFilter.matches, turns]
    · have ignored := Bool.eq_false_iff.2 (mt (applies_prepare_iff effect).1 asks)
      have none : effect.turns = 0 := by
        cases effect with
        | modifyPlannedTurns delta => exact absurd rfl asks
        | _ => rfl
      rcases filter with ⟨_ | _, _ | _⟩ <;> simp [act?, ignored, turns, none]
  | _ => rfl

end Tag

namespace Rule

theorem turns_acts {ctx : Context} (outcome : ctx.outcome = none) (choice : ctx.choice = none)
    (rule : Rule) : ((rule.acts (.prepare true) ctx).map Effect.turns).sum = rule.turns := by
  unfold acts turns
  induction rule.tags with
  | nil => rfl
  | cons tag tags ih =>
    rw [List.map_cons, List.sum_cons, ← ih, ← Tag.turns_act? outcome choice tag]
    cases acts : tag.act? (.prepare true) ctx <;> simp [acts]

theorem reach_acts_le (rule : Rule) (pass : Pass) (ctx : Context) :
    ((rule.acts pass ctx).map (·.turns.natAbs)).sum ≤ rule.reach := by
  unfold acts reach
  induction rule.tags with
  | nil => exact Nat.le_refl _
  | cons tag tags ih =>
    rw [List.map_cons, List.sum_cons]
    cases acts : tag.act? pass ctx with
    | none =>
      rw [List.filterMap_cons_none acts]
      omega
    | some effect =>
      have own := Tag.reach_of_act? acts
      rw [List.filterMap_cons_some acts, List.map_cons, List.sum_cons]
      omega

theorem sum_turns_acts {ctx : Context} (outcome : ctx.outcome = none) (choice : ctx.choice = none)
    (rules : List Rule) :
    ((rules.flatMap (·.acts (.prepare true) ctx)).map Effect.turns).sum =
      (rules.map turns).sum := by
  induction rules with
  | nil => rfl
  | cons rule rules ih =>
    rw [List.flatMap_cons, List.map_append, List.sum_append, List.map_cons, List.sum_cons, ih,
      rule.turns_acts outcome choice]

theorem sum_reach_acts_le (chosen : Rule → Bool) (rules : List Rule) (pass : Pass) (ctx : Context) :
    (((rules.filter chosen).flatMap (·.acts pass ctx)).map (·.turns.natAbs)).sum ≤
      (rules.map reach).sum := by
  induction rules with
  | nil => exact Nat.le_refl _
  | cons rule rules ih =>
    have own := rule.reach_acts_le pass ctx
    rw [List.map_cons, List.sum_cons, List.filter_cons]
    split
    · rw [List.flatMap_cons, List.map_append, List.sum_append]
      omega
    · omega

/-- On a hand that a word can count, a rule fires in the pass after a reroll as `preparesOn`
says. -/
theorem fires_prepare_iff {t : Table} (small : t.player.length < UInt32.size) (ctx : Context)
    (rule : Rule) :
    rule.Fires Table.host t ctx (.prepare true) ↔ rule.preparesOn t.player = true := by
  have allows : ∀ tag : Tag, tag.Allows Table.host t ctx (.prepare true) ↔
      tag.preparesOn t.player = true := by
    intro tag
    cases tag with
    | condition c =>
      cases c with
      | playerHolds choice count =>
        have held : ((t.counts .player).get choice).toNat = t.player.count choice :=
          CardCounts.toNat_get_ofHand small choice
        simp [Tag.Allows, Tag.preparesOn, Pass.evaluates, Pass.conditionKinds, Condition.kind,
          Condition.holds?, Table.host, UInt32.le_iff_toNat_le, held]
      | _ => simp [Tag.Allows, Tag.preparesOn, Pass.evaluates, Pass.conditionKinds, Condition.kind]
    | invalid tag => simp [Tag.Allows, Tag.preparesOn]
    | _ => simp [Tag.Allows, Tag.preparesOn]
  have unindexed : rule.turnIndices (.prepare true) = [] := by
    refine List.filterMap_eq_nil_iff.2 fun tag _ => ?_
    cases tag with
    | condition c => cases c <;> rfl
    | _ => rfl
  simp only [preparesOn, Bool.and_eq_true, List.contains_iff_mem, List.all_eq_true]
  constructor
  · intro fires
    exact ⟨fires.timed, fun tag mem => (allows tag).1 (fires.allowed tag mem)⟩
  · rintro ⟨timed, allowed⟩
    exact ⟨timed, fun tag mem => (allows tag).2 (allowed tag mem), .inl unindexed⟩

end Rule

/-! ## Passes -/

namespace PassSetting

variable {σ : Type} (setting : PassSetting σ)

theorem natAbs_asked_performTag_le (rule : String) (tag : Tag) (s : PassState σ) :
    (setting.performTag rule tag s).tally.asked.toInt.natAbs ≤
      s.tally.asked.toInt.natAbs + tag.reach := by
  obtain ⟨found, eq⟩ := setting.performTag_eq rule tag s
  cases acts : tag.act? setting.pass s.context with
  | none =>
    rw [eq, acts]
    exact Nat.le_add_right _ _
  | some effect =>
    rw [eq, acts, Tag.reach_of_act? acts]
    simp only [(performed_perform rule effect s).tally, Effect.toInt_asked_tallyAfter]
    have cut := Saturating.natAbs_clamp_le (s.tally.asked.toInt + effect.turns)
    omega

theorem natAbs_asked_applyRule_le (rule : Rule) (s : PassState σ) :
    (setting.applyRule rule s).tally.asked.toInt.natAbs ≤
      s.tally.asked.toInt.natAbs + rule.reach := by
  have walk : ∀ (tags : List Tag) (s : PassState σ),
      (tags.foldl (fun s tag => setting.performTag rule.name tag s) s).tally.asked.toInt.natAbs ≤
        s.tally.asked.toInt.natAbs + (tags.map Tag.reach).sum := by
    intro tags
    induction tags with
    | nil => exact fun s => Nat.le_refl _
    | cons tag tags ih =>
      intro s
      have first := setting.natAbs_asked_performTag_le rule.name tag s
      have rest := ih (setting.performTag rule.name tag s)
      rw [List.foldl_cons, List.map_cons, List.sum_cons]
      omega
  unfold applyRule
  split
  · exact walk rule.tags _
  · exact Nat.le_add_right _ _

theorem natAbs_asked_applyRules_le (rules : List Rule) (s : PassState σ) :
    (setting.applyRules rules s).tally.asked.toInt.natAbs ≤
      s.tally.asked.toInt.natAbs + (rules.map Rule.reach).sum := by
  unfold applyRules
  induction rules generalizing s with
  | nil => exact Nat.le_refl _
  | cons rule rules ih =>
    have first := setting.natAbs_asked_applyRule_le rule s
    have rest := ih (setting.applyRule rule s)
    rw [List.foldl_cons, List.map_cons, List.sum_cons]
    omega

end PassSetting

/-- The tally accounts for the whole offset of a plan, and the offset is small enough to be moved
without loss. -/
structure PlanTally.Backs (tally : PlanTally) (offset : Int64) : Prop where
  granted : tally.granted = offset
  small : offset.toInt.natAbs < 2 ^ 62

theorem PlanTally.backs_zero : ({} : PlanTally).Backs 0 := ⟨rfl, by decide⟩

namespace Referee

variable (ref : Referee) (ctx : Context) (t : Table)

theorem planOffset_evaluate (pass : Pass) (handsOpen : Bool) :
    (ref.evaluate ⟨Table.host, pass, handsOpen⟩ ctx t).host.planOffset = t.planOffset := by
  refine ref.host_evaluate _ ctx t (R := fun state => state.planOffset = t.planOffset) rfl ?_
    (fun _ _ same => same)
  rintro _ effect state _ same
  cases effect with
  | replaceOpponentCards choice count => cases choice <;> exact same
  | addCards side choice count => cases side <;> exact same
  | addRandomCards side count => cases side <;> exact same
  | _ => exact same

theorem natAbs_asked_evaluate_le {σ : Type} (setting : PassSetting σ) (state : σ) :
    (ref.evaluate setting ctx state).referee.tally.asked.toInt.natAbs ≤
      ref.tally.asked.toInt.natAbs + ref.active.reach := by
  have bound := setting.natAbs_asked_applyRules_le ref.active.rules
    (ref.passStart ctx state)
  rwa [← setting.showLine_tally] at bound

/-- A pass that prepares again asks for what its rules want on the player's hand. -/
theorem toInt_asked_prepare_again {ctx : Context} {t : Table} (outcome : ctx.outcome = none)
    (choice : ctx.choice = none) (hand : t.player.length < UInt32.size)
    (small : ref.active.reach < 2 ^ 62) (started : ref.tally.asked = 0) :
    (ref.evaluate ⟨Table.host, .prepare true, false⟩ ctx t).referee.tally.asked.toInt =
      ref.active.turnsOn t.player := by
  have firing : ref.firing ⟨Table.host, .prepare true, false⟩ ctx t =
      ref.active.rules.filter (·.preparesOn t.player) := by
    refine List.filter_congr fun rule _ => ?_
    rw [Bool.eq_iff_iff, decide_eq_true_eq]
    exact Rule.fires_prepare_iff hand ctx rule
  have acting : ref.acting ⟨Table.host, .prepare true, false⟩ ctx t =
      (ref.active.rules.filter (·.preparesOn t.player)).flatMap (·.acts (.prepare true) ctx) := by
    rw [Referee.acting, firing]
  have bound := Rule.sum_reach_acts_le (·.preparesOn t.player) ref.active.rules (.prepare true) ctx
  have zero : ref.tally.asked.toInt = 0 := by rw [started]; rfl
  rw [ActiveRules.reach] at small
  rw [ref.tally_evaluate_closed ctx t rfl, acting, Effect.toInt_asked_foldl _ _ (by omega),
    zero, Int.zero_add]
  exact Rule.sum_turns_acts outcome choice _

/-- A table grants whatever is due. If nothing is, it is not even asked. -/
theorem settlePlan_table (again : Bool) (r : PassResult Table) :
    let due := r.referee.tally.due
    let moved := { r.host with planOffset := Saturating.add r.host.planOffset due }
    settlePlan Table.host again r =
      { report := r.report
        context := { r.context with planned := if due = 0 then r.context.planned else moved.plan }
        host := moved
        referee := { r.referee with
          tally := r.referee.tally.settle
          events := r.referee.events ++
            if due = 0 then [] else [.turnsAdjusted due moved.plan again] } } := by
  intro due moved
  by_cases none : due = 0
  · have same : moved = r.host := by simp only [moved, none, Saturating.add_zero]
    rw [settlePlan, if_pos none, if_pos none, if_pos none, same, List.append_nil]
  · rw [settlePlan, if_neg none, if_neg none, if_neg none]
    rfl

theorem hand_settlePlan (again : Bool) (r : PassResult Table) (side : Side) :
    (settlePlan Table.host again r).host.hand side = r.host.hand side := by
  rw [settlePlan_table]
  cases side <;> rfl

/-- The rules of a pass grant nothing themselves. -/
theorem granted_unsettled {σ : Type} (host : Host σ) (state : σ) (again : Bool) :
    (ref.unsettled host ctx state again).referee.tally.granted =
      (ref.preparing again).tally.granted :=
  (ref.preparing again).tally_evaluate _ ctx state
    (R := fun tally => tally.granted = (ref.preparing again).tally.granted) rfl
    fun effect tally _ same => (effect.granted_tallyAfter tally).trans same

theorem tally_prepareRound (again : Bool) (t : Table) :
    (ref.prepareRound Table.host again ctx t).referee.tally =
      (ref.unsettled Table.host ctx t again).referee.tally.settle := by
  rw [prepareRound_eq, settlePlan_table]

/-- A round-prepare pass counts as granted what its rules ask for, and moves the plan by the
difference to what was granted before. -/
theorem prepareRound_table (again : Bool) (t : Table) :
    let asked := (ref.unsettled Table.host ctx t again).referee.tally.asked
    (ref.prepareRound Table.host again ctx t).referee.tally.granted = asked ∧
      (ref.prepareRound Table.host again ctx t).host.planOffset =
        Saturating.add t.planOffset (Saturating.sub asked (ref.preparing again).tally.granted) := by
  let r := ref.unsettled Table.host ctx t again
  have offset : r.host.planOffset = t.planOffset :=
    (ref.preparing again).planOffset_evaluate ctx t (.prepare again) (!again)
  rw [tally_prepareRound, prepareRound_eq, settlePlan_table]
  refine ⟨rfl, ?_⟩
  show Saturating.add r.host.planOffset (Saturating.sub _ r.referee.tally.granted) = _
  rw [offset, show r.referee.tally.granted = _ from ref.granted_unsettled ctx _ t again]

/-- Once a round is prepared, both its plan and its tally stand at what the pass asked for. -/
theorem prepareRound_settles {t : Table} (again : Bool)
    (backs : (if again then ref.tally else {}).Backs t.planOffset)
    (small : ref.active.reach < 2 ^ 62) :
    let asked := (ref.unsettled Table.host ctx t again).referee.tally.asked
    asked.toInt.natAbs < 2 ^ 62 ∧
      (ref.prepareRound Table.host again ctx t).host.planOffset = asked ∧
      (ref.prepareRound Table.host again ctx t).referee.tally.granted = asked := by
  intro asked
  have bound := (ref.preparing again).natAbs_asked_evaluate_le ctx
    ⟨Table.host, .prepare again, !again⟩ t
  have zero : (ref.preparing again).tally.asked.toInt.natAbs = 0 := rfl
  rw [zero, Nat.zero_add] at bound
  have near : asked.toInt.natAbs < 2 ^ 62 := Nat.lt_of_le_of_lt bound small
  have before := backs.small
  obtain ⟨granted, offset⟩ := ref.prepareRound_table ctx again t
  refine ⟨near, offset.trans ?_, granted⟩
  -- Adding what is due to what was granted cancels, as neither step leaves the range.
  have due : (Saturating.sub asked t.planOffset).toInt = asked.toInt - t.planOffset.toInt := by
    rw [Saturating.toInt_sub, Saturating.clamp_of_small (by omega)]
  have held : (ref.preparing again).tally.granted = t.planOffset := backs.granted
  rw [held]
  apply Int64.toInt_inj.1
  rw [Saturating.toInt_add, due, Saturating.clamp_of_small (by omega)]
  omega

theorem prepareRound_backs {t : Table} (again : Bool)
    (backs : (if again then ref.tally else {}).Backs t.planOffset)
    (small : ref.active.reach < 2 ^ 62) :
    (ref.prepareRound Table.host again ctx t).referee.tally.Backs
      (ref.prepareRound Table.host again ctx t).host.planOffset := by
  obtain ⟨near, offset, granted⟩ := ref.prepareRound_settles ctx again backs small
  rw [offset]
  exact ⟨granted, near⟩

/-- Prepared again, a round is granted what its rules want on the player's hand. -/
theorem toInt_granted_prepareRound_again {ctx : Context} {t : Table}
    (outcome : ctx.outcome = none) (choice : ctx.choice = none)
    (hand : t.player.length < UInt32.size) (backs : ref.tally.Backs t.planOffset)
    (small : ref.active.reach < 2 ^ 62) :
    (ref.prepareRound Table.host true ctx t).referee.tally.granted.toInt =
      ref.active.turnsOn t.player := by
  obtain ⟨-, -, granted⟩ := ref.prepareRound_settles ctx true backs small
  rw [granted]
  exact (ref.preparing true).toInt_asked_prepare_again outcome choice hand small rfl

end Referee

end Roshambo
