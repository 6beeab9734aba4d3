import Roshambo.Proofs.Round.Plan

/-!
# A plan in step with its tally

The passes that prepare a round hand the table one difference of planned turns after another. A
difference is a word and stops at the end of its range. As long as every difference fits, the plan
is the configured number of turns moved by what the tally counts as granted, however large the
numbers are, and a pass in which no rule fires brings back the configured number. The first
difference that does not fit takes the plan out of step.
-/
namespace Roshambo

/-- Moving a word to another by their difference works just when the difference is a word. -/
theorem Saturating.add_sub_eq_iff (a b : Int64) :
    add a (sub b a) = b ↔
      Int64.minValue.toInt ≤ b.toInt - a.toInt ∧ b.toInt - a.toInt ≤ Int64.maxValue.toInt := by
  have lowA := a.minValue_le_toInt
  have highA := a.toInt_le
  have lowB := b.minValue_le_toInt
  have highB := b.toInt_le
  rw [← Int64.toInt_inj, toInt_add, toInt_sub]
  simp only [clamp, Int64.toInt_minValue, Int64.toInt_maxValue] at lowA highA lowB highB ⊢
  omega

namespace Referee

/-! ## One pass -/

section

variable {σ : Type} (ref : Referee) (setting : PassSetting σ) (ctx : Context) (state : σ)

/-- A pass in which no rule fires leaves the tally as it was. -/
theorem tally_evaluate_of_unfired (unfired : (ref.evaluate setting ctx state).report.fired = []) :
    (ref.evaluate setting ctx state).referee.tally = ref.tally := by
  have carries : setting.Carries (fun s => s.fired = [] → s.tally = ref.tally)
      (fun s => s.fired ≠ []) :=
    { fire := fun _ _ _ => List.append_ne_nil_of_right_ne_nil _ (List.cons_ne_nil _ _)
      report := fun _ _ fired => fired
      rest := fun _ _ kept => kept
      done := fun _ fired unfired => absurd unfired fired
      perform := fun rule effect s _ fired => by
        rwa [(PassSetting.performed_perform rule effect s).fired] }
  have kept := carries.applyRules ref.active.rules (s := ref.passStart ctx state) fun _ => rfl
  refine (setting.showLine_tally _).trans (kept ?_)
  rw [← setting.showLine_fired]
  exact unfired

end

namespace PassResult

/-- The plan has been moved by just what counts as granted. -/
def InStep (r : PassResult Table) : Prop := r.host.planOffset = r.referee.tally.granted

/-- A word holds the difference between what was granted by two passes. -/
def Reaches (later earlier : PassResult Table) : Prop :=
  let difference := later.referee.tally.granted.toInt - earlier.referee.tally.granted.toInt
  Int64.minValue.toInt ≤ difference ∧ difference ≤ Int64.maxValue.toInt

instance (later earlier : PassResult Table) : Decidable (later.Reaches earlier) :=
  inferInstanceAs (Decidable (_ ∧ _))

/-- The pass moved the plan by the difference to what had been granted, as far as a word holds it. -/
def Follows (later earlier : PassResult Table) : Prop :=
  later.host.planOffset = Saturating.add earlier.host.planOffset
    (Saturating.sub later.referee.tally.granted earlier.referee.tally.granted)

/-- The plan is the configured number of turns, moved by what was granted. -/
structure Planned (config : RoundSetup) (r : PassResult Table) : Prop where
  plan : (r.host.plan.toNat : Int) =
    max 1 (min (config.normalized.turns.toNat + r.referee.tally.granted.toInt) (UInt32.size - 1))
  unfired : r.report.fired = [] → r.host.plan = config.normalized.turns

theorem inStep_iff_of_follows {later earlier : PassResult Table} (follows : later.Follows earlier)
    (inStep : earlier.InStep) : later.InStep ↔ later.Reaches earlier := by
  unfold InStep at inStep ⊢
  rw [follows, inStep]
  exact Saturating.add_sub_eq_iff _ _

end PassResult

variable (ref : Referee) (ctx : Context) (t : Table)

theorem setup_prepareRound (again : Bool) :
    (ref.prepareRound Table.host again ctx t).host.setup = t.setup :=
  (grows_prepareRound ref ctx t again).setup

/-- A pass in which no rule fires has nothing to grant. -/
theorem granted_prepareRound_of_unfired (again : Bool)
    (unfired : (ref.prepareRound Table.host again ctx t).report.fired = []) :
    (ref.prepareRound Table.host again ctx t).referee.tally.granted = 0 := by
  rw [prepareRound_eq, settlePlan_table] at unfired
  rw [(ref.prepareRound_table ctx again t).1]
  exact congrArg PlanTally.asked ((ref.preparing again).tally_evaluate_of_unfired _ ctx t unfired)

/-! ## The passes of a round -/

/-- What the passes that prepare one round left, the latest first: a full pass after the deal, and
passes that run again. In between rules may come and go, cards may be dealt and drawn, and all else
may happen that leaves the tally and the offset of the plan to these passes. -/
inductive Preparations (config : RoundSetup) : List (PassResult Table) → Prop
  | full (ref : Referee) (ctx : Context) (t : Table) (setup : t.setup = config.normalized) :
      Preparations config [ref.prepareRound Table.host false ctx t.deal]
  | again {latest : PassResult Table} {earlier : List (PassResult Table)}
      (before : Preparations config (latest :: earlier)) (ref : Referee) (ctx : Context) (t : Table)
      (tally : ref.tally = latest.referee.tally) (setup : t.setup = latest.host.setup)
      (offset : t.planOffset = latest.host.planOffset) :
      Preparations config (ref.prepareRound Table.host true ctx t :: latest :: earlier)

namespace Preparations

variable {config : RoundSetup} {results : List (PassResult Table)}

theorem setup (run : Preparations config results) :
    ∀ r ∈ results, r.host.setup = config.normalized := by
  induction run with
  | full ref ctx t setup =>
    rw [List.forall_mem_singleton, setup_prepareRound]
    exact setup
  | again before ref ctx t tally setup offset ih =>
    refine List.forall_mem_cons.2 ⟨?_, ih⟩
    rw [setup_prepareRound, setup]
    exact ih _ List.mem_cons_self

/-- After a reroll the round is prepared again, perhaps by other rules. -/
theorem reroll {latest : PassResult Table} {earlier : List (PassResult Table)}
    (before : Preparations config (latest :: earlier)) (active : ActiveRules) (ctx : Context) :
    Preparations config (prepareRound { latest.referee with active := active } Table.host true ctx
      latest.host.redealPlayer :: latest :: earlier) :=
  before.again _ ctx _ rfl rfl rfl

theorem granted_of_unfired (run : Preparations config results) :
    ∀ r ∈ results, r.report.fired = [] → r.referee.tally.granted = 0 := by
  induction run with
  | full ref ctx t setup =>
    rw [List.forall_mem_singleton]
    exact ref.granted_prepareRound_of_unfired ctx t.deal false
  | again before ref ctx t tally setup offset ih =>
    exact List.forall_mem_cons.2 ⟨ref.granted_prepareRound_of_unfired ctx t true, ih⟩

theorem follows (run : Preparations config results) : results.IsChain PassResult.Follows := by
  induction run with
  | full => exact .singleton _
  | again before ref ctx t tally setup offset ih =>
    obtain ⟨granted, moved⟩ := ref.prepareRound_table ctx true t
    refine List.isChain_cons_cons.2 ⟨?_, ih⟩
    rw [PassResult.Follows, granted, moved, offset, ← tally]
    rfl

/-- Nothing was granted before the full pass, so all that it asks for fits. -/
theorem inStep_full (ref : Referee) (ctx : Context) (t : Table) :
    (ref.prepareRound Table.host false ctx t.deal).InStep := by
  obtain ⟨granted, moved⟩ := ref.prepareRound_table ctx false t.deal
  rw [PassResult.InStep, granted, moved]
  refine (Saturating.add_sub_eq_iff 0 _).2 ?_
  rw [Int64.toInt_zero, Int.sub_zero]
  exact ⟨Int64.minValue_le_toInt _, Int64.toInt_le _⟩

/-- The plan stays in step just as long as every difference fits. -/
theorem inStep_iff (run : Preparations config results) :
    (∀ r ∈ results, r.InStep) ↔ results.IsChain PassResult.Reaches := by
  induction run with
  | full ref ctx t setup =>
    rw [List.forall_mem_singleton]
    exact iff_of_true (inStep_full ref ctx t) (.singleton _)
  | again before ref ctx t tally setup offset ih =>
    have follows := (List.isChain_cons_cons.1 (before.again ref ctx t tally setup offset).follows).1
    rw [List.forall_mem_cons, List.isChain_cons_cons, ih]
    refine and_congr_left fun reaches => ?_
    exact PassResult.inStep_iff_of_follows follows (ih.2 reaches _ List.mem_cons_self)

theorem planned (run : Preparations config results) {r : PassResult Table} (mem : r ∈ results)
    (inStep : r.InStep) : r.Planned config := by
  have setup := run.setup r mem
  have plan := r.host.toNat_plan
  rw [setup, show r.host.planOffset = r.referee.tally.granted from inStep] at plan
  refine ⟨plan, fun unfired => UInt32.toNat_inj.1 ?_⟩
  have turns : 1 ≤ config.normalized.turns.toNat := by
    simp only [RoundSetup.normalized]
    split
    · decide
    · rename_i some
      exact Nat.one_le_iff_ne_zero.2 fun zero => some (UInt32.toNat_inj.1 zero)
  have word := config.normalized.turns.toNat_lt
  rw [run.granted_of_unfired r mem unfired, Int64.toInt_zero] at plan
  simp only [UInt32.size] at plan
  omega

end Preparations

/-- How the plan of a round keeps up with what is granted. -/
structure KeepsUp (config : RoundSetup) (results : List (PassResult Table)) : Prop where
  follows : results.IsChain PassResult.Follows
  inStep_iff : (∀ r ∈ results, r.InStep) ↔ results.IsChain PassResult.Reaches
  planned : results.IsChain PassResult.Reaches → ∀ r ∈ results, r.Planned config

/-- Whatever the rules of a round ask for, the plan follows the tally pass by pass. If a word holds
every difference that is asked for, the plan is the configured one moved by what is granted. -/
theorem keepsUp_of_preparations {config : RoundSetup} {results : List (PassResult Table)}
    (run : Preparations config results) : KeepsUp config results where
  follows := run.follows
  inStep_iff := run.inStep_iff
  planned reaches _ mem := run.planned mem (run.inStep_iff.2 reaches _ mem)

/-- All the turns a word holds, then the configured ones, then fewer than any word: each difference
fits. -/
theorem keepsUp_of_preparations_extremes :
    let asking (turns : Int64) : ActiveRules := ⟨[{ name := "Pact", tags :=
      [.timing .roundPrepare, .effect { effect := .modifyPlannedTurns turns }] }]⟩
    let config : RoundSetup :=
      { RoundSetup.standard with player := ⟨1, 1, 0, 0⟩, opponent := ⟨1, 1, 0, 0⟩ }
    let t := Table.ofSeed config 3
    let first := prepareRound { active := asking Int64.maxValue } Table.host false {} t.deal
    let second := prepareRound { first.referee with active := {} } Table.host true {}
      first.host.redealPlayer
    let third := prepareRound { second.referee with active := asking Int64.minValue } Table.host
      true {} second.host.redealPlayer
    let results := [third, second, first]
    Preparations config results ∧ KeepsUp config results ∧
      results.IsChain PassResult.Reaches ∧ results.map (·.host.plan) = [1, 5, 4294967295] := by
  intro asking config t first second third results
  have begun : Preparations config [first] := .full _ {} t rfl
  have again : Preparations config [second, first] := begun.reroll {} {}
  have run : Preparations config results := again.reroll (asking Int64.minValue) {}
  have reaches : results.IsChain PassResult.Reaches :=
    .cons_cons (by decide +kernel) (.cons_cons (by decide +kernel) (.singleton first))
  exact ⟨run, keepsUp_of_preparations run, reaches, by decide +kernel⟩

/-- After all the turns a word holds, two turns fewer than configured cannot be reached. The plan
loses only one, and has one too many when no rule asks for anything any more. -/
theorem plan_drifts :
    let asking (turns : Int64) (name : String) : ActiveRules := ⟨[{ name := name, tags :=
      [.timing .roundPrepare, .effect { effect := .modifyPlannedTurns turns }] }]⟩
    let config : RoundSetup :=
      { RoundSetup.standard with player := ⟨1, 1, 0, 0⟩, opponent := ⟨1, 1, 0, 0⟩ }
    let t := Table.ofSeed config 3
    let first := prepareRound { active := asking Int64.maxValue "Boon" } Table.host false {} t.deal
    let second := prepareRound { first.referee with active := asking (-2) "Bane" } Table.host true
      {} first.host.redealPlayer
    let third := prepareRound { second.referee with active := {} } Table.host true {}
      second.host.redealPlayer
    Preparations config [third, second, first] ∧
      second.referee.tally.granted = -2 ∧ second.host.plan = 4 ∧ ¬ second.Planned config ∧
      third.report.fired = [] ∧ third.host.plan = 6 ∧ ¬ third.Planned config := by
  intro asking config t first second third
  have begun : Preparations config [first] := .full _ {} t rfl
  have again : Preparations config [second, first] := begun.reroll (asking (-2) "Bane") {}
  have run : Preparations config [third, second, first] := again.reroll {} {}
  have less : second.host.plan = 4 := by decide +kernel
  have more : third.host.plan = 6 := by decide +kernel
  have unfired : third.report.fired = [] := by decide +kernel
  have granted : second.referee.tally.granted = -2 := by decide +kernel
  refine ⟨run, granted, less, fun planned => ?_, unfired, more, fun planned => ?_⟩
  · have plan := planned.plan
    rw [less, granted] at plan
    revert plan
    decide
  · have plan := planned.unfired unfired
    rw [more] at plan
    revert plan
    decide

end Referee

end Roshambo
