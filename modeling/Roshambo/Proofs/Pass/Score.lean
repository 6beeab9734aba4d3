import Roshambo.Proofs.Pass.Acts

/-!
# The score of a pass

At turn start, at settlement and at the end of the round a pass moves the running total on. The
code of an effect works on the delta that the pass adds in the end. This comes to one walk of the
total itself through the effects that act, in order, as long as every number on the way fits a
word. The other passes have no score.
-/
namespace Roshambo

/-- The integer is a 64-bit word. -/
def Saturating.Fits (n : Int) : Prop :=
  Int64.minValue.toInt ≤ n ∧ n ≤ Int64.maxValue.toInt

instance (n : Int) : Decidable (Saturating.Fits n) :=
  inferInstanceAs (Decidable (_ ∧ _))

theorem Saturating.clamp_of_fits {n : Int} (h : Fits n) : clamp n = n :=
  clamp_eq_self h.1 h.2

theorem Saturating.toInt_deltaTimes {total delta factor : Int64}
    (sum : Fits (total.toInt + delta.toInt))
    (product : Fits ((total.toInt + delta.toInt) * factor.toInt))
    (rest : Fits ((total.toInt + delta.toInt) * factor.toInt - total.toInt)) :
    (deltaTimes total delta factor).toInt =
      (total.toInt + delta.toInt) * factor.toInt - total.toInt := by
  simp only [deltaTimes, toInt_sub, toInt_mul, toInt_add, clamp_of_fits sum, clamp_of_fits product,
    clamp_of_fits rest]

theorem Saturating.toInt_ofNat_word (n : UInt32) : (Int64.ofNat n.toNat).toInt = n.toNat :=
  Int64.toInt_ofNat_of_lt (Nat.lt_trans n.toNat_lt (by decide))

namespace Effect

/-- The running total after the effect. The player holds `held` of each choice, if that can be
counted. -/
def onTotal (held : Choice → Option UInt32) (total : Int) : Effect → Int
  | addScore amount => total + amount.toInt
  | addScorePerCard choice perCard =>
    match held choice with
    | some held => total + perCard.toInt * held.toNat
    | none => total
  | finalScoreMultiplier factor => if 1 < factor.toInt then total * factor.toInt else total
  | finalTotalMultiplier factor => total * factor.toInt
  | _ => total

/-- The numbers that come up when the effect moves on the running total, in a pass that found the
total at `base`. -/
def numbers (held : Choice → Option UInt32) (base total : Int) : Effect → List Int
  | addScore amount => [total - base + amount.toInt]
  | addScorePerCard choice perCard =>
    match held choice with
    | some held => [perCard.toInt * held.toNat, total - base + perCard.toInt * held.toNat]
    | none => []
  | finalScoreMultiplier factor =>
    if 1 < factor.toInt then [total, total * factor.toInt, total * factor.toInt - base] else []
  | finalTotalMultiplier factor => [total, total * factor.toInt, total * factor.toInt - base]
  | _ => []

/-- No number that comes up while the effects act one after another is cut to a word. -/
def Exact (held : Choice → Option UInt32) (base : Int) : Int → List Effect → Prop
  | _, [] => True
  | total, effect :: effects =>
    (∀ n ∈ effect.numbers held base total, Saturating.Fits n) ∧
      Exact held base (effect.onTotal held total) effects

instance decidableExact (held : Choice → Option UInt32) (base : Int) :
    ∀ total effects, Decidable (Exact held base total effects)
  | _, [] => .isTrue trivial
  | _, _ :: _ => @instDecidableAnd _ _ _ (decidableExact held base _ _)

variable {held : Choice → Option UInt32} {base delta : Int64}

/-- Where its numbers fit, an effect adds to the delta what it adds to the running total. -/
theorem toInt_deltaAfter {effect : Effect}
    (fits : ∀ n ∈ effect.numbers held base.toInt (base.toInt + delta.toInt), Saturating.Fits n) :
    base.toInt + (effect.deltaAfter held base delta).toInt =
      effect.onTotal held (base.toInt + delta.toInt) := by
  have back : base.toInt + delta.toInt - base.toInt = delta.toInt := by omega
  cases effect with
  | addScore amount =>
    simp only [numbers, List.forall_mem_singleton, back] at fits
    simp only [deltaAfter, onTotal, Saturating.toInt_add, Saturating.clamp_of_fits fits]
    omega
  | addScorePerCard choice perCard =>
    cases count : held choice with
    | none => simp only [deltaAfter, onTotal, count]
    | some cards =>
      simp only [numbers, count, List.forall_mem_cons, back] at fits
      have product : (Saturating.mul perCard (Int64.ofNat cards.toNat)).toInt =
          perCard.toInt * cards.toNat := by
        rw [Saturating.toInt_mul, Saturating.toInt_ofNat_word, Saturating.clamp_of_fits fits.1]
      simp only [deltaAfter, onTotal, count, Saturating.toInt_add, product,
        Saturating.clamp_of_fits fits.2.1]
      omega
  | finalTotalMultiplier factor =>
    simp only [numbers, List.forall_mem_cons] at fits
    rw [deltaAfter, onTotal, Saturating.toInt_deltaTimes fits.1 fits.2.1 fits.2.2.1]
    omega
  | finalScoreMultiplier factor =>
    have one : (1 : Int64) < factor ↔ 1 < factor.toInt := Int64.lt_iff_toInt_lt
    by_cases large : 1 < factor.toInt
    · simp only [numbers, if_pos large, List.forall_mem_cons] at fits
      rw [deltaAfter, onTotal, if_pos (one.2 large), if_pos large,
        Saturating.toInt_deltaTimes fits.1 fits.2.1 fits.2.2.1]
      omega
    · rw [deltaAfter, onTotal, if_neg (mt one.1 large), if_neg large]
  | _ => rfl

theorem toInt_foldl_deltaAfter (effects : List Effect)
    (exact : Exact held base.toInt (base.toInt + delta.toInt) effects) :
    base.toInt + (effects.foldl (deltaAfter held base) delta).toInt =
      effects.foldl (onTotal held) (base.toInt + delta.toInt) := by
  induction effects generalizing delta with
  | nil => rfl
  | cons effect effects ih =>
    have first := toInt_deltaAfter exact.1
    rw [List.foldl_cons, List.foldl_cons, ← first]
    exact ih (first ▸ exact.2)

end Effect

namespace Referee

variable {σ : Type} (ref : Referee) (host : Host σ) (ctx : Context) (state : σ)

/-- The pass is a walk of the running total: which rules fire is settled where it begins, and their
effects act on the total one after another. -/
structure ScoresInOrder (pass : Pass) (r : PassResult σ) : Prop where
  fired : r.report.fired = (ref.active.rules.filter fun rule =>
    rule.Fires host state ctx pass).map (·.name)
  total :
    let held := host.countOf state .player
    let effects := ref.acting ⟨host, pass, false⟩ ctx state
    Effect.Exact held ctx.total.toInt (ctx.total.toInt + ctx.delta.toInt) effects →
      ctx.total.toInt + r.report.delta.toInt =
        effects.foldl (Effect.onTotal held) (ctx.total.toInt + ctx.delta.toInt)

theorem scoresInOrder_evaluate (pass : Pass) :
    ref.ScoresInOrder host ctx state pass (ref.evaluate ⟨host, pass, false⟩ ctx state) where
  fired := ref.fired_evaluate_closed ctx state rfl
  total := by
    intro held effects exact
    rw [ref.delta_evaluate_closed ctx state rfl]
    exact Effect.toInt_foldl_deltaAfter effects exact

/-- The three passes that score are walks of the running total, for every host. The line of
information is shown when the last rule is done, so no rule can notice it. -/
theorem scores_passes :
    ref.ScoresInOrder host ctx state .turnStart (ref.openTurn host ctx state) ∧
      ref.ScoresInOrder host ctx state .settlement (ref.settleTurn host ctx state) ∧
      ref.ScoresInOrder host ctx state .roundEnd (ref.closeRound host ctx state) :=
  ⟨ref.scoresInOrder_evaluate host ctx state .turnStart,
    ref.scoresInOrder_evaluate host ctx state .settlement,
    ref.scoresInOrder_evaluate host ctx state .roundEnd⟩

/-- A doubled total counts what an earlier rule added and not what a later one does; a rule for
lost turns stays out. -/
theorem scores_passes_double :
    let rule : String → List Tag → Rule := fun name tags =>
      { name := name, tags := .timing .turnSettlement :: tags }
    let ref : Referee := { active := ⟨[
      rule "Bonus" [.effect { effect := .addScore 3 }],
      rule "Consolation" [.condition (.outcomeEquals .loss), .effect { effect := .addScore 7 }],
      rule "Double" [
        .effect { effect := .finalScoreMultiplier 2, filter := { outcome := some .win } },
        .effect { effect := .addScore 1 }]]⟩ }
    let ctx : Context :=
      { choice := some .rock, outcome := some .win, turn := 2, total := 10, delta := 5 }
    let r := ref.settleTurn Host.detached ctx ()
    r.report.fired = ["Bonus", "Double"] ∧ ctx.total.toInt + r.report.delta.toInt = 37 := by
  intro rule ref ctx r
  have scores := (ref.scores_passes Host.detached ctx ()).2.1
  exact ⟨scores.fired.trans (by decide), (scores.total (by decide)).trans (by decide)⟩

end Referee

/-! ## Passes without a score -/

/-- Effects of this kind move the score. -/
def EffectKind.scores : EffectKind → Bool
  | addScoreDelta => true
  | addScorePerHandCountOfChoice => true
  | finalScoreMultiplier => true
  | finalTotalMultiplier => true
  | _ => false

def Pass.scores (pass : Pass) : Bool := pass.effectKinds.any EffectKind.scores

theorem Effect.deltaAfter_of_unscored {effect : Effect} (unscored : effect.kind.scores = false)
    (held : Choice → Option UInt32) (total delta : Int64) :
    effect.deltaAfter held total delta = delta := by
  cases effect with
  | addScore amount => cases unscored
  | addScorePerCard choice perCard => cases unscored
  | finalScoreMultiplier factor => cases unscored
  | finalTotalMultiplier factor => cases unscored
  | _ => rfl

namespace Referee

variable {σ : Type} (ref : Referee) (ctx : Context) (state : σ)

theorem delta_evaluate_unscored (setting : PassSetting σ)
    (unscored : setting.pass.scores = false) :
    (ref.evaluate setting ctx state).report.delta = ctx.delta := by
  refine ref.delta_evaluate setting ctx state (R := fun delta => delta = ctx.delta) rfl ?_
  intro effect held total delta applies same
  have kind := List.any_eq_false.1 unscored effect.kind (List.contains_iff_mem.1 applies)
  exact (Effect.deltaAfter_of_unscored (Bool.eq_false_iff.2 kind) held total delta).trans same

theorem delta_settlePlan (host : Host σ) (again : Bool) (r : PassResult σ) :
    (settlePlan host again r).report.delta = r.report.delta := by
  obtain ⟨_, _, _, _, _, eq⟩ := settlePlan_eq host again r
  rw [eq]

theorem delta_prepareRound (host : Host σ) (again : Bool) :
    (ref.prepareRound host again ctx state).report.delta = ctx.delta := by
  refine (delta_settlePlan host again _).trans ?_
  cases again <;> exact delta_evaluate_unscored _ ctx state _ rfl

theorem delta_openRound (host : Host σ) (initial : Bool) :
    (ref.openRound host initial ctx state).report.delta = ctx.delta := by
  cases initial <;> exact delta_evaluate_unscored _ ctx state _ rfl

end Referee

end Roshambo
