import Roshambo.Proofs.Pass.Firing
import Roshambo.Proofs.Pass.Frame

/-!
# The effects that act in a pass

A pass with closed hands is a fold. Nothing that a condition or a filter looks at changes while its
rules act, so the rules that fire are those whose conditions hold where the pass begins, and every
part of its state comes of the effects of these rules, taken in order.
-/
namespace Roshambo

theorem Saturating.add_zero (a : Int64) : add a 0 = a := by
  apply Int64.toInt_inj.1
  rw [toInt_add, Int64.toInt_zero, Int.add_zero]
  exact clamp_eq_self a.minValue_le_toInt a.toInt_le

theorem PlanTally.add_zero (t : PlanTally) : t.add 0 = t := by
  rw [PlanTally.add, Saturating.add_zero]

/-! ## What one effect does -/

namespace Effect

/-- The delta of a pass after the effect. The player holds `held` of each choice, if that can be
counted, and `total` is the running total before the pass. -/
def deltaAfter (held : Choice → Option UInt32) (total delta : Int64) : Effect → Int64
  | addScore amount => Saturating.add delta amount
  | finalScoreMultiplier factor => if 1 < factor then deltaTimes total delta factor else delta
  | finalTotalMultiplier factor => deltaTimes total delta factor
  | addScorePerCard choice perCard =>
    match held choice with
    | some held => Saturating.add delta (Saturating.mul perCard (Int64.ofNat held.toNat))
    | none => delta
  | _ => delta

def tallyAfter (tally : PlanTally) : Effect → PlanTally
  | modifyPlannedTurns delta => tally.add delta
  | _ => tally

def drawAfter (pass : Pass) (draw : DrawOrder) : Effect → DrawOrder
  | revealNextOpponentCard => draw.frontOnce
  | forceOpponentDrawFromFront enabled =>
    if enabled && pass == .roundStart true then draw.keepFront else draw
  | _ => draw

end Effect

/-- The effect of a tag that acts: the pass applies its kind and its filter matches the turn. -/
def Tag.act? (pass : Pass) (ctx : Context) : Tag → Option Effect
  | .effect tagged =>
    if pass.applies tagged.effect && tagged.filter.matches ctx.outcome ctx.choice then
      some tagged.effect
    else none
  | _ => none

/-- The effects of a rule that act when it fires, in the order of its tags. -/
def Rule.acts (rule : Rule) (pass : Pass) (ctx : Context) : List Effect :=
  rule.tags.filterMap (Tag.act? pass ctx)

namespace PassSetting

variable {σ : Type} {setting : PassSetting σ}

/-- What an effect leaves, apart from the host and from what it has to say. -/
structure Performed (setting : PassSetting σ) (effect : Effect) (s s' : PassState σ) : Prop where
  context : s'.context = { s.context with
    delta := effect.deltaAfter (setting.host.countOf s.host .player) s.context.total s.context.delta
    info := s'.context.info }
  tally : s'.tally = effect.tallyAfter s.tally
  draw : s'.draw = effect.drawAfter setting.pass s.draw
  fired : s'.fired = s.fired

theorem performed_noteChange {effect : Effect} {s : PassState σ} (host : σ)
    (same : setting.Performed effect s s) (rule : String) (side : Side) (choice : Option Choice)
    (operation : String) (answer : Option UInt32) :
    setting.Performed effect s ({ s with host := host }.noteChange setting.pass rule side choice
      operation answer) := by
  obtain ⟨news, found, -, eq⟩ := PassState.noteChange_eq { s with host := host } setting.pass rule
    side choice operation answer
  rw [eq]
  exact ⟨same.context, same.tally, same.draw, same.fired⟩

theorem performed_perform (rule : String) (effect : Effect) (s : PassState σ) :
    setting.Performed effect s (setting.perform rule effect s) := by
  cases effect with
  | addScore _ => exact ⟨rfl, rfl, rfl, rfl⟩
  | finalTotalMultiplier _ => exact ⟨rfl, rfl, rfl, rfl⟩
  | showInfo text => cases text <;> exact ⟨rfl, rfl, rfl, rfl⟩
  | finalScoreMultiplier factor =>
    by_cases large : 1 < factor
    · constructor <;> simp [perform, Effect.deltaAfter, Effect.tallyAfter, Effect.drawAfter, large,
        PassState.multiply]
    · have small : setting.perform rule (.finalScoreMultiplier factor) s =
          if factor < 1 then s.addDiagnostic ⟨rule, some .effect, .tag (factorProblem factor)⟩
          else s := by
        simp [perform, large]
      rw [small]
      split <;> constructor <;>
        simp [Effect.deltaAfter, Effect.tallyAfter, Effect.drawAfter, large,
          PassState.addDiagnostic]
  | addScorePerCard choice perCard =>
    cases held : setting.host.countOf s.host .player choice <;> constructor <;>
      simp [perform, Effect.deltaAfter, Effect.tallyAfter, Effect.drawAfter, held,
        PassState.addScore, PassState.addDiagnostic]
  | revealOpponentFirstAndLast =>
    simp only [perform, revealFirstAndLast]
    split <;> exact ⟨rfl, rfl, rfl, rfl⟩
  | revealNextOpponentCard =>
    simp only [perform, revealNext]
    split <;> exact ⟨rfl, rfl, rfl, rfl⟩
  | modifyPlannedTurns delta =>
    by_cases none : delta = 0
    · subst none
      exact ⟨rfl, s.tally.add_zero.symm, rfl, rfl⟩
    · simp only [perform, if_neg none]
      exact ⟨rfl, rfl, rfl, rfl⟩
  | forceOpponentDrawFromFront enabled =>
    simp only [perform]
    split
    · rename_i initial
      exact ⟨rfl, rfl, (if_pos initial).symm, rfl⟩
    · rename_i later
      exact ⟨rfl, rfl, (if_neg later).symm, rfl⟩
  | replaceOpponentCards choice count =>
    have same : setting.Performed (.replaceOpponentCards choice count) s s := ⟨rfl, rfl, rfl, rfl⟩
    simp only [perform]
    split
    · exact performed_noteChange _ same _ _ _ _ _
    · exact same
  | addCards side choice count =>
    have same : setting.Performed (.addCards side choice count) s s := ⟨rfl, rfl, rfl, rfl⟩
    simp only [perform]
    split
    · exact performed_noteChange _ same _ _ _ _ _
    · exact same
  | addRandomCards side count =>
    have same : setting.Performed (.addRandomCards side count) s s := ⟨rfl, rfl, rfl, rfl⟩
    simp only [perform]
    split
    · exact performed_noteChange _ same _ _ _ _ _
    · exact same

theorem host_perform_closed (closed : setting.handsOpen = false) (rule : String) (effect : Effect)
    (s : PassState σ) : (setting.perform rule effect s).host = s.host := by
  rcases setting.perform_cases rule effect s with ⟨_, _, _, h⟩ | ⟨isOpen, _⟩ | ⟨_, h⟩ |
    ⟨_, _, _, _, _, h⟩
  · rw [h]
  · exact absurd (isOpen.symm.trans closed) (by decide)
  · rw [h]
  · rw [h]

/-- A tag either acts or has at most something to report. -/
theorem performTag_eq (setting : PassSetting σ) (rule : String) (tag : Tag) (s : PassState σ) :
    ∃ found, setting.performTag rule tag s =
      match tag.act? setting.pass s.context with
      | some effect => setting.perform rule effect s
      | none => { s with diagnostics := s.diagnostics ++ found } := by
  have silent : s = { s with diagnostics := s.diagnostics ++ [] } := by simp
  cases tag with
  | timing _ => exact ⟨[], silent⟩
  | condition _ => exact ⟨[], silent⟩
  | effect tagged =>
    refine ⟨[], ?_⟩
    simp only [performTag, Tag.act?]
    split
    · rfl
    · exact silent
  | invalid tag =>
    by_cases effect : tag.role = some .effect
    · exact ⟨[_], by simp only [performTag, if_pos effect, Tag.act?]; rfl⟩
    · exact ⟨[], by simpa only [performTag, if_neg effect, Tag.act?] using silent⟩

/-! ## Passes with closed hands -/

/-- Nothing that a condition or a filter looks at has changed since `start`. -/
structure Still (start s : PassState σ) : Prop where
  host : s.host = start.host
  context : s.context =
    { start.context with delta := s.context.delta, info := s.context.info }

namespace Still

variable {start s : PassState σ}

theorem refl (s : PassState σ) : Still s s := ⟨rfl, rfl⟩

theorem perform (h : Still start s) (closed : setting.handsOpen = false) (rule : String)
    (effect : Effect) : Still start (setting.perform rule effect s) := by
  refine ⟨(host_perform_closed closed rule effect s).trans h.host, ?_⟩
  rw [(performed_perform rule effect s).context, h.context]

theorem verdict_eq (h : Still start s) (host : Host σ) (rule : Rule) (pass : Pass) :
    rule.verdict host s.host s.context pass =
      rule.verdict host start.host start.context pass := by
  rw [h.host, h.context]
  exact verdict_withResults rule _ _

theorem act?_eq (h : Still start s) (tag : Tag) (pass : Pass) :
    tag.act? pass s.context = tag.act? pass start.context := by
  rw [h.context]
  rfl

end Still

/-- While nothing that rules look at changes, `view` of the state moves on with the effects that
act, each by `act`, and with nothing else. -/
structure Tracks {β : Type} (setting : PassSetting σ) (start : PassState σ)
    (view : PassState σ → β) (act : β → Effect → β) : Prop where
  perform : ∀ rule effect s, Still start s →
    view (setting.perform rule effect s) = act (view s) effect
  rest : ∀ s events fired diagnostics, view { s with
    events := events, fired := fired, diagnostics := diagnostics } = view s

section Fold

variable {β : Type} {start s : PassState σ} {view : PassState σ → β} {act : β → Effect → β}

theorem performTag_closed (closed : setting.handsOpen = false)
    (h : setting.Tracks start view act) (rule : String) (tag : Tag) (still : Still start s) :
    Still start (setting.performTag rule tag s) ∧
      (setting.performTag rule tag s).fired = s.fired ∧
      view (setting.performTag rule tag s) =
        (tag.act? setting.pass start.context).toList.foldl act (view s) := by
  obtain ⟨found, eq⟩ := setting.performTag_eq rule tag s
  rw [still.act?_eq] at eq
  rw [eq]
  cases tag.act? setting.pass start.context with
  | none => exact ⟨⟨still.host, still.context⟩, rfl, h.rest s s.events s.fired _⟩
  | some effect =>
    exact ⟨still.perform closed rule effect, (performed_perform rule effect s).fired,
      h.perform rule effect s still⟩

/-- The tags of a rule that fired act in their order, and do not stir what rules look at. -/
theorem performTags_closed (closed : setting.handsOpen = false)
    (h : setting.Tracks start view act) (rule : String) (tags : List Tag)
    (still : Still start s) :
    let left := tags.foldl (fun s tag => setting.performTag rule tag s) s
    Still start left ∧ left.fired = s.fired ∧
      view left = (tags.filterMap (Tag.act? setting.pass start.context)).foldl act (view s) := by
  induction tags generalizing s with
  | nil => exact ⟨still, rfl, rfl⟩
  | cons tag tags ih =>
    obtain ⟨still₁, fired₁, seen₁⟩ := performTag_closed closed h rule tag still
    obtain ⟨still₂, fired₂, seen₂⟩ := ih still₁
    refine ⟨still₂, fired₂.trans fired₁, seen₂.trans ?_⟩
    rw [seen₁, List.filterMap_cons]
    cases tag.act? setting.pass start.context <;> rfl

theorem applyRule_closed (closed : setting.handsOpen = false)
    (h : setting.Tracks start view act) (rule : Rule) (still : Still start s) :
    let fires := rule.Fires setting.host start.host start.context setting.pass
    Still start (setting.applyRule rule s) ∧
      (setting.applyRule rule s).fired = s.fired ++ (if fires then [rule.name] else []) ∧
      view (setting.applyRule rule s) =
        (if fires then rule.acts setting.pass start.context else []).foldl act (view s) := by
  have same := still.verdict_eq setting.host rule setting.pass
  intro fires
  by_cases fire : fires
  · have verdict := same.trans (rule.verdict_eq_fires_iff.2 fire)
    rw [if_pos fire, if_pos fire]
    simp only [applyRule, verdict]
    obtain ⟨still', fired, seen⟩ := performTags_closed closed h rule.name rule.tags
      (s := { s with fired := s.fired ++ [rule.name] }.emit
        (.ruleFired setting.pass.phase rule.name)) ⟨still.host, still.context⟩
    refine ⟨still', fired, seen.trans ?_⟩
    rw [PassState.emit, h.rest s _ _ s.diagnostics]
    rfl
  · have verdict := mt (fun eq => rule.verdict_eq_fires_iff.1 (same.symm.trans eq)) fire
    rw [if_neg fire, if_neg fire, List.append_nil]
    rw [applyRule_of_not_fires verdict]
    exact ⟨⟨still.host, still.context⟩, rfl, h.rest s s.events s.fired _⟩

/-- With closed hands the rules that fire are fixed from the start, and their effects act one after
another. -/
theorem applyRules_closed (closed : setting.handsOpen = false)
    (h : setting.Tracks start view act) (rules : List Rule) (still : Still start s) :
    let firing := rules.filter fun rule =>
      rule.Fires setting.host start.host start.context setting.pass
    (setting.applyRules rules s).fired = s.fired ++ firing.map (·.name) ∧
      view (setting.applyRules rules s) =
        (firing.flatMap fun rule => rule.acts setting.pass start.context).foldl act (view s) := by
  -- `Still` hands the surroundings of the start on from rule to rule.
  induction rules generalizing s with
  | nil => exact ⟨(List.append_nil _).symm, rfl⟩
  | cons rule rules ih =>
    obtain ⟨still', fired, seen⟩ := applyRule_closed closed h rule still
    obtain ⟨fired', seen'⟩ := ih still'
    rw [fired, List.append_assoc] at fired'
    rw [seen, ← List.foldl_append] at seen'
    refine ⟨fired'.trans ?_, seen'.trans ?_⟩ <;> rw [List.filter_cons] <;>
      by_cases fires : rule.Fires setting.host start.host start.context setting.pass <;>
      simp [fires]

end Fold

/-! ## The parts of the state that effects move on -/

section

variable {start : PassState σ}

theorem tracks_delta : setting.Tracks start (·.context.delta)
    (Effect.deltaAfter (setting.host.countOf start.host .player) start.context.total) where
  perform rule effect s still := by
    have total : s.context.total = start.context.total := by rw [still.context]
    rw [(performed_perform rule effect s).context, still.host, total]
  rest _ _ _ _ := rfl

theorem tracks_tally : setting.Tracks start (·.tally) Effect.tallyAfter where
  perform rule effect s _ := (performed_perform rule effect s).tally
  rest _ _ _ _ := rfl

theorem tracks_draw : setting.Tracks start (·.draw) (Effect.drawAfter setting.pass) where
  perform rule effect s _ := (performed_perform rule effect s).draw
  rest _ _ _ _ := rfl

end

@[simp] theorem showLine_context (s : PassState σ) :
    (setting.showLine s).context = s.context := by
  unfold showLine
  split <;> rfl

@[simp] theorem showLine_tally (s : PassState σ) : (setting.showLine s).tally = s.tally := by
  unfold showLine
  split <;> rfl

@[simp] theorem showLine_fired (s : PassState σ) : (setting.showLine s).fired = s.fired := by
  unfold showLine
  split <;> rfl

end PassSetting

/-! ## Whole passes -/

namespace Referee

variable {σ : Type} (ref : Referee) (setting : PassSetting σ) (ctx : Context) (state : σ)

/-- What holds of the tally and is kept by the effects that the pass applies holds after it. -/
theorem tally_evaluate {R : PlanTally → Prop} (base : R ref.tally)
    (step : ∀ effect tally, setting.pass.applies effect = true → R tally →
      R (effect.tallyAfter tally)) :
    R (ref.evaluate setting ctx state).referee.tally := by
  have carries : setting.Carries (fun s => R s.tally) (fun s => R s.tally) :=
    { fire := fun _ _ hs => hs
      report := fun _ _ hs => hs
      rest := fun _ _ hs => hs
      done := fun _ hs => hs
      perform := by
        intro rule effect s applies hs
        rw [(PassSetting.performed_perform rule effect s).tally]
        exact step effect _ applies hs }
  have rules := carries.applyRules ref.active.rules (s := ref.passStart ctx state) base
  rwa [← setting.showLine_tally] at rules

/-- What holds of the delta and is kept by the effects that the pass applies holds of the report. -/
theorem delta_evaluate {R : Int64 → Prop} (base : R ctx.delta)
    (step : ∀ effect held total delta, setting.pass.applies effect = true → R delta →
      R (effect.deltaAfter held total delta)) :
    R (ref.evaluate setting ctx state).report.delta := by
  have carries : setting.Carries (fun s => R s.context.delta) (fun s => R s.context.delta) :=
    { fire := fun _ _ hs => hs
      report := fun _ _ hs => hs
      rest := fun _ _ hs => hs
      done := fun _ hs => hs
      perform := by
        intro rule effect s applies hs
        rw [(PassSetting.performed_perform rule effect s).context]
        exact step effect _ _ _ applies hs }
  have rules := carries.applyRules ref.active.rules (s := ref.passStart ctx state) base
  rwa [← setting.showLine_context] at rules

theorem tally_evaluate_of_unplanned
    (unplanned : .modifyPlannedTurnsDelta ∉ setting.pass.effectKinds) :
    (ref.evaluate setting ctx state).referee.tally = ref.tally := by
  refine ref.tally_evaluate setting ctx state (R := fun tally => tally = ref.tally) rfl ?_
  rintro effect tally applies rfl
  cases effect with
  | modifyPlannedTurns delta => exact absurd (List.contains_iff_mem.1 applies) unplanned
  | _ => rfl

/-- The active rules that fire where the pass begins, in their order. -/
def firing : List Rule :=
  ref.active.rules.filter fun rule => rule.Fires setting.host state ctx setting.pass

/-- The effects that act if just these rules fire, in the order of the rules and then of their
tags. -/
def acting : List Effect :=
  (ref.firing setting ctx state).flatMap fun rule => rule.acts setting.pass ctx

variable {setting}

theorem fired_evaluate_closed (closed : setting.handsOpen = false) :
    (ref.evaluate setting ctx state).report.fired =
      (ref.firing setting ctx state).map (·.name) := by
  have folded := PassSetting.applyRules_closed closed PassSetting.tracks_draw ref.active.rules
    (PassSetting.Still.refl (ref.passStart ctx state))
  exact (setting.showLine_fired _).trans (folded.1.trans (List.nil_append _))

theorem delta_evaluate_closed (closed : setting.handsOpen = false) :
    (ref.evaluate setting ctx state).report.delta = (ref.acting setting ctx state).foldl
      (Effect.deltaAfter (setting.host.countOf state .player) ctx.total) ctx.delta := by
  have folded := PassSetting.applyRules_closed closed PassSetting.tracks_delta ref.active.rules
    (PassSetting.Still.refl (ref.passStart ctx state))
  exact (congrArg Context.delta (setting.showLine_context _)).trans folded.2

theorem tally_evaluate_closed (closed : setting.handsOpen = false) :
    (ref.evaluate setting ctx state).referee.tally =
      (ref.acting setting ctx state).foldl Effect.tallyAfter ref.tally := by
  have folded := PassSetting.applyRules_closed closed PassSetting.tracks_tally ref.active.rules
    (PassSetting.Still.refl (ref.passStart ctx state))
  exact (setting.showLine_tally _).trans folded.2

theorem draw_evaluate_closed (closed : setting.handsOpen = false) :
    (ref.evaluate setting ctx state).referee.draw =
      (ref.acting setting ctx state).foldl (Effect.drawAfter setting.pass) ref.draw := by
  have folded := PassSetting.applyRules_closed closed PassSetting.tracks_draw ref.active.rules
    (PassSetting.Still.refl (ref.passStart ctx state))
  exact (setting.showLine_draw _).trans folded.2

end Referee

end Roshambo
