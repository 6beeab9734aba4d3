import Roshambo.Authoring.Typed
import Roshambo.Proofs.Pass.Inert
import Roshambo.Proofs.Round.Resting

/-!
# Malformed tags

An authored tag that cannot be typed harms nothing but its own rule. If it was meant as a condition,
or if nobody can say what it was meant as, the rule never fires and is as good as absent; if it was
meant as a timing or an effect, it is itself as good as absent.
-/
namespace Roshambo

namespace AuthoredTag

variable {raw : AuthoredTag}

/-- The tag cannot be typed. -/
def Malformed (raw : AuthoredTag) : Prop := ∃ bad, raw.typed = .invalid bad

/-- What a role makes of a tag is a tag of that role. -/
theorem ne_invalid_of_ofRole {role : TagRole} {tag : Tag} (typed : raw.ofRole role = .ok tag)
    (bad : InvalidTag) : tag ≠ .invalid bad := by
  rintro rfl
  cases role with
  | timing =>
    simp only [ofRole, toTiming] at typed
    cases kind : kindOf raw.timingType Phase.ofKeyword? <;> rw [kind] at typed <;> cases typed
  | condition =>
    simp only [ofRole, toCondition] at typed
    cases kind : kindOf raw.conditionType ConditionKind.ofKeyword? with
    | error _ => rw [kind] at typed; cases typed
    | ok kind' =>
      rw [kind] at typed
      cases condition : raw.conditionOf kind' <;>
        simp [bind, Except.bind, condition, pure, Except.pure] at typed
  | effect =>
    simp only [ofRole, toEffect] at typed
    cases kind : kindOf raw.effectType EffectKind.ofKeyword? with
    | error _ => rw [kind] at typed; cases typed
    | ok kind' =>
      rw [kind] at typed
      cases effect : raw.effectOf kind' <;> cases filter : raw.filterOf kind' <;>
        simp [bind, Except.bind, effect, filter, pure, Except.pure] at typed

/-- In place of a malformed tag stands an invalid one of its role, if it has one. -/
theorem Malformed.typed_eq (h : raw.Malformed) :
    ∃ problem, raw.typed = .invalid ⟨raw.role.toOption, problem⟩ := by
  obtain ⟨bad, invalid⟩ := h
  unfold typed at invalid ⊢
  split at invalid
  · rename_i problem unresolved
    exact ⟨problem, by rw [unresolved]; rfl⟩
  · rename_i role resolved
    simp only [resolved]
    split at invalid
    · rename_i tag typed
      exact absurd invalid (ne_invalid_of_ofRole typed bad)
    · rename_i problem _
      exact ⟨problem, rfl⟩

end AuthoredTag

namespace AuthoredRule

variable {raw : AuthoredRule} {tag : AuthoredTag}

theorem tags_typed (raw : AuthoredRule) : raw.typed.1.tags = raw.tags.map AuthoredTag.typed := rfl

/-- A rule with a malformed tag that may have been a condition is as good as absent. -/
theorem actAlike_nil (mem : tag ∈ raw.tags) (malformed : tag.Malformed)
    (condition : tag.role = .ok .condition ∨ ∀ role, tag.role ≠ .ok role) :
    ActAlike [raw.typed.1] [] := by
  obtain ⟨problem, typed⟩ := malformed.typed_eq
  have written : Tag.invalid ⟨tag.role.toOption, problem⟩ ∈ raw.typed.1.tags := by
    rw [tags_typed, ← typed]
    exact List.mem_map_of_mem mem
  have blocks : InvalidTag.mayBeCondition ⟨tag.role.toOption, problem⟩ = true := by
    rcases condition with resolved | unresolved
    · rw [resolved]
      rfl
    · cases role : tag.role with
      | error _ => rfl
      | ok role' => exact absurd role (unresolved role')
  exact actAlike_of_never_fires fun _ host state ctx pass =>
    Rule.verdict_ne_fires_of_mem written blocks host state ctx pass

/-- A malformed timing or effect is itself as good as absent. -/
theorem actAlike_eraseIdx {place : Nat} (found : raw.tags[place]? = some tag)
    (malformed : tag.Malformed) (known : tag.role = .ok .effect ∨ tag.role = .ok .timing) :
    ActAlike [raw.typed.1]
      [{ raw.typed.1 with tags := raw.typed.1.tags.eraseIdx place }] := by
  obtain ⟨problem, typed⟩ := malformed.typed_eq
  have inside : place < raw.typed.1.tags.length := by
    rw [tags_typed, List.length_map]
    exact (List.getElem?_eq_some_iff.1 found).1
  have there : raw.typed.1.tags[place] = .invalid ⟨tag.role.toOption, problem⟩ := by
    rw [← typed, ← Option.some_inj, ← List.getElem?_eq_getElem inside, tags_typed,
      List.getElem?_map, found]
    rfl
  have around : raw.typed.1.tags = raw.typed.1.tags.take place ++
      .invalid ⟨tag.role.toOption, problem⟩ :: raw.typed.1.tags.drop (place + 1) := by
    rw [← there, ← List.drop_eq_getElem_cons inside, List.take_append_drop]
  have skipped : InvalidTag.mayBeCondition ⟨tag.role.toOption, problem⟩ = false := by
    rcases known with effect | timing
    · rw [effect]
      rfl
    · rw [timing]
      rfl
  rw [List.eraseIdx_eq_take_drop_succ]
  exact actAlike_of_invalid around skipped

end AuthoredRule

namespace Referee

/-- A malformed tag of an authored rule, whatever else the rule says, whichever rules are active
beside it and whatever pass is run: it takes the rule out of the pass if it may have been a
condition, and only itself otherwise. -/
theorem enter_of_malformed {σ : Type} (raw : AuthoredRule) (place : Nat) (tag : AuthoredTag)
    (found : raw.tags[place]? = some tag) (malformed : tag.Malformed) (ref : Referee)
    (before after : List Rule) (entry : Entry) (host : Host σ) (ctx : Context) (state : σ) :
    let rule := raw.typed.1
    let result rules := enter { ref with active := ⟨rules⟩ } entry host ctx state
    (tag.role = .ok .condition ∨ (∀ role, tag.role ≠ .ok role) →
      (result (before ++ rule :: after)).Agrees (result (before ++ after)) ∧
        (∃ firing : List Rule, firing.Sublist (before ++ after) ∧
          (result (before ++ rule :: after)).report.fired = firing.map (·.name)) ∧
        (((before ++ rule :: after).map (·.name)).Nodup →
          rule.name ∉ (result (before ++ rule :: after)).report.fired)) ∧
    (tag.role = .ok .effect ∨ tag.role = .ok .timing →
      (result (before ++ rule :: after)).Agrees
        (result (before ++ { rule with tags := rule.tags.eraseIdx place } :: after))) := by
  intro rule result
  constructor
  · intro condition
    have agrees : (result (before ++ rule :: after)).Agrees (result (before ++ after)) := by
      have alike := AuthoredRule.actAlike_nil (List.mem_of_getElem? found) malformed condition
      simpa using agrees_enter alike before after ref entry host ctx state
    obtain ⟨firing, sub, fired⟩ : ∃ firing : List Rule, firing.Sublist (before ++ after) ∧
        (result (before ++ rule :: after)).report.fired = firing.map (·.name) := by
      obtain ⟨firing, sub, eq⟩ :=
        fired_enter { ref with active := ⟨before ++ after⟩ } entry host ctx state
      obtain ⟨_, _, same⟩ := agrees
      refine ⟨firing, sub, ?_⟩
      rw [← eq]
      show _ = (result (before ++ after)).report.fired
      rw [same]
    refine ⟨agrees, ⟨firing, sub, fired⟩, fun distinct mem => ?_⟩
    rw [fired] at mem
    have elsewhere : rule.name ∈ (before ++ after).map (·.name) := (sub.map (·.name)).subset mem
    have apart := (List.perm_middle.map Rule.name).nodup_iff.1 distinct
    exact (List.nodup_cons.1 apart).1 elsewhere
  · intro known
    have alike := AuthoredRule.actAlike_eraseIdx found malformed known
    simpa using agrees_enter alike before after ref entry host ctx state

/-- An effect that nobody knows and a condition without a kind, in one rule. -/
theorem enter_of_malformed_teleport :
    let teleport : AuthoredTag := { category := some "Effect", effectType := some "Teleport" }
    let blank : AuthoredTag := { category := some "Condition", conditionType := some "None" }
    let raw : AuthoredRule := { name := "Broken", tags :=
      [{ timingType := some "TurnSettlement" }, teleport, blank] }
    let result rules := enter { active := ⟨rules⟩ } .settleTurn Host.detached (.atTurn 1 5) ()
    (teleport.Malformed ∧ teleport.role = .ok .effect ∧ (result [raw.typed.1]).Agrees
      (result [{ raw.typed.1 with tags := raw.typed.1.tags.eraseIdx 1 }])) ∧
    blank.Malformed ∧ blank.role = .ok .condition ∧ (result [raw.typed.1]).Agrees (result []) ∧
      raw.typed.1.name ∉ (result [raw.typed.1]).report.fired := by
  intro teleport blank raw result
  have unknown : teleport.Malformed :=
    ⟨⟨some .effect, .unknownKind "Teleport"⟩, by decide +kernel⟩
  have kindless : blank.Malformed := ⟨⟨some .condition, .missingKind⟩, by decide +kernel⟩
  have effect : teleport.role = .ok .effect := by rfl
  have condition : blank.role = .ok .condition := by rfl
  have lost := (enter_of_malformed raw 2 blank rfl kindless {} [] [] .settleTurn Host.detached
    (.atTurn 1 5) ()).1 (.inl condition)
  have erased := (enter_of_malformed raw 1 teleport rfl unknown {} [] [] .settleTurn Host.detached
    (.atTurn 1 5) ()).2 (.inl effect)
  exact ⟨⟨unknown, effect, erased⟩, kindless, condition, lost.1,
    lost.2.2 (by simp)⟩

end Referee

end Roshambo
