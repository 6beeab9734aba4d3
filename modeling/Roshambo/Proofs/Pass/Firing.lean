import Roshambo.Pass.Verdict

/-!
# When a rule fires

A rule fires when its timing names the phase, none of its tags stands in the way, and one of its
turn-index tags hits, if it has any that the pass answers. `verdict_eq_fires_iff` says that this is
what a verdict comes to, so that later results need not follow the walk over the tags.
-/
namespace Roshambo

/-- The turn that the tag is an alternative for, in a pass that answers turn-index tags. -/
def Tag.turnIndex? (pass : Pass) : Tag → Option UInt32
  | .condition (.turnIndexEquals turn) =>
    if pass.evaluates (.turnIndexEquals turn) then some turn else none
  | _ => none

def Rule.turnIndices (rule : Rule) (pass : Pass) : List UInt32 :=
  rule.tags.filterMap (Tag.turnIndex? pass)

section

variable {σ : Type} (host : Host σ) (state : σ) (ctx : Context) (pass : Pass)

/-- The tag does not keep its rule from firing: it is not a condition that fails, and it was
understood well enough not to be one. Turn-index tags are looked at together. -/
def Tag.Allows : Tag → Prop
  | .condition (.turnIndexEquals _) => True
  | .condition c => pass.evaluates c = true → c.holds? host state ctx = some true
  | .invalid tag => tag.role = some .timing ∨ tag.role = some .effect
  | _ => True

structure Rule.Fires (rule : Rule) : Prop where
  timed : Tag.timing pass.phase ∈ rule.tags
  allowed : ∀ tag ∈ rule.tags, tag.Allows host state ctx pass
  turn : rule.turnIndices pass = [] ∨ ctx.turn ∈ rule.turnIndices pass

variable {host state ctx pass}

theorem Tag.allows_condition {c : Condition} (other : ∀ turn, c ≠ .turnIndexEquals turn) :
    (Tag.condition c).Allows host state ctx pass ↔
      (pass.evaluates c = true → c.holds? host state ctx = some true) := by
  cases c with
  | turnIndexEquals turn => exact absurd rfl (other turn)
  | _ => exact Iff.rfl

theorem Tag.allows_invalid (tag : InvalidTag) :
    (Tag.invalid tag).Allows host state ctx pass ↔ tag.mayBeCondition = false := by
  rcases tag with ⟨_ | role, problem⟩
  · simp [Tag.Allows, InvalidTag.mayBeCondition]
  · cases role <;> simp [Tag.Allows, InvalidTag.mayBeCondition]

/-! ## The walk over the tags -/

theorem verdictOfTags_condition (rule : String) (alternatives : Option Bool) {c : Condition}
    (other : ∀ turn, c ≠ .turnIndexEquals turn) (tags : List Tag) :
    verdictOfTags host state ctx pass rule alternatives (.condition c :: tags) = .fires ↔
      (pass.evaluates c = true → c.holds? host state ctx = some true) ∧
        verdictOfTags host state ctx pass rule alternatives tags = .fires := by
  rw [verdictOfTags]
  · cases pass.evaluates c with
    | false => simp
    | true => rcases c.holds? host state ctx with _ | _ | _ <;> simp
  · exact other

/-- The alternatives met before the walk count as one more turn index. -/
theorem verdictOfTags_eq_fires_iff (rule : String) (alternatives : Option Bool) (tags : List Tag) :
    verdictOfTags host state ctx pass rule alternatives tags = .fires ↔
      (∀ tag ∈ tags, tag.Allows host state ctx pass) ∧
        ((alternatives = none ∧ tags.filterMap (Tag.turnIndex? pass) = []) ∨
          alternatives = some true ∨ ctx.turn ∈ tags.filterMap (Tag.turnIndex? pass)) := by
  induction tags generalizing alternatives with
  | nil => rcases alternatives with _ | _ | _ <;> simp [verdictOfTags]
  | cons tag tags ih =>
    rw [List.forall_mem_cons]
    cases tag with
    | timing phase => simp [verdictOfTags, ih, Tag.Allows, Tag.turnIndex?]
    | effect tagged => simp [verdictOfTags, ih, Tag.Allows, Tag.turnIndex?]
    | invalid tag =>
      rw [verdictOfTags, Tag.allows_invalid]
      cases tag.mayBeCondition <;> simp [ih, Tag.turnIndex?]
    | condition c =>
      by_cases index : ∃ turn, c = .turnIndexEquals turn
      · obtain ⟨turn, rfl⟩ := index
        cases evaluates : pass.evaluates (.turnIndexEquals turn) with
        | false => simp [verdictOfTags, ih, Tag.Allows, Tag.turnIndex?, evaluates]
        | true =>
          rcases alternatives with _ | _ | _ <;>
            simp [verdictOfTags, ih, Tag.Allows, Tag.turnIndex?, evaluates]
      · have other : ∀ turn, c ≠ .turnIndexEquals turn := fun turn eq => index ⟨turn, eq⟩
        have none : Tag.turnIndex? pass (.condition c) = none := by
          cases c with
          | turnIndexEquals turn => exact absurd rfl (other turn)
          | _ => rfl
        rw [verdictOfTags_condition rule alternatives other, Tag.allows_condition other, ih,
          List.filterMap_cons_none none, and_assoc]

theorem Rule.verdict_eq_fires_iff (rule : Rule) :
    rule.verdict host state ctx pass = .fires ↔ rule.Fires host state ctx pass := by
  unfold Rule.verdict
  split
  · rename_i timed
    rw [verdictOfTags_eq_fires_iff]
    constructor
    · rintro ⟨allowed, turn⟩
      refine ⟨(rule.firesIn_iff _).1 timed, allowed, ?_⟩
      simpa [Rule.turnIndices] using turn
    · rintro ⟨_, allowed, turn⟩
      refine ⟨allowed, ?_⟩
      simpa [Rule.turnIndices] using turn
  · rename_i untimed
    constructor
    · intro rests
      cases rests
    · intro fires
      exact absurd ((rule.firesIn_iff _).2 fires.timed) untimed

instance (rule : Rule) : Decidable (rule.Fires host state ctx pass) :=
  decidable_of_iff _ rule.verdict_eq_fires_iff

/-! ## What a verdict looks at -/

/-- A verdict looks at the turn and at what the conditions come to, and at nothing else. -/
theorem verdict_congr {τ : Type} {host' : Host τ} {state' : τ} {ctx' : Context}
    (turn : ctx'.turn = ctx.turn)
    (holds : ∀ c : Condition, c.holds? host' state' ctx' = c.holds? host state ctx) (rule : Rule) :
    rule.verdict host' state' ctx' pass = rule.verdict host state ctx pass := by
  have walk : ∀ alternatives tags,
      verdictOfTags host' state' ctx' pass rule.name alternatives tags =
        verdictOfTags host state ctx pass rule.name alternatives tags := by
    intro alternatives tags
    induction tags generalizing alternatives with
    | nil => rfl
    | cons tag tags ih =>
      cases tag with
      | condition c => cases c <;> simp only [verdictOfTags, turn, holds, ih]
      | _ => simp only [verdictOfTags, ih]
  simp only [Rule.verdict, walk]

/-- The delta and the line of a context are results, and no condition looks at them. -/
theorem verdict_withResults (rule : Rule) (delta : Int64) (info : Option String) :
    rule.verdict host state { ctx with delta := delta, info := info } pass =
      rule.verdict host state ctx pass := by
  refine verdict_congr ?_ (fun c => ?_) rule
  · rfl
  · cases c <;> rfl

end

end Roshambo
