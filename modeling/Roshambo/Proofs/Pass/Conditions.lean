import Roshambo.Proofs.Pass.Firing

/-!
# What the conditions of a rule say

Conditions are answered by walks over tags and histories. Here they are said in terms of the turns
themselves, counted by their places, and a list of tags lets its rule fire when each tag for itself
allows it and the turn-index tags together do. The order of the tags does not matter to that, though
it decides which tag is blamed when the rule rests.
-/
namespace Roshambo

/-! ## Completed turns -/

namespace Context

/-- The completed turn at place `i`, the first being at place zero, went like this. -/
def Went (ctx : Context) (i : Nat) (choice : Choice) (outcome : Outcome) : Prop :=
  ctx.played[i]? = some choice ∧ ctx.outcomes[i]? = some outcome

instance (ctx : Context) (i : Nat) (choice : Choice) (outcome : Outcome) :
    Decidable (ctx.Went i choice outcome) :=
  inferInstanceAs (Decidable (_ ∧ _))

theorem getElem?_turns {ctx : Context} {i : Nat} {choice : Choice} {outcome : Outcome} :
    ctx.turns[i]? = some (choice, outcome) ↔ ctx.Went i choice outcome :=
  List.getElem?_zip_eq_some

/-- A turn went like this at some place just when it is among the completed turns. -/
theorem mem_turns {ctx : Context} {choice : Choice} {outcome : Outcome} :
    (choice, outcome) ∈ ctx.turns ↔ ∃ i, ctx.Went i choice outcome := by
  simp only [List.mem_iff_getElem?, getElem?_turns]

end Context

/-- Pairs are counted by their places. -/
theorem count_zip {α β : Type} [DecidableEq α] [DecidableEq β] (a : α) (b : β) (xs : List α)
    (ys : List β) : (xs.zip ys).count (a, b) =
      (List.range xs.length).countP fun i => xs[i]? = some a ∧ ys[i]? = some b := by
  induction xs generalizing ys with
  | nil => rfl
  | cons x xs ih =>
    cases ys with
    | nil => simp
    | cons y ys =>
      rw [List.zip_cons_cons, List.count_cons, ih, List.length_cons, List.range_succ_eq_map,
        List.countP_cons, List.countP_map]
      simp [Function.comp_def]

/-- Everything from place `k` on is `a`. -/
theorem forall_mem_drop_iff {α : Type} (a : α) (xs : List α) (k : Nat) :
    (∀ x ∈ xs.drop k, x = a) ↔ ∀ i, k ≤ i → i < xs.length → xs[i]? = some a := by
  constructor
  · intro all i past within
    refine (List.getElem?_eq_getElem within).trans (congrArg some (all _ ?_))
    exact List.mem_drop_iff_getElem.2 ⟨i - k, by omega, by congr 1; omega⟩
  · intro all x mem
    obtain ⟨i, within, rfl⟩ := List.mem_drop_iff_getElem.1 mem
    have here := all (k + i) (by omega) (by omega)
    rw [List.getElem?_eq_getElem (by omega)] at here
    exact Option.some.inj here

/-! ## Conditions -/

namespace Condition

section

variable {σ : Type} (host : Host σ) (state : σ) (ctx : Context)

/-- What a condition says. One that asks for cards is not satisfied where they cannot be counted. -/
def Satisfied : Condition → Prop
  | outcomeEquals outcome => ctx.outcome = some outcome
  | playerChoiceEquals choice => ctx.choice = some choice
  | playedAtLeast choice count => count.toNat ≤ ctx.played.count choice
  | streak outcome choice count =>
    let last := max 1 count.toNat
    ctx.played.length = ctx.outcomes.length ∧ last ≤ ctx.played.length ∧
      ∀ i, ctx.played.length - last ≤ i → i < ctx.played.length → ctx.Went i choice outcome
  | isLastTurn expected => ctx.isLastTurn = expected
  | playerHasMore choice =>
    ∃ held against, host.countOf state .player choice = some held ∧
      host.countOf state .opponent choice = some against ∧ against < held
  | turnIndexEquals turn => ctx.turn = turn
  | rerollCountEquals count => ctx.rerolls = count
  | playerHolds choice count => ∃ held, host.countOf state .player choice = some held ∧ count ≤ held
  | playedOnTurn choice turn => 1 ≤ turn.toNat ∧ ctx.played[turn.toNat - 1]? = some choice
  | winsAtLeast choice count =>
    count.toNat ≤ (List.range ctx.played.length).countP fun i => ctx.Went i choice .win
  | winsOnlyWith choice =>
    (∃ i other, ctx.Went i other .win) ∧ ∀ i other, ctx.Went i other .win → other = choice

end

variable {σ : Type} {host : Host σ} {state : σ} {ctx : Context}

theorem holds?_streak_iff (outcome : Outcome) (choice : Choice) (count : UInt32) :
    (streak outcome choice count).holds? host state ctx = some true ↔
      (streak outcome choice count).Satisfied host state ctx := by
  have turns : ctx.played.length = ctx.outcomes.length →
      ctx.turns.length = ctx.played.length := by
    intro same
    rw [Context.turns, List.length_zip, ← same, Nat.min_self]
  simp only [holds?, Context.lastTurns?, Satisfied, Nat.max_comm count.toNat]
  by_cases long : ctx.played.length = ctx.outcomes.length ∧
      max 1 count.toNat ≤ ctx.played.length
  · rw [if_pos long]
    have walk := forall_mem_drop_iff (choice, outcome) ctx.turns
      (ctx.played.length - max 1 count.toNat)
    rw [turns long.1] at walk
    simp only [Context.getElem?_turns] at walk
    simp only [Option.some.injEq, List.all_eq_true, beq_iff_eq, walk]
    exact ⟨fun all => ⟨long.1, long.2, all⟩, fun h => h.2.2⟩
  · rw [if_neg long]
    simp only [Option.some.injEq, Bool.false_eq_true, false_iff]
    exact fun satisfied => long ⟨satisfied.1, satisfied.2.1⟩

theorem holds?_winsOnlyWith_iff (choice : Choice) :
    (winsOnlyWith choice).holds? host state ctx = some true ↔
      (winsOnlyWith choice).Satisfied host state ctx := by
  have wins : ∀ turn, turn ∈ ctx.turns.filter (·.2 == .win) ↔
      turn.2 = .win ∧ ∃ i, ctx.Went i turn.1 turn.2 := by
    intro turn
    rw [List.mem_filter, beq_iff_eq, and_comm, ← Context.mem_turns]
  have won : (ctx.turns.filter (·.2 == .win)).isEmpty = false ↔
      ∃ i other, ctx.Went i other .win := by
    rw [List.isEmpty_eq_false_iff_exists_mem]
    constructor
    · rintro ⟨turn, mem⟩
      obtain ⟨win, i, went⟩ := (wins turn).1 mem
      exact ⟨i, turn.1, win ▸ went⟩
    · rintro ⟨i, other, went⟩
      exact ⟨(other, .win), (wins _).2 ⟨rfl, i, went⟩⟩
  have only : (ctx.turns.filter (·.2 == .win)).all (·.1 == choice) = true ↔
      ∀ i other, ctx.Went i other .win → other = choice := by
    rw [List.all_eq_true]
    constructor
    · intro all i other went
      exact beq_iff_eq.1 (all (other, .win) ((wins _).2 ⟨rfl, i, went⟩))
    · intro all turn mem
      obtain ⟨win, i, went⟩ := (wins turn).1 mem
      exact beq_iff_eq.2 (all i turn.1 (win ▸ went))
  simp only [holds?, Satisfied, Option.some.injEq, Bool.and_eq_true, Bool.not_eq_true', won, only]

/-- The answer to a condition is what it says. -/
theorem holds?_iff_satisfied (c : Condition) :
    c.holds? host state ctx = some true ↔ c.Satisfied host state ctx := by
  cases c with
  | streak outcome choice count => exact holds?_streak_iff outcome choice count
  | winsOnlyWith choice => exact holds?_winsOnlyWith_iff choice
  | winsAtLeast choice count =>
    simp only [holds?, Satisfied, Context.turns, count_zip, Option.some.injEq, decide_eq_true_eq]
    rfl
  | playerHasMore choice =>
    simp only [holds?, Satisfied]
    cases host.countOf state .player choice <;> cases host.countOf state .opponent choice <;> simp
  | playerHolds choice count =>
    simp only [holds?, Satisfied]
    cases host.countOf state .player choice <;> simp
  | playedOnTurn choice turn =>
    have counted : turn ≠ 0 ↔ 1 ≤ turn.toNat := by
      rw [Nat.one_le_iff_ne_zero]
      exact not_congr UInt32.toNat_inj.symm
    simp [holds?, Satisfied, counted]
  | _ => simp [holds?, Satisfied]

end Condition

/-! ## Tags -/

section

variable {σ : Type} (host : Host σ) (state : σ) (ctx : Context) (pass : Pass)

/-- The tags let their rule fire: none that was not understood may have been a condition, every
condition that the pass answers is satisfied, and the turn is one of those that turn-index tags
name, if there are such tags and the pass answers them. -/
structure Met (tags : List Tag) : Prop where
  understood : ∀ bad, Tag.invalid bad ∈ tags → bad.role ≠ none ∧ bad.role ≠ some .condition
  satisfied : ∀ c, Tag.condition c ∈ tags → pass.evaluates c = true →
    (∀ turn, c ≠ .turnIndexEquals turn) → c.Satisfied host state ctx
  turn : (∀ turn, Tag.condition (.turnIndexEquals turn) ∉ tags) ∨
    .turnIndexEquals ∉ pass.conditionKinds ∨ .condition (.turnIndexEquals ctx.turn) ∈ tags

variable {host state ctx pass}

theorem Met.of_perm {tags tags' : List Tag} (h : Met host state ctx pass tags)
    (perm : tags.Perm tags') : Met host state ctx pass tags' where
  understood bad mem := h.understood bad (perm.mem_iff.2 mem)
  satisfied c mem := h.satisfied c (perm.mem_iff.2 mem)
  turn := by
    simp only [← perm.mem_iff]
    exact h.turn

theorem allows_all_iff (tags : List Tag) : (∀ tag ∈ tags, tag.Allows host state ctx pass) ↔
    (∀ bad, Tag.invalid bad ∈ tags → bad.role ≠ none ∧ bad.role ≠ some .condition) ∧
      ∀ c, Tag.condition c ∈ tags → pass.evaluates c = true →
        (∀ turn, c ≠ .turnIndexEquals turn) → c.Satisfied host state ctx := by
  have understood : ∀ bad : InvalidTag, (Tag.invalid bad).Allows host state ctx pass ↔
      bad.role ≠ none ∧ bad.role ≠ some .condition := by
    rintro ⟨_ | _ | _ | _, problem⟩ <;> simp [Tag.Allows]
  constructor
  · intro all
    refine ⟨fun bad mem => (understood bad).1 (all _ mem), fun c mem asked other => ?_⟩
    exact c.holds?_iff_satisfied.1 ((Tag.allows_condition other).1 (all _ mem) asked)
  · rintro ⟨known, met⟩ tag mem
    cases tag with
    | timing phase => trivial
    | effect tagged => trivial
    | invalid bad => exact (understood bad).2 (known bad mem)
    | condition c =>
      by_cases index : ∃ turn, c = .turnIndexEquals turn
      · obtain ⟨turn, rfl⟩ := index
        trivial
      · have other : ∀ turn, c ≠ .turnIndexEquals turn := fun turn eq => index ⟨turn, eq⟩
        exact (Tag.allows_condition other).2 fun asked =>
          c.holds?_iff_satisfied.2 (met c mem asked other)

theorem mem_turnIndices {tags : List Tag} {turn : UInt32} :
    turn ∈ tags.filterMap (Tag.turnIndex? pass) ↔
      .turnIndexEquals ∈ pass.conditionKinds ∧ .condition (.turnIndexEquals turn) ∈ tags := by
  have answered : ∀ turn, pass.evaluates (.turnIndexEquals turn) = true ↔
      .turnIndexEquals ∈ pass.conditionKinds := fun _ => List.contains_iff_mem
  rw [List.mem_filterMap]
  constructor
  · rintro ⟨tag, mem, names⟩
    unfold Tag.turnIndex? at names
    split at names
    · split at names
      · rename_i evaluates
        cases names
        exact ⟨(answered _).1 evaluates, mem⟩
      · cases names
    · cases names
  · rintro ⟨answers, mem⟩
    exact ⟨_, mem, if_pos ((answered turn).2 answers)⟩

/-- The walk over the tags comes to what they say. -/
theorem fires_iff_met (rule : String) (tags : List Tag) :
    verdictOfTags host state ctx pass rule none tags = .fires ↔ Met host state ctx pass tags := by
  have turns : tags.filterMap (Tag.turnIndex? pass) = [] ∨
        ctx.turn ∈ tags.filterMap (Tag.turnIndex? pass) ↔
      (∀ turn, Tag.condition (.turnIndexEquals turn) ∉ tags) ∨
        .turnIndexEquals ∉ pass.conditionKinds ∨
        .condition (.turnIndexEquals ctx.turn) ∈ tags := by
    simp only [List.eq_nil_iff_forall_not_mem, mem_turnIndices]
    by_cases answers : ConditionKind.turnIndexEquals ∈ pass.conditionKinds <;> simp [answers]
  rw [verdictOfTags_eq_fires_iff, allows_all_iff]
  simp only [true_and, reduceCtorEq, false_or]
  rw [turns]
  exact ⟨fun ⟨⟨known, met⟩, turn⟩ => ⟨known, met, turn⟩,
    fun met => ⟨⟨met.understood, met.satisfied⟩, met.turn⟩⟩

/-- The conditions of a rule hold just when its tags say so, and they hold in any order of the tags if
they hold in one. -/
theorem fires_in_any_order (host : Host σ) (state : σ) (ctx : Context) (pass : Pass) (rule : Rule) :
    (verdictOfTags host state ctx pass rule.name none rule.tags = .fires ↔
        Met host state ctx pass rule.tags) ∧
      ∀ tags, rule.tags.Perm tags →
        (verdictOfTags host state ctx pass rule.name none tags = .fires ↔
          verdictOfTags host state ctx pass rule.name none rule.tags = .fires) := by
  refine ⟨fires_iff_met rule.name rule.tags, fun tags perm => ?_⟩
  rw [fires_iff_met, fires_iff_met]
  exact ⟨fun met => met.of_perm perm.symm, fun met => met.of_perm perm⟩

/-- A rule for the first and the third turn, after a draw with paper, is met in the third turn, from
its first tag to its last and back. -/
theorem fires_in_any_order_twin :
    let twin : Rule := { name := "Twin", tags :=
      [.timing .turnSettlement, .condition (.turnIndexEquals 1),
        .condition (.streak .draw .paper 0), .invalid ⟨some .effect, .missingKind⟩,
        .condition (.turnIndexEquals 3), .condition (.winsOnlyWith .scissors)] }
    let ctx : Context :=
      { Context.atTurn 3 5 with played := [.rock, .paper], outcomes := [.win, .draw] }
    Met Host.detached () ctx .settlement twin.tags ∧ twin.tags.Perm twin.tags.reverse ∧
      verdictOfTags Host.detached () ctx .settlement twin.name none twin.tags.reverse = .fires := by
  intro twin ctx
  have perm : twin.tags.Perm twin.tags.reverse := twin.tags.reverse_perm.symm
  have fires : verdictOfTags Host.detached () ctx .settlement twin.name none twin.tags = .fires := by
    decide
  obtain ⟨met, same⟩ := fires_in_any_order Host.detached () ctx .settlement twin
  exact ⟨met.1 fires, perm, (same _ perm).2 fires⟩

end

end Roshambo
